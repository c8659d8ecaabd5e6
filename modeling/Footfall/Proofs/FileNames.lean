import Footfall.Proofs.Files
import Footfall.Proofs.Numerals
import Mathlib.Data.List.Pairwise

/-!
The names of the store files. What reads the name of a file takes any digits for a number, and what
builds the name of a site writes its number without zeros in front and with its sign. So a name may
be read as a site whose own file has another name, and the file of a negative number is read as no
site.
-/

namespace Footfall

namespace Settings

variable {s : Settings} {dir name : String} {files : List String} {i : Int}

theorem after?_eq_some_iff {front text rest : String} :
    after? front text = some rest ↔ text = front ++ rest := by
  unfold after?
  constructor
  · intro h
    split at h
    · rename_i hfront
      obtain ⟨back, hback⟩ := List.isPrefixOf_iff_prefix.1 hfront
      rw [← hback, ← String.length_toList, List.drop_left] at h
      rw [← String.toList_inj, String.toList_append, ← hback, ← Option.some.inj h,
        String.toList_ofList]
    · cases h
  · rintro rfl
    rw [String.toList_append, if_pos (List.isPrefixOf_iff_prefix.2 (List.prefix_append ..)),
      ← String.length_toList, List.drop_left, String.ofList_toList]

/-- What is read as a site is its number in decimal, with any zeros in front. -/
theorem siteOfFile?_eq_some_iff : siteOfFile? name = some i ↔
    0 ≤ i ∧ ∃ w, name = "site-" ++ padded w i.toNat ++ ".db" := by
  constructor
  · intro h
    unfold siteOfFile? at h
    split at h
    · cases h
    · rename_i rest hrest
      obtain rfl := after?_eq_some_iff.1 hrest
      dsimp only at h
      split at h
      · rename_i hform
        simp only [Bool.and_eq_true, Bool.not_eq_true', List.isEmpty_eq_false_iff, beq_iff_eq]
          at hform
        obtain ⟨hne, hend⟩ := hform
        obtain rfl := Option.some.inj h
        set ds := rest.toList.takeWhile Char.isDigit with hds
        have hd : ∀ c ∈ ds, c.isDigit = true := fun c hc ↦ List.mem_takeWhile_imp hc
        have hsplit : rest.toList = ds ++ ".db".toList := by
          rw [← hend, hds, List.takeWhile_append_dropWhile]
        refine ⟨Int.natCast_nonneg _, ds.length, ?_⟩
        rw [Int.toNat_natCast, ← String.toList_inj]
        simp only [String.toList_append, toList_padded_natural hne hd, hsplit, List.append_assoc]
      · cases h
  · rintro ⟨hi, w, rfl⟩
    obtain ⟨n, rfl⟩ := Int.eq_ofNat_of_zero_le hi
    have hafter : after? "site-" ("site-" ++ padded w n ++ ".db") = some (padded w n ++ ".db") :=
      after?_eq_some_iff.2 String.append_assoc
    have hd : ∀ c ∈ (padded w n).toList, c.isDigit = true := fun c ↦ isDigit_of_mem_padded
    have htake : ((padded w n).toList ++ ".db".toList).takeWhile Char.isDigit =
        (padded w n).toList := by
      rw [List.takeWhile_append_of_pos hd]
      exact List.append_nil _
    have hdrop : ((padded w n).toList ++ ".db".toList).dropWhile Char.isDigit = ".db".toList := by
      rw [List.dropWhile_append_of_pos hd]
      rfl
    have hne : (padded w n).toList.isEmpty = false :=
      List.isEmpty_eq_false_iff.2 (toList_padded_ne_nil w n)
    simp only [siteOfFile?, Int.toNat_natCast, hafter, String.toList_append, htake, hdrop, hne,
      Text.natural_padded]
    rfl

theorem mem_persistedSites :
    i ∈ persistedSites files ↔ ∃ name ∈ files, siteOfFile? name = some i := by
  rw [persistedSites, List.mem_mergeSort, List.mem_filterMap]

theorem sorted_persistedSites (files : List String) :
    (persistedSites files).Pairwise (· ≤ ·) := by
  have hsorted : (persistedSites files).Pairwise fun a b ↦ decide (a ≤ b) = true :=
    List.pairwise_mergeSort (by simpa using fun _ _ _ ↦ Int.le_trans)
      (by simpa using fun a b ↦ Int.le_total a b) (files.filterMap siteOfFile?)
  simpa using hsorted

/-- The file that the address of a site's store names is in the directory. -/
def HasOwnFile (s : Settings) (dir : String) (files : List String) (i : Int) : Prop :=
  ∃ name ∈ files, s.storeUrl (.int i) = .ok ("sqlite+aiosqlite:///" ++ joinPath dir name)

theorem joinPath_inj {name' : String} : joinPath dir name = joinPath dir name' ↔ name = name' := by
  unfold joinPath
  split <;> simp [String.append_assoc]

theorem hasOwnFile_iff (hdir : s.storeDir = .text dir) :
    s.HasOwnFile dir files i ↔ storeFile i ∈ files := by
  have hurl : s.storeUrl (.int i) = .ok ("sqlite+aiosqlite:///" ++ joinPath dir (storeFile i)) := by
    simp only [storeUrl, hdir]
    rfl
  simp only [HasOwnFile, hurl, Except.ok.injEq, String.append_right_inj, joinPath_inj]
  constructor
  · rintro ⟨_, hname, rfl⟩
    exact hname
  · exact fun h ↦ ⟨_, h, rfl⟩

/-- No site is listed twice exactly if no two names are read as one. -/
theorem nodup_persistedSites_iff (hfiles : files.Nodup) : (persistedSites files).Nodup ↔
    ∀ a ∈ files, ∀ b ∈ files, ∀ i, siteOfFile? a = some i → siteOfFile? b = some i → a = b := by
  have hperm := List.mergeSort_perm (files.filterMap siteOfFile?) fun a b ↦ decide (a ≤ b)
  rw [persistedSites, hperm.nodup_iff, List.Nodup, List.pairwise_filterMap]
  constructor
  · intro h a ha b hb i hai hbi
    by_contra hab
    have hsymm : Std.Symm fun a b ↦
        ∀ m, siteOfFile? a = some m → ∀ n, siteOfFile? b = some n → m ≠ n :=
      ⟨fun a b h m hm n hn ↦ (h n hn m hm).symm⟩
    exact h.forall ha hb hab i hai i hbi rfl
  · intro h
    refine hfiles.imp_of_mem fun {a b} ha hb hab m hm n hn hmn ↦ hab ?_
    exact h a ha b hb m hm (hmn ▸ hn)

/-- Every name that is read as a site is the one that is built for it. -/
def AreOwnNames (files : List String) : Prop :=
  ∀ name ∈ files, ∀ i, siteOfFile? name = some i → name = storeFile i

/-- The sites are those whose own file is there, each once, exactly if no other name is read as one
of them and no file is that of a negative number. -/
theorem listsOwnFiles_iff (hfiles : files.Nodup) :
    ((∀ i, i ∈ persistedSites files ↔ storeFile i ∈ files) ∧
        (persistedSites files).Pairwise (· < ·)) ↔
      AreOwnNames files ∧ ∀ i < 0, storeFile i ∉ files := by
  constructor
  · rintro ⟨hown, hsorted⟩
    have hnodup := (nodup_persistedSites_iff hfiles).1 (hsorted.imp fun h ↦ h.ne)
    refine ⟨fun name hname i hi ↦ ?_, fun i hneg hi ↦ ?_⟩
    · have hfile := (hown i).1 (mem_persistedSites.2 ⟨name, hname, hi⟩)
      have hpos := (siteOfFile?_eq_some_iff.1 hi).1
      exact hnodup name hname _ hfile i hi (siteOfFile?_storeFile hpos)
    · obtain ⟨name, -, hread⟩ := mem_persistedSites.1 ((hown i).2 hi)
      exact Int.not_lt.2 (siteOfFile?_eq_some_iff.1 hread).1 hneg
  · rintro ⟨hnames, hneg⟩
    refine ⟨fun i ↦ ⟨fun hi ↦ ?_, fun hfile ↦ ?_⟩, ?_⟩
    · obtain ⟨name, hname, hread⟩ := mem_persistedSites.1 hi
      exact hnames name hname i hread ▸ hname
    · have hpos : 0 ≤ i := Int.not_lt.1 fun hlt ↦ hneg i hlt hfile
      exact mem_persistedSites.2 ⟨_, hfile, siteOfFile?_storeFile hpos⟩
    · have hnodup := (nodup_persistedSites_iff hfiles).2 fun a ha b hb i hai hbi ↦
        (hnames a ha i hai).trans (hnames b hb i hbi).symm
      exact (sorted_persistedSites files).imp₂ (fun a b hle hne ↦ lt_of_le_of_ne hle hne) hnodup

end Settings

/-- Stores on disk that have rows are found again after a restart, except those of negative numbers.
-/
theorem Registry.mem_persistedSites_restart {r : Registry} {n : Int} (hp : r.persistent = true)
    (hrows : r.rowsOf n ≠ []) : n ∈ r.restart.persistedSites ↔ 0 ≤ n := by
  rw [mem_persistedSites_iff]
  constructor
  · rintro ⟨name, -, hread⟩
    exact (Settings.siteOfFile?_eq_some_iff.1 hread).1
  · intro hn
    have hkeys := mem_keys_of_rowsOf (r := r.restart) ((rowsOf_restart hp n).symm ▸ hrows)
    exact ⟨_, (mem_files (r := r.restart) hp).2 (.inl ⟨n, hkeys, rfl⟩),
      Settings.siteOfFile?_storeFile hn⟩

namespace Settings

/-- The sites of a directory are listed in order, by the names that are the number of a site with
any zeros in front. They are those whose own file is there, each once, exactly if no name has such a
zero and no file is that of a negative number. Sites that have been written to are listed after a
restart, unless their number is negative. -/
theorem persistedSites_spec {s : Settings} {dir : String} (hdir : s.storeDir = .text dir)
    {files : List String} (hfiles : files.Nodup) :
    (∀ i, i ∈ persistedSites files ↔
        0 ≤ i ∧ ∃ w, "site-" ++ padded w i.toNat ++ ".db" ∈ files) ∧
      (persistedSites files).Pairwise (· ≤ ·) ∧
      (((∀ i, i ∈ persistedSites files ↔ s.HasOwnFile dir files i) ∧
          (persistedSites files).Pairwise (· < ·)) ↔
        AreOwnNames files ∧ ∀ i < 0, ¬s.HasOwnFile dir files i) ∧
      ∀ r : Registry, r.persistent = true → ∀ n, r.rowsOf n ≠ [] →
        (n ∈ r.restart.persistedSites ↔ 0 ≤ n) := by
  refine ⟨fun i ↦ ?_, sorted_persistedSites files, ?_,
    fun r hp n ↦ Registry.mem_persistedSites_restart hp⟩
  · simp only [mem_persistedSites, siteOfFile?_eq_some_iff]
    constructor
    · rintro ⟨_, hname, hi, w, rfl⟩
      exact ⟨hi, w, hname⟩
    · rintro ⟨hi, w, hname⟩
      exact ⟨_, hname, hi, w, rfl⟩
  · simp only [hasOwnFile_iff hdir]
    exact listsOwnFiles_iff hfiles

theorem persistedSites_spec_two :
    ({ storeDir := .text "stores" } : Settings).storeDir = .text "stores" ∧
      ["site-12.db", "site-3.db"].Nodup ∧
      ∀ i, i ∈ persistedSites ["site-12.db", "site-3.db"] ↔
        ({ storeDir := .text "stores" } : Settings).HasOwnFile "stores"
          ["site-12.db", "site-3.db"] i := by
  have hfiles : ["site-12.db", "site-3.db"].Nodup := by decide
  have hread : ∀ name ∈ ["site-12.db", "site-3.db"], ∃ n, 0 ≤ n ∧ siteOfFile? name = some n ∧
      storeFile n = name := by
    simp only [List.forall_mem_cons]
    exact ⟨⟨12, by decide⟩, ⟨3, by decide⟩, by simp⟩
  obtain ⟨-, -, hown, -⟩ :=
    persistedSites_spec (s := { storeDir := .text "stores" }) rfl hfiles
  refine ⟨rfl, hfiles, (hown.2 ⟨fun name hname i hi ↦ ?_, fun i hneg hi ↦ ?_⟩).1⟩
  · obtain ⟨n, -, hn, rfl⟩ := hread name hname
    cases hn.symm.trans hi
    rfl
  · obtain ⟨n, hpos, hn, -⟩ := hread _ ((hasOwnFile_iff rfl).1 hi)
    obtain rfl := eq_of_siteOfFile?_storeFile hn
    exact absurd hneg (Int.not_lt.2 hpos)

/-- A name with a zero in front is read as a site whose own file is not there, and the file of a
negative number is read as no site. -/
theorem paddedName_is_listed :
    1 ∈ persistedSites ["site-01.db"] ∧ storeFile 1 ∉ ["site-01.db"] ∧
      -1 ∉ persistedSites ["site--1.db"] ∧ storeFile (-1) ∈ ["site--1.db"] := by
  refine ⟨mem_persistedSites.2 ⟨"site-01.db", by simp, by decide⟩, by decide, fun h ↦ ?_, by decide⟩
  obtain ⟨name, -, hread⟩ := mem_persistedSites.1 h
  exact absurd (siteOfFile?_eq_some_iff.1 hread).1 (by decide)

end Settings

end Footfall
