import Footfall.Event.Canonical
import Footfall.Proofs.Values
import Mathlib.Data.List.DropRight

/-!
Cleaning the fields of an event. What has been cleaned is left as it is when it is cleaned once
more: texts have no blanks to lose, sizes are whole numbers that survive their conversion, and
account and team are one.
-/

namespace Footfall

namespace Text

/-- A text that is not empty, and has no blank at either end. -/
structure IsTrimmed (s : String) : Prop where
  ne_nil : s.toList ≠ []
  head : ∀ c, s.toList.head? = some c → isBlank c = false
  last : ∀ c, s.toList.getLast? = some c → isBlank c = false

theorem trimBy_eq_rdropWhile (p : Char → Bool) (cs : List Char) :
    trimBy p cs = (cs.dropWhile p).rdropWhile p := rfl

theorem IsTrimmed.strip_eq {s : String} (h : IsTrimmed s) : strip s = s := by
  have hdrop : s.toList.dropWhile isBlank = s.toList := by
    cases hs : s.toList with
    | nil => rfl
    | cons c rest => exact List.dropWhile_cons_of_neg (by simp [h.head c (by simp [hs])])
  have hrdrop : s.toList.rdropWhile isBlank = s.toList :=
    List.rdropWhile_eq_self_iff.2 fun hl ↦ by
      simp [h.last _ (List.getLast?_eq_some_getLast hl)]
  rw [strip, trimBy_eq_rdropWhile, hdrop, hrdrop, String.ofList_toList]

theorem isTrimmed_strip {s : String} (h : (strip s).isEmpty = false) : IsTrimmed (strip s) := by
  have hlist : (strip s).toList = (s.toList.dropWhile isBlank).rdropWhile isBlank := by
    rw [strip, trimBy_eq_rdropWhile, String.toList_ofList]
  have hne : (strip s).toList ≠ [] := by
    simpa using h
  refine ⟨hne, fun c hc ↦ ?_, fun c hc ↦ ?_⟩
  · rw [hlist] at hc hne
    have hhead : (s.toList.dropWhile isBlank).head? = some c := by
      obtain ⟨rest, hrest⟩ := List.rdropWhile_prefix isBlank (s.toList.dropWhile isBlank)
      rw [← hrest, List.head?_append, hc, Option.some_or]
    have := List.head?_dropWhile_not isBlank s.toList
    simpa [hhead] using this
  · rw [hlist] at hc hne
    have hlast := List.rdropWhile_last_not isBlank _ hne
    rw [List.getLast?_eq_some_getLast hne, Option.some.injEq] at hc
    simpa [hc] using hlast

theorem strip_isEmpty_iff (s : String) :
    (strip s).isEmpty = true ↔ ∀ c ∈ s.toList, isBlank c = true := by
  have hdrop : (∀ c ∈ s.toList.dropWhile isBlank, isBlank c = true) ↔
      s.toList.dropWhile isBlank = [] := by
    refine ⟨fun h ↦ ?_, fun h ↦ by simp [h]⟩
    by_contra hne
    have hhead := List.head?_dropWhile_not isBlank s.toList
    rw [List.head?_eq_some_head hne] at hhead
    simp [h _ (List.head_mem hne)] at hhead
  have hlist : (strip s).isEmpty = true ↔ (strip s).toList = [] := by simp
  rw [hlist, strip, trimBy_eq_rdropWhile, String.toList_ofList,
    List.rdropWhile_eq_nil_iff, hdrop, List.dropWhile_eq_nil_iff]

theorem mem_of_mem_strip {s : String} {c : Char} (h : c ∈ (strip s).toList) : c ∈ s.toList := by
  rw [strip, trimBy, String.toList_ofList, List.mem_reverse] at h
  have hmem := (List.dropWhile_sublist _).mem h
  rw [List.mem_reverse] at hmem
  exact (List.dropWhile_sublist _).mem hmem

end Text

namespace Event

open Value

variable {fields cleaned : Fields} {v : Value} {name : String}

theorem cleanText_int (n : Int) :
    cleanText (.int n) =
      if isLong n then .error .longWhole else .ok (nonEmpty (Text.strip (toString n))) := rfl

/-- A cleaned text is clean. -/
theorem isTrimmed_of_cleanText {s : String} (h : cleanText v = .ok (some s)) :
    Text.IsTrimmed s := by
  have hstrip {t : String} (h : nonEmpty (Text.strip t) = some s) : Text.IsTrimmed s := by
    unfold nonEmpty at h
    split at h
    · cases h
    · rename_i hne
      cases h
      exact Text.isTrimmed_strip (by simpa using hne)
  cases v with
  | text t => exact hstrip (Except.ok.inj h)
  | int n =>
    rw [cleanText_int] at h
    cases hlong : isLong n with
    | true => simp [hlong] at h
    | false =>
      rw [hlong] at h
      exact hstrip (Except.ok.inj h)
  | float x => exact hstrip (Except.ok.inj h)
  | _ => cases h

theorem cleanText_of_isTrimmed {s : String} (h : Text.IsTrimmed s) :
    cleanText (.text s) = .ok (some s) := by
  have hne : s.isEmpty = false := by
    simpa using h.ne_nil
  simp [cleanText, nonEmpty, h.strip_eq, hne]

theorem toReal_int_of_truncate? {m n : Int} (h : (Double.ofInt n).truncate? = some m) :
    toReal (.int n) = .ok (.ofInt n) := by
  rw [toReal_int]
  cases hx : Double.ofInt n with
  | infinite s =>
    rw [hx] at h
    cases h
  | _ => rfl

theorem positivePart_eq_some_iff {x : Double} {n : Int} :
    positivePart x = .ok (some n) ↔ x.truncate? = some n ∧ 0 < n := by
  cases x with
  | nan => exact iff_of_false (fun h ↦ by cases h) fun h ↦ by cases h.1
  | infinite s => exact iff_of_false (fun h ↦ by cases h) fun h ↦ by cases h.1
  | finite s m e =>
    obtain ⟨k, hk⟩ : ∃ k, (Double.finite s m e).truncate? = some k := ⟨_, rfl⟩
    have hpart : positivePart (.finite s m e) = .ok (if 0 < k then some k else none) := by
      simp only [positivePart, hk]
    rw [hpart, hk]
    by_cases hpos : 0 < k
    · simp only [hpos, if_true, Except.ok.injEq, Option.some.injEq]
      exact ⟨fun h ↦ ⟨h, h ▸ hpos⟩, And.left⟩
    · simp only [hpos, if_false, Except.ok.injEq, Option.some.injEq, reduceCtorEq, false_iff]
      exact fun h ↦ hpos (h.1 ▸ h.2)

/-- A cleaned size is positive, and it is clean. -/
theorem cleanDimension_idem {o : Option Int} (hv : v.IsActual) (h : cleanDimension v = .ok o) :
    cleanDimension (.ofWhole o) = .ok o ∧ ∀ n, o = some n → 0 < n := by
  cases o with
  | none => exact ⟨rfl, by simp⟩
  | some n =>
    obtain ⟨x, hx, hpart⟩ : ∃ x, v.toReal = .ok x ∧ positivePart x = .ok (some n) := by
      unfold cleanDimension at h
      split at h
      · cases h
      · split at h
        · exact ⟨_, by assumption, h⟩
        · cases h
        · cases h
    obtain ⟨htruncate, hpos⟩ := positivePart_eq_some_iff.1 hpart
    have hsame := Double.truncate?_ofInt_of_truncate? (isRepresentable_toReal hv hx) htruncate hpos
    refine ⟨?_, by simpa using hpos⟩
    simp only [ofWhole, ofOption, cleanDimension, toReal_int_of_truncate? hsame]
    exact positivePart_eq_some_iff.2 ⟨hsame, hpos⟩

/-- What cleaning makes sure of: the texts are clean, and so are the sizes, and account and team are
one. -/
structure IsClean (fields : Fields) : Prop where
  required : ∀ name ∈ ["event", "tag_id"],
    ∃ s, lookup fields name = some (.text s) ∧ Text.IsTrimmed s
  texts : ∀ name ∈ textFields,
    ∃ o, lookup fields name = some (.ofText o) ∧ ∀ s, o = some s → Text.IsTrimmed s
  sizes : ∀ name ∈ ["screen_width", "screen_height"],
    ∃ o, lookup fields name = some (.ofWhole o) ∧ cleanDimension (.ofWhole o) = .ok o ∧
      ∀ n, o = some n → 0 < n
  team : ∃ v, lookup fields "team_id" = some v ∧ lookup fields "account_id" = some v

theorem areActual_renameFields (h : AreActual fields) : AreActual (renameFields fields) := by
  have hrename {fields : Fields} (h : AreActual fields) (old name : String) :
      AreActual (renameField fields old name) := by
    unfold renameField
    split
    · rename_i v hv
      split
      · have hremove : AreActual (Value.remove fields old) :=
          fun f hf ↦ h f (List.mem_of_mem_filter hf)
        exact hremove.put name (h _ (mem_of_lookup hv))
      · exact h
    · exact h
  unfold renameFields
  generalize aliases = as
  induction as generalizing fields with
  | nil => exact h
  | cons a as ih => exact ih (hrename h a.1 a.2)

theorem exists_of_putRequired (h : putRequired fields name = .ok cleaned) :
    ∃ s, put fields name (.text s) = cleaned ∧ Text.IsTrimmed s := by
  unfold putRequired at h
  split at h
  · rename_i s hs
    cases h
    exact ⟨s, rfl, isTrimmed_of_cleanText hs⟩
  · cases h
  · cases h

theorem exists_of_putDimension (ha : AreActual fields) (h : putDimension fields name = .ok cleaned) :
    ∃ o, put fields name (.ofWhole o) = cleaned ∧ cleanDimension (.ofWhole o) = .ok o ∧
      ∀ n, o = some n → 0 < n := by
  unfold putDimension at h
  split at h
  · rename_i o ho
    cases h
    exact ⟨o, rfl, cleanDimension_idem (ha.get name) ho⟩
  · cases h

theorem exists_of_putText (h : putText fields name = .ok cleaned) :
    ∃ o, put fields name (.ofText o) = cleaned ∧ ∀ s, o = some s → Text.IsTrimmed s := by
  unfold putText at h
  split at h
  · rename_i o ho
    cases h
    exact ⟨o, rfl, fun s hs ↦ isTrimmed_of_cleanText (hs ▸ ho)⟩
  · cases h

/-- What putting texts leaves of fields: clean texts under their names, and all else as it was. -/
structure HasTexts (names : List String) (fields cleaned : Fields) : Prop where
  kept : ∀ name ∉ names, lookup cleaned name = lookup fields name
  texts : ∀ name ∈ names, ∃ o, lookup cleaned name = some (.ofText o) ∧
    ∀ s, o = some s → Text.IsTrimmed s
  actual : AreActual fields → AreActual cleaned

theorem hasTexts_of_foldlM {names : List String} (h : names.foldlM putText fields = .ok cleaned) :
    HasTexts names fields cleaned := by
  induction names generalizing fields with
  | nil =>
    cases h
    exact ⟨fun _ _ ↦ rfl, fun _ hname ↦ (List.not_mem_nil hname).elim, id⟩
  | cons n rest ih =>
    rw [List.foldlM_cons] at h
    obtain ⟨_, hput, hrest⟩ := bind_eq_ok_iff.1 h
    obtain ⟨o, rfl, htrimmed⟩ := exists_of_putText hput
    have ⟨hkept, htexts, hactual⟩ := ih hrest
    constructor
    case kept =>
      intro name hname
      obtain ⟨hne, hnot⟩ := not_or.1 (List.mem_cons.not.1 hname)
      rw [hkept name hnot, lookup_put_of_ne _ _ hne]
    case texts =>
      intro name hname
      by_cases hin : name ∈ rest
      · exact htexts name hin
      · obtain rfl := (List.mem_cons.1 hname).resolve_right hin
        exact ⟨o, by rw [hkept name hin, lookup_put_self], htrimmed⟩
    case actual => exact fun ha ↦ hactual (ha.put n (isActual_ofText o))

theorem exists_putTeam (h : AreActual fields) :
    ∃ v : Value, v.IsActual ∧
      putTeam fields = put (put fields "team_id" v) "account_id" v := by
  refine ⟨_, ?_, rfl⟩
  split
  · exact h.get _
  · exact h.get _

theorem clean_eq_ok_iff : clean fields = .ok cleaned ↔ ∃ f₁ f₂ f₃ f₄ f₅,
    putRequired (renameFields fields) "event" = .ok f₁ ∧ putRequired f₁ "tag_id" = .ok f₂ ∧
      textFields.foldlM putText f₂ = .ok f₃ ∧ putDimension f₃ "screen_width" = .ok f₄ ∧
      putDimension f₄ "screen_height" = .ok f₅ ∧ putTeam f₅ = cleaned := by
  simp only [clean, bind_eq_ok_iff, pure, Except.pure, Except.ok.injEq]
  constructor
  · rintro ⟨f₁, h₁, f₂, h₂, f₃, h₃, f₄, h₄, f₅, h₅, h⟩
    exact ⟨f₁, f₂, f₃, f₄, f₅, h₁, h₂, h₃, h₄, h₅, h⟩
  · rintro ⟨f₁, f₂, f₃, f₄, f₅, h₁, h₂, h₃, h₄, h₅, h⟩
    exact ⟨f₁, h₁, f₂, h₂, f₃, h₃, f₄, h₄, f₅, h₅, h⟩

/-- What is left of cleaning is clean. -/
theorem isClean_of_clean (ha : AreActual fields) (hc : clean fields = .ok cleaned) :
    IsClean cleaned ∧ AreActual cleaned := by
  obtain ⟨f₁, f₂, f₃, f₄, f₅, hevent, htag, htexts, hwidth, hheight, rfl⟩ := clean_eq_ok_iff.1 hc
  obtain ⟨event, rfl, htrimmed⟩ := exists_of_putRequired hevent
  obtain ⟨tag, rfl, htrimmed'⟩ := exists_of_putRequired htag
  have ha₂ := ((areActual_renameFields ha).put "event" (v := .text event) trivial).put "tag_id"
    (v := .text tag) trivial
  obtain ⟨hkept, htext, hactual⟩ := hasTexts_of_foldlM htexts
  have ha₃ := hactual ha₂
  obtain ⟨width, rfl, hsize⟩ := exists_of_putDimension ha₃ hwidth
  have ha₄ := ha₃.put "screen_width" (isActual_ofWhole width)
  obtain ⟨height, rfl, hsize'⟩ := exists_of_putDimension ha₄ hheight
  have ha₅ := ha₄.put "screen_height" (isActual_ofWhole height)
  obtain ⟨team, hteam, hput⟩ := exists_putTeam ha₅
  rw [hput]
  refine ⟨?_, (ha₅.put _ hteam).put _ hteam⟩
  have hother : ∀ name ∈ textFields,
      name ∉ ["screen_width", "screen_height", "team_id", "account_id"] := by decide
  constructor
  case required =>
    intro name hname
    rcases List.mem_cons.1 hname with rfl | hname
    · refine ⟨event, ?_, htrimmed⟩
      simp (disch := decide) only [lookup_put_of_ne, hkept, lookup_put_self]
    · obtain rfl := List.mem_singleton.1 hname
      refine ⟨tag, ?_, htrimmed'⟩
      simp (disch := decide) only [lookup_put_of_ne, hkept, lookup_put_self]
  case texts =>
    intro name hname
    have hne := hother name hname
    simp only [List.mem_cons, List.not_mem_nil, or_false, not_or] at hne
    rw [lookup_put_of_ne _ _ hne.2.2.2, lookup_put_of_ne _ _ hne.2.2.1,
      lookup_put_of_ne _ _ hne.2.1, lookup_put_of_ne _ _ hne.1]
    exact htext name hname
  case sizes =>
    intro name hname
    rcases List.mem_cons.1 hname with rfl | hname
    · refine ⟨width, ?_, hsize⟩
      simp (disch := decide) only [lookup_put_of_ne, lookup_put_self]
    · obtain rfl := List.mem_singleton.1 hname
      refine ⟨height, ?_, hsize'⟩
      simp (disch := decide) only [lookup_put_of_ne, lookup_put_self]
  case team =>
    refine ⟨team, ?_, lookup_put_self ..⟩
    simp (disch := decide) only [lookup_put_of_ne, lookup_put_self]

theorem foldl_eq_self {α β : Type} {f : α → β → α} {a : α} {bs : List β}
    (h : ∀ b ∈ bs, f a b = a) : bs.foldl f a = a :=
  List.foldlRecOn (motive := (· = a)) bs f rfl fun x hx b hb ↦ by rw [hx, h b hb]

theorem foldlM_eq_self {α β ε : Type} {f : α → β → Except ε α} {a : α} {bs : List β}
    (h : ∀ b ∈ bs, f a b = .ok a) : bs.foldlM f a = .ok a := by
  induction bs with
  | nil => rfl
  | cons b bs ih =>
    rw [List.foldlM_cons, h b (by simp)]
    exact ih fun c hc ↦ h c (List.mem_cons_of_mem _ hc)

theorem renameFields_of_lookup (h : ∀ a ∈ aliases, lookup fields a.1 = none) :
    renameFields fields = fields := by
  refine foldl_eq_self fun a ha ↦ ?_
  rw [renameField, h a ha]

/-- Cleaning changes nothing that is clean. -/
theorem clean_of_isClean (h : IsClean fields) (hnew : ∀ a ∈ aliases, lookup fields a.1 = none) :
    clean fields = .ok fields := by
  have hrequired {name : String} (hname : name ∈ ["event", "tag_id"]) :
      putRequired fields name = .ok fields := by
    obtain ⟨s, hs, htrimmed⟩ := h.required name hname
    simp only [putRequired, get_of_lookup hs, cleanText_of_isTrimmed htrimmed, put_of_lookup hs]
  have htext : ∀ name ∈ textFields, putText fields name = .ok fields := by
    intro name hname
    obtain ⟨o, ho, htrimmed⟩ := h.texts name hname
    have hclean : cleanText (.ofText o) = .ok o := by
      cases o with
      | none => rfl
      | some s => exact cleanText_of_isTrimmed (htrimmed s rfl)
    simp only [putText, get_of_lookup ho, hclean, put_of_lookup ho]
  have hsize {name : String} (hname : name ∈ ["screen_width", "screen_height"]) :
      putDimension fields name = .ok fields := by
    obtain ⟨o, ho, hclean, -⟩ := h.sizes name hname
    simp only [putDimension, get_of_lookup ho, hclean, put_of_lookup ho]
  have hteam : putTeam fields = fields := by
    obtain ⟨v, hv, hv'⟩ := h.team
    simp only [putTeam, get_of_lookup hv, get_of_lookup hv', ite_self, put_of_lookup hv,
      put_of_lookup hv']
  refine clean_eq_ok_iff.2 ⟨fields, fields, fields, fields, fields, ?_, hrequired (by simp),
    foldlM_eq_self htext, hsize (by simp), hsize (by simp), hteam⟩
  rw [renameFields_of_lookup hnew, hrequired (by simp)]

end Event

end Footfall
