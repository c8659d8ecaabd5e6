import Footfall.Directory.Remote
import Footfall.Proofs.Batch
import Footfall.Proofs.Failing
import Footfall.Proofs.Listing

/-!
Answers of the remote directory. A look-up has a result exactly if the answer is a success that holds
rows of the expected shape, and it is an outage exactly if the directory was not reached or refused.
Any other answer ends the request by a fault, or by the issues of a site that cannot be read.
-/

namespace Footfall

theorem StorageKind.ofValue?_eq_some_iff {v : Value} {k : StorageKind} :
    ofValue? v = some k ↔ v = .text k.name := by
  constructor
  · intro h
    cases v with
    | text s =>
      have hname := List.find?_some h
      rw [eq_of_beq hname]
    | _ => cases h
  · rintro rfl
    cases k <;> decide

theorem Reading.get_eq_ok_iff {α : Type} {r : Reading α} {a : α} :
    r.get = .ok a ↔ r = .accepted a := by
  cases r <;> simp [Reading.get]

/-- A failure that tells nothing of the directory: a fault, or the issues of what was read. -/
def Failure.IsBreakdown (e : Failure) : Prop := e.IsFault ∨ ∃ is, e = .rejected is

/-- A computation that is an outage exactly if a condition holds, and otherwise fails by a breakdown
alone. -/
def IsOutageIf {α : Type} (x : Except Failure α) (p : Prop) : Prop :=
  FailsWhen x p Failure.IsOutage Failure.IsBreakdown

theorem isOutageIf_mapError {α : Type} (x : Except Fault α) :
    IsOutageIf (x.mapError .fault) False := by
  cases x with
  | error f => exact .error_otherwise (.inl ⟨f, rfl⟩)
  | ok a => exact .ok a

theorem isOutageIf_get {α : Type} (r : Reading α) : IsOutageIf r.get False := by
  cases r with
  | accepted a => exact .ok a
  | rejected is => exact .error_otherwise (.inr ⟨is, rfl⟩)
  | failed f => exact .error_otherwise (.inl ⟨f, rfl⟩)

namespace RemoteDirectory

variable {response : DirectoryResponse} {body : List UInt8} {answer fields : Fields} {rows row : Value}
  {x : Site}

/-- The rows that an answer holds: those of the first of its results, if there are results. -/
inductive HoldsRows (answer : Fields) : Value → Prop
  | none (h : ((Value.lookup answer "result").getD (.list [])).isTruthy = false) :
    HoldsRows answer (.list [])
  | first {fields : Fields} {rest : List Value}
    (h : Value.lookup answer "result" = some (.list (.object fields :: rest))) :
    HoldsRows answer ((Value.lookup fields "results").getD (.list []))

/-- A success with rows: its status and its flag tell so, and its body is an object. -/
inductive Holds : DirectoryResponse → Value → Prop
  | success {status : Int} {body : List UInt8} {answer : Fields} {rows : Value}
    (hstatus : 200 ≤ status ∧ status < 300) (hbody : bodyValue body = .ok (.object answer))
    (hflag : (Value.get answer "success").isTruthy = true) (hrows : HoldsRows answer rows) :
    Holds (.answered status body) rows

/-- The directory was not reached, or it tells that there was no success. -/
inductive IsRefused : DirectoryResponse → Prop
  | lost : IsRefused .lost
  | status {status : Int} {body : List UInt8} (h : ¬(200 ≤ status ∧ status < 300)) :
    IsRefused (.answered status body)
  | flag {status : Int} {body : List UInt8} {answer : Fields}
    (hbody : bodyValue body = .ok (.object answer))
    (hflag : (Value.get answer "success").isTruthy = false) : IsRefused (.answered status body)

theorem fieldsOf_eq_ok_iff {v : Value} : fieldsOf v = .ok fields ↔ v = .object fields := by
  cases v <;> simp [fieldsOf]

theorem body_eq_ok_iff :
    (bodyValue body >>= fieldsOf) = .ok answer ↔ bodyValue body = .ok (.object answer) := by
  simp [bind_eq_ok_iff, fieldsOf_eq_ok_iff]

theorem firstOf_object_iff {v : Value} : firstOf v = .ok (.object fields) ↔
    ∃ rest, v = .list (.object fields :: rest) := by
  cases v with
  | list items => cases items <;> simp [firstOf]
  | _ => simp [firstOf]

theorem resultRows_eq_ok_iff :
    resultRows ((Value.lookup answer "result").getD (.list [])) = .ok rows ↔
      HoldsRows answer rows := by
  unfold resultRows
  generalize hresults : (Value.lookup answer "result").getD (.list []) = results
  have hstated {v : Value} {rest : List Value} :
      results = .list (v :: rest) ↔ Value.lookup answer "result" = some (.list (v :: rest)) := by
    rw [← hresults]
    cases Value.lookup answer "result" <;> simp
  constructor
  · intro h
    cases htrue : results.isTruthy with
    | false =>
      rw [htrue] at h
      cases h
      exact .none (by rw [hresults, htrue])
    | true =>
      cases hlength : hasLength results with
      | false => simp [htrue, hlength] at h
      | true =>
        simp only [htrue, hlength, Bool.not_true, Bool.false_eq_true, if_false] at h
        obtain ⟨v, hfirst, hv⟩ := bind_eq_ok_iff.1 h
        obtain ⟨fields, hfields, hrows⟩ := bind_eq_ok_iff.1 hv
        rw [fieldsOf_eq_ok_iff] at hfields
        subst hfields
        obtain ⟨rest, hrest⟩ := firstOf_object_iff.1 hfirst
        cases hrows
        exact .first (hstated.1 hrest)
  · rintro (hfalse | hfirst)
    · rw [hresults] at hfalse
      simp [hfalse]
    · rw [hstated.2 hfirst]
      rfl

/-- The rows of an answer with a status of success, which are read only behind a flag of success. -/
theorem rows_of_isSuccess {status : Int} (hstatus : isSuccess status = true) :
    RemoteDirectory.rows (.answered status body) =
      (bodyValue body >>= fieldsOf).mapError .fault >>= fun answer ↦
        if (Value.get answer "success").isTruthy then
          (resultRows ((Value.lookup answer "result").getD (.list []))).mapError .fault
        else .error (.outage (.directoryQuery (Value.get answer "errors"))) := by
  simp only [RemoteDirectory.rows, hstatus, Bool.not_true, Bool.false_eq_true, if_false]
  congr 1
  funext answer
  cases (Value.get answer "success").isTruthy <;> rfl

theorem rows_eq_ok_iff : RemoteDirectory.rows response = .ok rows ↔ Holds response rows := by
  cases response with
  | lost => exact iff_of_false (fun h ↦ by cases h) fun h ↦ nomatch h
  | answered status body =>
    cases hstatus : isSuccess status with
    | false =>
      rw [rows_of_not_isSuccess body hstatus]
      refine iff_of_false (fun h ↦ by cases h) fun h ↦ ?_
      cases h with
      | success hs => simp [isSuccess, hs] at hstatus
    | true =>
      rw [rows_of_isSuccess hstatus, bind_eq_ok_iff]
      simp only [mapError_eq_ok_iff, body_eq_ok_iff]
      constructor
      · rintro ⟨answer, hbody, h⟩
        split at h
        · rename_i hflag
          rw [mapError_eq_ok_iff, resultRows_eq_ok_iff] at h
          exact .success (of_decide_eq_true hstatus) hbody hflag h
        · cases h
      · rintro ⟨hs, hbody, hflag, hrows⟩
        refine ⟨_, hbody, ?_⟩
        rw [if_pos hflag, mapError_eq_ok_iff, resultRows_eq_ok_iff]
        exact hrows

theorem isOutageIf_rows (response : DirectoryResponse) :
    IsOutageIf (RemoteDirectory.rows response) (IsRefused response) := by
  cases response with
  | lost => exact ⟨fun _ ↦ ⟨_, rfl, _, rfl⟩, fun h ↦ absurd .lost h⟩
  | answered status body =>
    cases hstatus : isSuccess status with
    | false =>
      rw [rows_of_not_isSuccess body hstatus]
      exact ⟨fun _ ↦ ⟨_, rfl, _, rfl⟩, fun h ↦ absurd (.status (of_decide_eq_false hstatus)) h⟩
    | true =>
      rw [rows_of_isSuccess hstatus]
      have hs := of_decide_eq_true hstatus
      cases hbody : bodyValue body >>= fieldsOf with
      | error f =>
        have hnot : ¬IsRefused (.answered status body) := by
          rintro (_ | h | ⟨hanswer, -⟩)
          · exact h hs
          · cases hbody.symm.trans (body_eq_ok_iff.2 hanswer)
        refine ⟨fun h ↦ absurd h hnot, fun _ e he ↦ ?_⟩
        cases he
        exact .inl ⟨f, rfl⟩
      | ok answer =>
        have hanswer := body_eq_ok_iff.1 hbody
        show IsOutageIf (if (Value.get answer "success").isTruthy then
          (resultRows ((Value.lookup answer "result").getD (.list []))).mapError .fault
          else .error (.outage (.directoryQuery (Value.get answer "errors")))) _
        cases hflag : (Value.get answer "success").isTruthy with
        | false => exact ⟨fun _ ↦ ⟨_, rfl, _, rfl⟩, fun h ↦ absurd (.flag hanswer hflag) h⟩
        | true =>
          refine (isOutageIf_mapError _).congr (iff_of_false not_false ?_)
          rintro (_ | h | ⟨hanswer', hflag'⟩)
          · exact h hs
          · cases hanswer.symm.trans hanswer'
            cases hflag.symm.trans hflag'

/-- A site that a row tells: the numbers, the tag and the names are read from it, and the storage is
the one that it names, or else the embedded one. -/
structure Describes (fields : Fields) (x : Site) : Prop where
  id : ∃ v, Value.lookup fields "site_id" = some v ∧ Field.whole v = .accepted x.id
  team : ∃ v, Value.lookup fields "team_id" = some v ∧ Field.whole v = .accepted x.team
  tag : ∃ v, Value.lookup fields "tag_id" = some v ∧ Field.text v = .accepted x.tag
  domain : Field.nullable Field.text (Value.get fields "domain") = .accepted x.domain
  name : Field.nullable Field.text (Value.get fields "name") = .accepted x.name
  storage : Value.get fields "db_adapter" = .text x.storage.name ∨
    x.storage = .sqlite ∧ ∀ k : StorageKind, Value.get fields "db_adapter" ≠ .text k.name

theorem storageOf_eq_iff {k : StorageKind} : storageOf fields = k ↔
    Value.get fields "db_adapter" = .text k.name ∨
      k = .sqlite ∧ ∀ k : StorageKind, Value.get fields "db_adapter" ≠ .text k.name := by
  unfold storageOf
  cases hk : StorageKind.ofValue? (Value.get fields "db_adapter") with
  | none =>
    have hnot (k : StorageKind) : Value.get fields "db_adapter" ≠ .text k.name := by
      intro h
      cases hk.symm.trans (StorageKind.ofValue?_eq_some_iff.2 h)
    simp [hnot, eq_comm]
  | some k' =>
    have hnamed := StorageKind.ofValue?_eq_some_iff.1 hk
    constructor
    · rintro rfl
      exact .inl hnamed
    · rintro (h | ⟨-, h⟩)
      · exact Option.some.inj (hk.symm.trans (StorageKind.ofValue?_eq_some_iff.2 h))
      · exact absurd hnamed (h k')

theorem needed_eq_ok_iff {name : String} {v : Value} :
    needed fields name = .ok v ↔ Value.lookup fields name = some v := by
  unfold needed
  cases Value.lookup fields name <;> simp

theorem readStorage_name (k : StorageKind) : StorageKind.read (.text k.name) = .accepted k := by
  cases k <;> rfl

/-- A site is read from its fields one by one. -/
theorem readSite_eq_accepted_iff {id team tag domain name : Value} {k : StorageKind} :
    Site.read (.object [("site_id", id), ("team_id", team), ("tag_id", tag), ("domain", domain),
      ("name", name), ("db_adapter", .text k.name)]) = .accepted x ↔
      Field.whole id = .accepted x.id ∧ Field.whole team = .accepted x.team ∧
        Field.text tag = .accepted x.tag ∧
        Field.nullable Field.text domain = .accepted x.domain ∧
        Field.nullable Field.text name = .accepted x.name ∧ k = x.storage := by
  constructor
  · intro h
    obtain ⟨_, storage, h₅, hstorage, rfl⟩ := Reading.seq_eq_accepted.1 h
    obtain ⟨_, name, h₄, hname, rfl⟩ := Reading.seq_eq_accepted.1 h₅
    obtain ⟨_, domain, h₃, hdomain, rfl⟩ := Reading.seq_eq_accepted.1 h₄
    obtain ⟨_, tag, h₂, htag, rfl⟩ := Reading.seq_eq_accepted.1 h₃
    obtain ⟨_, team, h₁, hteam, rfl⟩ := Reading.seq_eq_accepted.1 h₂
    obtain ⟨id, hid, rfl⟩ := Reading.map_eq_accepted.1 h₁
    have hk := (readStorage_name k).symm.trans (Reading.under_eq_accepted.1 hstorage)
    exact ⟨Reading.under_eq_accepted.1 hid, Reading.under_eq_accepted.1 hteam,
      Reading.under_eq_accepted.1 htag, Reading.under_eq_accepted.1 hdomain,
      Reading.under_eq_accepted.1 hname, by simpa using hk⟩
  · rintro ⟨hid, hteam, htag, hdomain, hname, rfl⟩
    apply Reading.seq_eq_accepted.2
    refine ⟨_, _, Reading.seq_eq_accepted.2 ⟨_, _, Reading.seq_eq_accepted.2 ⟨_, _,
      Reading.seq_eq_accepted.2 ⟨_, _, Reading.seq_eq_accepted.2 ⟨_, _, Reading.map_eq_accepted.2
        ⟨_, Reading.under_eq_accepted.2 hid, rfl⟩, Reading.under_eq_accepted.2 hteam, rfl⟩,
      Reading.under_eq_accepted.2 htag, rfl⟩, Reading.under_eq_accepted.2 hdomain, rfl⟩,
      Reading.under_eq_accepted.2 hname, rfl⟩,
      Reading.under_eq_accepted.2 (readStorage_name x.storage), rfl⟩

theorem siteOfRow_eq_ok_iff :
    siteOfRow row = .ok x ↔ ∃ fields, row = .object fields ∧ Describes fields x := by
  simp only [siteOfRow, bind_eq_ok_iff, mapError_eq_ok_iff, fieldsOf_eq_ok_iff, needed_eq_ok_iff,
    Reading.get_eq_ok_iff, readSite_eq_accepted_iff, storageOf_eq_iff]
  refine exists_congr fun fields ↦ and_congr_right fun _ ↦ ?_
  constructor
  · rintro ⟨id, hid, team, hteam, tag, htag, h⟩
    exact ⟨⟨id, hid, h.1⟩, ⟨team, hteam, h.2.1⟩, ⟨tag, htag, h.2.2.1⟩, h.2.2.2.1, h.2.2.2.2.1,
      h.2.2.2.2.2⟩
  · rintro ⟨⟨id, hid, h₁⟩, ⟨team, hteam, h₂⟩, ⟨tag, htag, h₃⟩, h₄, h₅, h₆⟩
    exact ⟨id, hid, team, hteam, tag, htag, h₁, h₂, h₃, h₄, h₅, h₆⟩

theorem isOutageIf_siteOfRow (row : Value) : IsOutageIf (siteOfRow row) False := by
  unfold siteOfRow
  refine (isOutageIf_mapError _).bind_otherwise fun fields ↦ ?_
  refine (isOutageIf_mapError _).bind_otherwise fun id ↦ ?_
  refine (isOutageIf_mapError _).bind_otherwise fun team ↦ ?_
  refine (isOutageIf_mapError _).bind_otherwise fun tag ↦ ?_
  exact isOutageIf_get _

/-- The first of the rows is the site; there is none without rows. -/
theorem site_eq_ok_iff {found : Option Site} : site response = .ok found ↔
    ∃ rows, Holds response rows ∧ (rows.isTruthy = false ∧ found = none ∨
      ∃ fields rest x, rows = .list (.object fields :: rest) ∧ Describes fields x ∧
        found = some x) := by
  rw [site, bind_eq_ok_iff]
  refine exists_congr fun rows ↦ ?_
  rw [rows_eq_ok_iff]
  refine and_congr_right fun _ ↦ ?_
  cases htrue : rows.isTruthy with
  | false =>
    simp only [Bool.false_eq_true, if_false, true_and]
    constructor
    · intro h
      cases h
      exact .inl rfl
    · rintro (rfl | ⟨fields, rest, x, rfl, -⟩)
      · rfl
      · cases htrue
  | true =>
    simp only [if_true, Bool.true_eq_false, false_and, false_or, bind_eq_ok_iff,
      mapError_eq_ok_iff]
    constructor
    · rintro ⟨row, hrow, h⟩
      cases hx : siteOfRow row with
      | error e =>
        rw [hx] at h
        cases h
      | ok x =>
        rw [hx] at h
        cases h
        obtain ⟨fields, rfl, hdescribes⟩ := siteOfRow_eq_ok_iff.1 hx
        obtain ⟨rest, hrest⟩ := firstOf_object_iff.1 hrow
        exact ⟨fields, rest, x, hrest, hdescribes, rfl⟩
    · rintro ⟨fields, rest, x, rfl, hdescribes, rfl⟩
      have hx := siteOfRow_eq_ok_iff.2 ⟨fields, rfl, hdescribes⟩
      exact ⟨.object fields, rfl, by rw [hx]; rfl⟩

theorem sites_eq_ok_iff {xs : List Site} : sites response = .ok xs ↔
    ∃ rows items, Holds response rows ∧ rows.items = .ok items ∧
      List.Forall₂ (fun row x ↦ ∃ fields, row = .object fields ∧ Describes fields x) items xs := by
  simp only [sites, bind_eq_ok_iff, mapError_eq_ok_iff, rows_eq_ok_iff, mapM_eq_ok_iff,
    siteOfRow_eq_ok_iff, exists_and_left]

theorem isOutageIf_site (response : DirectoryResponse) :
    IsOutageIf (site response) (IsRefused response) := by
  refine (isOutageIf_rows response).bind_otherwise fun rows ↦ ?_
  cases rows.isTruthy with
  | false => exact FailsWhen.ok none
  | true =>
    refine (isOutageIf_mapError _).bind_otherwise fun row ↦ ?_
    exact (isOutageIf_siteOfRow row).bind_otherwise fun x ↦ FailsWhen.ok (some x)

theorem isOutageIf_sites (response : DirectoryResponse) :
    IsOutageIf (sites response) (IsRefused response) :=
  (isOutageIf_rows response).bind_otherwise fun rows ↦
    (isOutageIf_mapError rows.items).bind_otherwise fun items ↦
      FailsWhen.mapM_otherwise isOutageIf_siteOfRow items

/-- The look-ups of the remote directory have a result exactly for a success with rows of the expected
shape, and end with an outage exactly if there was no success. -/
theorem lookUps_iff (response : DirectoryResponse) :
    (∀ found, site response = .ok found ↔
      ∃ rows, Holds response rows ∧ (rows.isTruthy = false ∧ found = none ∨
        ∃ fields rest x, rows = .list (.object fields :: rest) ∧ Describes fields x ∧
          found = some x)) ∧
    (∀ xs, sites response = .ok xs ↔
      ∃ rows items, Holds response rows ∧ rows.items = .ok items ∧
        List.Forall₂ (fun row x ↦ ∃ fields, row = .object fields ∧ Describes fields x) items xs) ∧
    IsOutageIf (site response) (IsRefused response) ∧
    IsOutageIf (sites response) (IsRefused response) :=
  ⟨fun _ ↦ site_eq_ok_iff, fun _ ↦ sites_eq_ok_iff, isOutageIf_site response,
    isOutageIf_sites response⟩

/-- A success without a body is a fault. -/
theorem emptyBody_breaks :
    site (.answered 200 []) = .error (.fault (.document .value "" 0)) ∧
      sites (.answered 200 []) = .error (.fault (.document .value "" 0)) :=
  ⟨rfl, rfl⟩

end RemoteDirectory

end Footfall
