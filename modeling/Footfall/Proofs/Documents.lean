import Footfall.Proofs.Listing
import Footfall.Proofs.Overflowing
import Footfall.Report.Document

/-!
Stored reports that are read. A document is a report exactly if it is an object of the current
version whose widgets can all be read, and the report has these widgets in their order. Any other
document is a violation, unless it is illegible: its bytes stand for no text, or a whole number in it
has more digits than are read or written. A version may be given as anything that equals 1.
-/

namespace Footfall

namespace Field

open Reading

variable {α : Type} {read : Value → Reading α} {fields : Fields} {name : String} {default a : α}

/-- A list is read item by item. -/
theorem itemsFrom_eq_accepted_iff {n : Nat} {items : List Value} {xs : List α} :
    itemsFrom read n items = .accepted xs ↔
      List.Forall₂ (fun v x ↦ read v = .accepted x) items xs := by
  induction items generalizing n xs with
  | nil => cases xs <;> simp [itemsFrom]
  | cons v items ih =>
    rw [itemsFrom, seq_eq_accepted]
    constructor
    · rintro ⟨g, rest, hg, hrest, rfl⟩
      obtain ⟨x, hx, rfl⟩ := map_eq_accepted.1 hg
      exact .cons (under_eq_accepted.1 hx) (ih.1 hrest)
    · intro h
      cases h with
      | cons hx hrest =>
        exact ⟨_, _, map_eq_accepted.2 ⟨_, under_eq_accepted.2 hx, rfl⟩, ih.2 hrest, rfl⟩

theorem list_eq_accepted_iff {v : Value} {xs : List α} :
    list read v = .accepted xs ↔
      ∃ items, v = .list items ∧ List.Forall₂ (fun v x ↦ read v = .accepted x) items xs := by
  cases v with
  | list items => simp [list, itemsFrom_eq_accepted_iff]
  | _ => simp [list, refuse]

/-- A field whose name is the same in documents. -/
theorem optionalIn_eq_accepted_iff (hname : documentName name = name) :
    optionalIn fields name default read = .accepted a ↔
      (Value.lookup fields name = none ∧ default = a) ∨
        ∃ v, Value.lookup fields name = some v ∧ read v = .accepted a := by
  unfold optionalIn
  dsimp only
  rw [hname, Option.or_self]
  cases Value.lookup fields name with
  | none => simp
  | some v => simp [under_eq_accepted]

end Field

namespace Layout

open Footfall.Field

theorem isTold_read (v : Value) : (read v).IsTold := by
  refine (isTold_record _ v).bind fun fields ↦ ?_
  exact ((((isTold_optionalIn isTold_whole).map _).seq (isTold_optionalIn isTold_whole)).seq
    (isTold_optionalIn isTold_whole)).seq (isTold_optionalIn isTold_whole)

end Layout

namespace Widget

open Footfall.Field

theorem isTold_read (v : Value) : (read v).IsTold := by
  refine (isTold_record _ v).bind fun fields ↦ ?_
  have hname (key : String) : (optionalIn fields key "" text).IsTold :=
    isTold_optionalIn isTold_text
  have hcolor (key : String) : (optionalIn fields key none (nullable text)).IsTold :=
    isTold_optionalIn (isTold_nullable isTold_text)
  have hchoice {α : Type} (key : String) (default : α) (all : List α) (name : α → String) :
      (optionalIn fields key default (choice all name)).IsTold :=
    isTold_optionalIn (isTold_choice all name)
  have hlimit :
      (optionalIn fields "limit" (.whole 25) fun v ↦ (real v).map Number.real).IsTold :=
    isTold_optionalIn fun v ↦ (isTold_real v).map Number.real
  have hlayout : (optionalIn fields "layout" {} Layout.read).IsTold :=
    isTold_optionalIn Layout.isTold_read
  exact (hname _).map _ |>.seq (hname _) |>.seq (hchoice _ _ _ _) |>.seq (hname _)
    |>.seq (hname _) |>.seq (hchoice _ _ _ _) |>.seq (hname _) |>.seq (hname _)
    |>.seq (hchoice _ _ _ _) |>.seq (hcolor _) |>.seq (hcolor _) |>.seq hlimit |>.seq hlayout

end Widget

namespace Report

open Footfall.Field

variable {fields : Fields} {document : Value} {r : Report} {v : Value}

theorem isTold_read (v : Value) : (read v).IsTold := by
  refine (isTold_record _ v).bind fun fields ↦ ?_
  refine ((isTold_optionalIn fun v ↦ ?_).map _).seq (isTold_optionalIn ?_)
  · unfold readVersion
    split
    · trivial
    · exact Reading.isTold_refuse _
  · exact isTold_list Widget.isTold_read

/-- A version that equals 1: the number, the truth value or a floating-point number. -/
inductive IsCurrent : Value → Prop
  | whole : IsCurrent (.int 1)
  | truth : IsCurrent (.bool true)
  | real {m : Nat} {e : Int} (h : m * twoTo e = twoTo (-e)) : IsCurrent (.float (.finite false m e))

theorem isVersion_finite (negative : Bool) (m : Nat) (e : Int) :
    isVersion (.float (.finite negative m e)) = true ↔
      negative = false ∧ m * twoTo e = twoTo (-e) := by
  have hpos : 0 < twoTo (-e) := Nat.pow_pos (by decide)
  have hle : (0 : Int) ≤ m * twoTo e := by positivity
  have hratio : isVersion (.float (.finite negative m e)) = true ↔
      (if negative = true then -(m * twoTo e : Int) else m * twoTo e) = twoTo (-e) := by
    simp [isVersion, version, Value.number?, Number.same, Number.le, Number.isNan, Number.lt,
      Double.ratio?, Double.ratioLt]
    omega
  rw [hratio]
  cases negative with
  | false => simpa using Int.ofNat_inj (m := m * twoTo e) (n := twoTo (-e))
  | true =>
    simp only [if_true, Bool.true_eq_false, false_and, iff_false]
    omega

theorem isVersion_iff (v : Value) : isVersion v = true ↔ IsCurrent v := by
  cases v with
  | int n =>
    have hone : isVersion (.int n) = true ↔ n = 1 := by
      simp only [isVersion, version, Value.number?, Number.same, Number.le_whole, Option.any_some,
        Bool.and_eq_true, decide_eq_true_eq]
      omega
    rw [hone]
    constructor
    · rintro rfl
      exact .whole
    · intro h
      cases h
      rfl
  | bool b =>
    cases b with
    | false => exact iff_of_false (by decide) fun h ↦ by cases h
    | true => exact iff_of_true (by decide) .truth
  | float x =>
    cases x with
    | nan => exact iff_of_false (by decide) fun h ↦ by cases h
    | infinite negative =>
      have hnot : isVersion (.float (.infinite negative)) = false := by
        cases negative <;> rfl
      exact iff_of_false (by simp [hnot]) fun h ↦ by cases h
    | finite negative m e =>
      rw [isVersion_finite]
      constructor
      · rintro ⟨rfl, h⟩
        exact .real h
      · intro h
        cases h with
        | real h => exact ⟨rfl, h⟩
  | _ => exact iff_of_false Bool.false_ne_true fun h ↦ by cases h

/-- A whole number with more digits than are written, also inside a list or an object. -/
inductive HoldsLong : Value → Prop
  | int {n : Int} (h : Event.IsUnwritable (.int n)) : HoldsLong (.int n)
  | item {items : List Value} {v : Value} (hv : v ∈ items) (h : HoldsLong v) :
    HoldsLong (.list items)
  | field {fields : Fields} {name : String} {v : Value} (hv : (name, v) ∈ fields)
    (h : HoldsLong v) : HoldsLong (.object fields)

mutual

theorem isShowable_iff (v : Value) : isShowable v = true ↔ ¬HoldsLong v := by
  cases v with
  | int n =>
    rw [isShowable, Bool.not_eq_true', ← Bool.not_eq_true, Event.isLong_iff]
    apply not_congr
    exact ⟨.int, fun | .int h => h⟩
  | list items =>
    rw [isShowable, areShowable_iff items]
    constructor
    · rintro h (_ | ⟨hv, hlong⟩)
      exact h _ hv hlong
    · intro h v hv hlong
      exact h (.item hv hlong)
  | object fields =>
    rw [isShowable, areFieldsShowable_iff fields]
    constructor
    · rintro h (_ | _ | ⟨hv, hlong⟩)
      exact h _ hv hlong
    · intro h p hp hlong
      exact h (.field hp hlong)
  | _ => exact iff_of_true rfl fun h ↦ nomatch h

theorem areShowable_iff (items : List Value) :
    areShowable items = true ↔ ∀ v ∈ items, ¬HoldsLong v := by
  cases items with
  | nil => simp [areShowable]
  | cons v rest => simp [areShowable, isShowable_iff v, areShowable_iff rest]

theorem areFieldsShowable_iff (fields : Fields) :
    areFieldsShowable fields = true ↔ ∀ p ∈ fields, ¬HoldsLong p.2 := by
  cases fields with
  | nil => simp [areFieldsShowable]
  | cons p rest =>
    obtain ⟨name, v⟩ := p
    simp [areFieldsShowable, isShowable_iff v, areFieldsShowable_iff rest]

end

theorem documentName_version : documentName "version" = "version" := by decide

theorem documentName_widgets : documentName "widgets" = "widgets" := by decide

/-- An object that a report is read from: of the current version, and with one widget of the report
for each of its widgets, in their order. -/
structure IsReadFrom (r : Report) (fields : Fields) : Prop where
  version : IsCurrent (Value.get fields "version")
  widgets : (Value.lookup fields "widgets" = none ∧ r.widgets = []) ∨
    ∃ items, Value.lookup fields "widgets" = some (.list items) ∧
      List.Forall₂ (fun v w ↦ Widget.read v = .accepted w) items r.widgets

/-- A missing version is not current, so that of a current document is stated. -/
theorem read_eq_accepted_iff (hversion : IsCurrent (Value.get fields "version")) :
    read (.object fields) = .accepted r ↔ r.IsReadFrom fields := by
  have hstated : optionalIn fields "version" () readVersion = .accepted () := by
    rw [optionalIn_eq_accepted_iff documentName_version]
    have hread : readVersion (Value.get fields "version") = .accepted () :=
      if_pos ((isVersion_iff _).2 hversion)
    unfold Value.get at hread
    cases hv : Value.lookup fields "version" with
    | none => exact .inl ⟨rfl, rfl⟩
    | some v => exact .inr ⟨v, rfl, by simpa [hv] using hread⟩
  have hread : read (.object fields) =
      (optionalIn fields "widgets" [] (list Widget.read)).map Report.mk := by
    show ((optionalIn fields "version" () readVersion).map _).seq _ = _
    rw [hstated]
    rfl
  have hwidgets : optionalIn fields "widgets" [] (list Widget.read) = .accepted r.widgets ↔
      (Value.lookup fields "widgets" = none ∧ r.widgets = []) ∨
        ∃ items, Value.lookup fields "widgets" = some (.list items) ∧
          List.Forall₂ (fun v w ↦ Widget.read v = .accepted w) items r.widgets := by
    simp only [optionalIn_eq_accepted_iff documentName_widgets, list_eq_accepted_iff]
    grind
  rw [hread, Reading.map_eq_accepted]
  constructor
  · rintro ⟨widgets, hw, rfl⟩
    exact ⟨hversion, hwidgets.1 hw⟩
  · intro h
    exact ⟨r.widgets, hwidgets.2 h.widgets, rfl⟩

/-- A document whose bytes stand for no text, or with a whole number of more digits than are read. -/
inductive IsUnreadable : Value → Prop
  | undecodable {bs : List UInt8} {e : Text.Undecodable} (h : Text.decode bs = .error e) :
    IsUnreadable (.bytes bs)
  | longBytes {bs : List UInt8} {cs : List Char} {n : Nat} (hcs : Text.decode bs = .ok cs)
    (h : Json.readChars cs = .error (.tooLong n)) : IsUnreadable (.bytes bs)
  | longText {s : String} {n : Nat} (h : Json.read s = .error (.tooLong n)) : IsUnreadable (.text s)

/-- A document that cannot be read, or whose version is another one that cannot be shown. -/
def IsIllegible (document : Value) : Prop :=
  IsUnreadable document ∨ ∃ fields, content document = .ok (.object fields) ∧
    ¬IsCurrent (Value.get fields "version") ∧ HoldsLong (Value.get fields "version")

/-- What is malformed is a violation, and a whole number that is too long a fault. -/
theorem faultsWhen_refusal (x : Except Json.Refusal Value) :
    FaultsWhen (match x with
      | .ok v => .ok v
      | .error (.malformed p _) => .error (.violation (.reportText p))
      | .error (.tooLong n) => .error (.fault (.longNumeral n))) (∃ n, x = .error (.tooLong n)) := by
  cases x with
  | ok v => exact (FaultsWhen.ok v).congr (by simp)
  | error refusal =>
    cases refusal with
    | malformed p position =>
      constructor
      · rintro ⟨n, h⟩
        cases h
      · intro _ e he
        cases he
        exact ⟨_, rfl⟩
    | tooLong n => exact ⟨fun _ ↦ ⟨_, rfl⟩, fun h ↦ absurd ⟨n, rfl⟩ h⟩

theorem faultsWhen_content (document : Value) :
    FaultsWhen (content document) (IsUnreadable document) := by
  cases document with
  | text s =>
    refine (faultsWhen_refusal (Json.read s)).congr ⟨fun ⟨n, h⟩ ↦ .longText h, ?_⟩
    rintro (_ | _ | h)
    exact ⟨_, h⟩
  | bytes bs =>
    rw [content, ofBytes]
    cases hb : Text.decode bs with
    | error e => exact ⟨fun _ ↦ ⟨_, rfl⟩, fun h ↦ absurd (.undecodable hb) h⟩
    | ok cs =>
      refine (faultsWhen_refusal (Json.readChars cs)).congr ⟨fun ⟨n, h⟩ ↦ .longBytes hb h, ?_⟩
      rintro (he | ⟨hcs, h⟩ | _)
      · cases hb.symm.trans he
      · cases hb.symm.trans hcs
        exact ⟨_, h⟩
  | _ => exact (FaultsWhen.ok _).congr (iff_of_false not_false fun h ↦ nomatch h)

theorem ofFields_eq_ok_iff : ofFields fields = .ok r ↔ r.IsReadFrom fields := by
  unfold ofFields
  dsimp only
  by_cases hversion : isVersion (Value.get fields "version") = true
  · rw [if_pos hversion, ← read_eq_accepted_iff ((isVersion_iff _).1 hversion)]
    cases read (.object fields) with
    | accepted r' => simp
    | rejected is => cases is <;> simp
    | failed f => simp
  · rw [if_neg hversion]
    refine iff_of_false ?_ fun h ↦ hversion ((isVersion_iff _).2 h.version)
    split <;> simp

/-- All widgets of an object can be told of, so that a fault comes from its version alone. -/
theorem faultsWhen_ofFields (fields : Fields) : FaultsWhen (ofFields fields)
    (¬IsCurrent (Value.get fields "version") ∧ HoldsLong (Value.get fields "version")) := by
  unfold ofFields
  dsimp only
  by_cases hversion : isVersion (Value.get fields "version") = true
  · rw [if_pos hversion]
    have hcurrent := (isVersion_iff _).1 hversion
    have htold := isTold_read (.object fields)
    refine ⟨fun h ↦ absurd hcurrent h.1, fun _ e he ↦ ?_⟩
    cases hr : read (.object fields) with
    | accepted r => simp [hr] at he
    | rejected is =>
      cases is with
      | nil => exact absurd rfl (hr ▸ htold)
      | cons i is =>
        rw [hr] at he
        cases he
        exact ⟨_, rfl⟩
    | failed f => exact ((hr ▸ htold : (Reading.failed f).IsTold)).elim
  · rw [if_neg hversion]
    have hcurrent := mt (isVersion_iff _).2 hversion
    by_cases hshow : isShowable (Value.get fields "version") = true
    · rw [if_pos hshow]
      refine ⟨fun h ↦ absurd h.2 ((isShowable_iff _).1 hshow), fun _ e he ↦ ?_⟩
      cases he
      exact ⟨_, rfl⟩
    · rw [if_neg hshow]
      have hlong := not_not.1 (mt (isShowable_iff _).2 hshow)
      exact ⟨fun _ ↦ ⟨_, rfl⟩, fun h ↦ absurd ⟨hcurrent, hlong⟩ h⟩

theorem faultsWhen_parse (document : Value) : FaultsWhen (parse document) (IsIllegible document) := by
  have hrest (v : Value) (hv : content document = .ok v) : FaultsWhen (ofContent v)
      (∃ fields, content document = .ok (.object fields) ∧
        ¬IsCurrent (Value.get fields "version") ∧ HoldsLong (Value.get fields "version")) := by
    cases v with
    | object fields =>
      refine (faultsWhen_ofFields fields).congr ⟨fun h ↦ ⟨fields, hv, h⟩, ?_⟩
      rintro ⟨fields', hfields, h⟩
      cases hv.symm.trans hfields
      exact h
    | _ =>
      constructor
      · rintro ⟨fields, hfields, -⟩
        cases hv.symm.trans hfields
      · intro _ e he
        cases he
        exact ⟨_, rfl⟩
  refine ((faultsWhen_content document).bind hrest).congr (or_congr_right ?_)
  constructor
  · exact fun h ↦ h.2
  · rintro ⟨fields, hfields, h⟩
    exact ⟨⟨_, hfields⟩, fields, hfields, h⟩

/-- A document is read as a report exactly if it is an object of the current version whose widgets can
all be read, and its widgets are then those of the report. Otherwise it is a violation, unless it is
illegible, which is a fault. -/
theorem parse_iff_isReadFrom (document : Value) :
    (∀ r, parse document = .ok r ↔
      ∃ fields, content document = .ok (.object fields) ∧ r.IsReadFrom fields) ∧
    FaultsWhen (parse document) (IsIllegible document) := by
  refine ⟨fun r ↦ ?_, faultsWhen_parse document⟩
  rw [parse, bind_eq_ok_iff]
  constructor
  · rintro ⟨v, hv, hr⟩
    cases v with
    | object fields => exact ⟨fields, hv, ofFields_eq_ok_iff.1 hr⟩
    | _ => cases hr
  · rintro ⟨fields, hfields, h⟩
    exact ⟨.object fields, hfields, ofFields_eq_ok_iff.2 h⟩

/-- A byte that begins no character is a fault, and a truth value is taken for the version. -/
theorem loneByte_breaks :
    parse (.bytes [0xff]) = .error (.fault (.undecodable ⟨.bytes, 0, [0xff], .start⟩)) ∧
      parse (.object [("version", .bool true)]) = .ok {} :=
  ⟨rfl, rfl⟩

end Report

end Footfall
