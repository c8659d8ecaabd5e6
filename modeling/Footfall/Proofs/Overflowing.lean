import Footfall.Http.Answer
import Footfall.Proofs.Batch
import Footfall.Proofs.Canonical
import Footfall.Proofs.Failing

/-!
Payloads at which bringing an event into canonical form breaks down. What is wrong with a payload is
told as a violation, unless a whole number has too many digits to be written, a size has no bounds,
or the offset of a time takes it out of the calendar: these are faults, and end a request without an
answer of the library.
-/

namespace Footfall

namespace Reading

variable {α β : Type}

/-- Whether reading has ended with a fault. -/
def HasFailed : Reading α → Prop
  | .failed _ => True
  | _ => False

theorem IsTold.not_hasFailed {r : Reading α} (h : r.IsTold) : ¬r.HasFailed := by
  cases r with
  | failed e => exact h.elim
  | _ => exact not_false

@[simp] theorem hasFailed_accepted (a : α) : (accepted a).HasFailed ↔ False := .rfl

@[simp] theorem hasFailed_refuse (c : Cause) : (refuse c : Reading α).HasFailed ↔ False := .rfl

@[simp] theorem hasFailed_map (f : α → β) (r : Reading α) : (r.map f).HasFailed ↔ r.HasFailed := by
  cases r <;> rfl

@[simp] theorem hasFailed_under (s : Step) (r : Reading α) :
    (r.under s).HasFailed ↔ r.HasFailed := by
  cases r <;> rfl

/-- A record is read without a fault if all its parts are. -/
@[simp] theorem hasFailed_seq (f : Reading (α → β)) (r : Reading α) :
    (f <*> r).HasFailed ↔ f.HasFailed ∨ r.HasFailed := by
  cases f <;> cases r <;> simp [Seq.seq, seq, map, HasFailed]

@[simp] theorem hasFailed_functor_map (f : α → β) (r : Reading α) :
    (f <$> r).HasFailed ↔ r.HasFailed := hasFailed_map f r

@[simp] theorem hasFailed_bind (r : Reading α) (f : α → Reading β) :
    (r.bind f).HasFailed ↔ r.HasFailed ∨ ∃ a, r = .accepted a ∧ (f a).HasFailed := by
  cases r <;> simp [bind, HasFailed]

end Reading

namespace Field

open Reading

variable {α : Type} {fields : Fields} {name : String} {read : Value → Reading α}

theorem hasFailed_required (hread : ∀ v, ¬(read v).HasFailed) :
    (required fields name read).HasFailed ↔ False := by
  unfold required
  cases Value.lookup fields name with
  | none => rfl
  | some v => simp [hread v]

/-- A missing field counts as null here, which is read without a fault. -/
theorem hasFailed_optional (hnull : ¬(read .null).HasFailed) :
    (Field.optional fields name none (nullable read)).HasFailed ↔
      (read (Value.get fields name)).HasFailed := by
  unfold Field.optional Value.get
  cases Value.lookup fields name with
  | none => exact iff_of_false not_false hnull
  | some v =>
    cases v with
    | null => exact iff_of_false not_false hnull
    | _ => simp [nullable]

theorem not_hasFailed_text (v : Value) : ¬(text v).HasFailed := (isTold_text v).not_hasFailed

theorem not_hasFailed_whole (v : Value) : ¬(whole v).HasFailed := (isTold_whole v).not_hasFailed

theorem not_hasFailed_nullable (hread : ∀ v, ¬(read v).HasFailed) (v : Value) :
    ¬(nullable read v).HasFailed := by
  cases v with
  | null => exact not_false
  | _ => simp [nullable, hread]

theorem not_hasFailed_object (v : Value) : ¬(object v).HasFailed := by
  cases v <;> exact not_false

theorem not_hasFailed_eventMap (v : Value) : ¬(eventMap v).HasFailed := by
  unfold eventMap
  split
  · split
    · simp
    · split
      · exact not_hasFailed_nullable not_hasFailed_object _
      · simp
      · simp
  · exact not_hasFailed_nullable not_hasFailed_object _

theorem not_hasFailed_ofMoment (m : Time.Moment) : ¬(ofMoment m).HasFailed := by
  unfold ofMoment
  split <;> simp

theorem not_hasFailed_timeReal (x : Double) : ¬(timeReal x).HasFailed := by
  unfold timeReal
  split
  · simp
  · simp
  · split
    · exact not_hasFailed_ofMoment _
    · simp

theorem not_hasFailed_timestamp (v : Value) : ¬(timestamp v).HasFailed := by
  have htext (size : Nat) (cs : List Char) : ¬(timeText size cs).HasFailed := by
    unfold timeText
    split
    · exact not_hasFailed_ofMoment _
    · simp
  cases v with
  | int n =>
    simp only [timestamp]
    split
    · split
      · exact not_hasFailed_ofMoment _
      · simp
    · split
      · exact not_hasFailed_timeReal _
      · simp
  | float x => exact not_hasFailed_timeReal x
  | text s => exact htext _ _
  | bytes bs => exact htext _ _
  | _ => exact not_false

/-- A time whose offset takes it out of the calendar. -/
def LeavesCalendar (v : Value) : Prop :=
  ∃ t o, timestamp v = .accepted t ∧ t.offset = some o ∧
    ¬(0 ≤ (t.wall.micros : Int) - o ∧ (t.wall.micros : Int) - o < Instant.limit)

theorem toInstant?_eq_none_iff (t : Timestamp) : t.toInstant? = none ↔
    ∃ o, t.offset = some o ∧
      ¬(0 ≤ (t.wall.micros : Int) - o ∧ (t.wall.micros : Int) - o < Instant.limit) := by
  unfold Timestamp.toInstant?
  cases t.offset with
  | none => simp
  | some o => simp [Instant.shift?, Instant.ofMicros?, ← sub_eq_add_neg]

theorem hasFailed_instant (v : Value) : (instant v).HasFailed ↔ LeavesCalendar v := by
  rw [instant, hasFailed_bind]
  simp only [not_hasFailed_timestamp, false_or, LeavesCalendar, exists_and_left,
    ← toInstant?_eq_none_iff]
  refine exists_congr fun t ↦ and_congr_right fun _ ↦ ?_
  cases t.toInstant? <;> simp [HasFailed]

end Field

namespace EventRecord

open Footfall.Field

/-- A record is read without a fault if its times stay in the calendar. -/
theorem hasFailed_read (fields : Fields) : (read fields).HasFailed ↔
    ∃ name ∈ ["created_at", "updated_at"], LeavesCalendar (Value.get fields name) := by
  have htext (name : String) :
      (Field.optional fields name none (nullable Field.text)).HasFailed ↔ False := by
    simp [hasFailed_optional, not_hasFailed_text]
  have hwhole (name : String) :
      (Field.optional fields name none (nullable whole)).HasFailed ↔ False := by
    simp [hasFailed_optional, not_hasFailed_whole]
  have hmap (name : String) : (Field.optional fields name none eventMap).HasFailed ↔ False := by
    unfold Field.optional
    split <;> simp [not_hasFailed_eventMap]
  have htime (name : String) : (Field.optional fields name none (nullable instant)).HasFailed ↔
      LeavesCalendar (Value.get fields name) := by
    have hnull : ¬(instant .null).HasFailed := not_false
    rw [hasFailed_optional hnull, hasFailed_instant]
  simp only [read, Context.read, Reading.hasFailed_seq, Reading.hasFailed_functor_map, htext, hwhole,
    hmap, htime, hasFailed_required not_hasFailed_text, false_or, or_false, List.mem_cons,
    List.not_mem_nil, exists_eq_or_imp, exists_eq_left]

end EventRecord

/-- A computation that ends with a fault under a condition, and otherwise with a result or a
violation. -/
structure FaultsWhen {α : Type} (x : Except Failure α) (p : Prop) : Prop where
  fault (h : p) : ∃ f, x = .error (.fault f)
  violation (h : ¬p) {e : Failure} (he : x = .error e) : ∃ v, e = .violation v

namespace FaultsWhen

variable {α β : Type} {x : Except Failure α} {g : α → Except Failure β} {p q : Prop}

theorem congr (h : FaultsWhen x p) (hpq : p ↔ q) : FaultsWhen x q := propext hpq ▸ h

theorem ok (a : α) : FaultsWhen (.ok a) False := ⟨False.elim, fun _ _ he ↦ by cases he⟩

theorem iff_failsWhen : FaultsWhen x p ↔ FailsWhen x p Failure.IsFault Failure.IsViolation := by
  constructor
  · intro h
    refine ⟨fun hp ↦ ?_, fun hp _ he ↦ h.violation hp he⟩
    obtain ⟨f, hf⟩ := h.fault hp
    exact ⟨_, hf, f, rfl⟩
  · intro h
    refine ⟨fun hp ↦ ?_, fun hp _ he ↦ h.otherwise hp he⟩
    obtain ⟨e, he, f, rfl⟩ := h.fails hp
    exact ⟨f, he⟩

/-- Of two steps the second is made only if there is a result of the first. -/
theorem bind (hx : FaultsWhen x p) (hg : ∀ a, x = .ok a → FaultsWhen (g a) q) :
    FaultsWhen (x >>= g) (p ∨ (∃ a, x = .ok a) ∧ q) :=
  iff_failsWhen.2 ((iff_failsWhen.1 hx).bind fun a ha ↦ iff_failsWhen.1 (hg a ha))

/-- The first step gives a result unless there is a fault. -/
theorem bind_of_ok (hx : FaultsWhen x p) (hok : ¬p → ∃ a, x = .ok a)
    (hg : ∀ a, x = .ok a → FaultsWhen (g a) q) : FaultsWhen (x >>= g) (p ∨ q) :=
  (hx.bind hg).congr (by tauto)

end FaultsWhen

namespace Event

open Value

variable {fields cleaned : Fields} {name : String} {v : Value}

/-- A whole number with more digits than are written. -/
def IsUnwritable : Value → Prop
  | .int n => 10 ^ Numeral.maxDigits ≤ n.natAbs
  | _ => False

/-- A text, or the text of a number. -/
def plainText? : Value → Option String
  | .text s => some s
  | .int n => some (toString n)
  | .float x => some x.text
  | _ => none

/-- Whether there is a text that is not blank. -/
def HasText (v : Value) : Prop := ∃ s, plainText? v = some s ∧ ∃ c ∈ s.toList, Text.isBlank c = false

/-- A number without bounds, or beyond the floating-point numbers; texts are read as numbers. -/
def IsBoundless : Value → Prop
  | .float x => ∃ s, x = .infinite s
  | .int n => (2 ^ 54 - 1) * 2 ^ 970 ≤ n.natAbs
  | v => ∃ s, v.written?.bind Numeral.readReal? = some (.infinite s)

/-- The value of a field, or if it has none that of the older name. -/
def given (fields : Fields) (name : String) : Value :=
  match aliases.find? (·.2 = name) with
  | some a => if (get fields name).isNull then get fields a.1 else get fields name
  | none => get fields name

def sizes : List String := ["screen_width", "screen_height"]

def times : List String := ["created_at", "updated_at"]

/-- A value of a field that cannot be cleaned or read. -/
inductive IsBeyond (fields : Fields) : Prop
  | text (name : String) (hname : name ∈ textFields) (h : IsUnwritable (given fields name))
  | size (name : String) (hname : name ∈ sizes) (h : IsBoundless (given fields name))
  | time (name : String) (hname : name ∈ times) (h : Field.LeavesCalendar (given fields name))

/-- The payloads at which bringing an event into canonical form breaks down. The fields that are
needed are looked at first. -/
inductive Overflows (fields : Fields) : Prop
  | event (h : IsUnwritable (given fields "event"))
  | tag (hevent : HasText (given fields "event")) (h : IsUnwritable (given fields "tag_id"))
  | other (hevent : HasText (given fields "event")) (htag : HasText (given fields "tag_id"))
      (h : IsBeyond fields)

theorem isLong_iff (n : Int) : isLong n = true ↔ IsUnwritable (.int n) := by
  rw [isLong, decide_eq_true_iff, Nat.pow_eq, IsUnwritable]

/-- Cleaning a text fails only for a number with too many digits. -/
theorem cleanText_of_not_isUnwritable (h : ¬IsUnwritable v) :
    cleanText v = .ok ((plainText? v).bind fun s ↦ nonEmpty (Text.strip s)) := by
  cases v with
  | int n => rw [cleanText_int, if_neg (by rwa [isLong_iff]), plainText?, Option.bind_some]
  | _ => simp only [cleanText, plainText?, Option.bind_some, Option.bind_none]

theorem cleanText_of_isUnwritable (h : IsUnwritable v) : cleanText v = .error .longWhole := by
  cases v with
  | int n => rw [cleanText_int, if_pos ((isLong_iff n).2 h)]
  | _ => exact h.elim

theorem exists_putRequired_iff (h : ¬IsUnwritable (get fields name)) :
    (∃ cleaned, putRequired fields name = .ok cleaned) ↔ HasText (get fields name) := by
  have hwhen : (∃ cleaned, putRequired fields name = .ok cleaned) ↔
      ∃ s, plainText? (get fields name) = some s ∧ (Text.strip s).isEmpty = false := by
    unfold putRequired
    rw [cleanText_of_not_isUnwritable h]
    cases plainText? (get fields name) with
    | none => simp
    | some s =>
      rw [Option.bind_some, nonEmpty]
      by_cases hs : Text.strip s = "" <;> simp [hs]
  rw [hwhen]
  refine exists_congr fun s ↦ and_congr_right fun _ ↦ ?_
  rw [← Bool.not_eq_true, Text.strip_isEmpty_iff]
  simp

theorem faultsWhen_putRequired (fields : Fields) (name : String) :
    FaultsWhen (putRequired fields name) (IsUnwritable (get fields name)) := by
  constructor
  case fault =>
    intro h
    exact ⟨.longWhole, by simp [putRequired, cleanText_of_isUnwritable h]⟩
  case violation =>
    intro h e he
    unfold putRequired at he
    rw [cleanText_of_not_isUnwritable h] at he
    split at he
    · cases he
    · cases he
      exact ⟨_, rfl⟩
    · cases ‹Except.ok _ = Except.error _›

theorem putText_of_not_isUnwritable (h : ¬IsUnwritable (get fields name)) :
    ∃ v, putText fields name = .ok (put fields name v) :=
  ⟨_, by rw [putText, cleanText_of_not_isUnwritable h]⟩

theorem faultsWhen_putText (fields : Fields) (name : String) :
    FaultsWhen (putText fields name) (IsUnwritable (get fields name)) := by
  constructor
  case fault =>
    intro h
    exact ⟨.longWhole, by simp [putText, cleanText_of_isUnwritable h]⟩
  case violation =>
    intro h e he
    obtain ⟨v, hv⟩ := putText_of_not_isUnwritable h
    rw [hv] at he
    cases he

theorem get_put_of_ne (fields : Fields) {key other : String} (v : Value) (h : other ≠ key) :
    get (put fields key v) other = get fields other := by
  rw [Value.get, lookup_put_of_ne _ _ h, Value.get]

theorem exists_positivePart_error_iff (x : Double) :
    (∃ e, positivePart x = .error e) ↔ ∃ s, x = .infinite s := by
  cases x with
  | nan => exact iff_of_false (fun ⟨_, h⟩ ↦ by cases h) fun ⟨_, h⟩ ↦ by cases h
  | infinite s => exact iff_of_true ⟨_, rfl⟩ ⟨s, rfl⟩
  | finite s m e => simp [positivePart, Double.truncate?, Double.ratio?]

theorem cleanDimension_of_toReal {x : Double} (hv : ∀ b, v ≠ .bool b) (h : v.toReal = .ok x) :
    cleanDimension v = positivePart x := by
  cases v with
  | bool b => exact absurd rfl (hv b)
  | _ => simp only [cleanDimension, h]

/-- Cleaning a size fails only for a number without bounds. -/
theorem exists_cleanDimension_error_iff (v : Value) :
    (∃ e, cleanDimension v = .error e) ↔ IsBoundless v := by
  cases v with
  | int n =>
    rw [IsBoundless, ← Double.ofInt_eq_infinite_iff]
    have hreal := toReal_int n
    cases hx : Double.ofInt n with
    | infinite s =>
      rw [hx] at hreal
      exact iff_of_true ⟨.hugeForReal, by simp only [cleanDimension, hreal]⟩ ⟨s, rfl⟩
    | _ =>
      rw [hx] at hreal
      rw [cleanDimension_of_toReal (by simp) hreal, exists_positivePart_error_iff]
  | float x =>
    rw [cleanDimension_of_toReal (x := x) (by simp) rfl, exists_positivePart_error_iff, IsBoundless]
  | text s | bytes bs =>
    simp only [IsBoundless, written?, Option.bind_some]
    cases hx : Numeral.readReal? _ with
    | some x =>
      rw [cleanDimension_of_toReal (x := x) (by simp) (by simp [toReal, written?, hx]),
        exists_positivePart_error_iff]
      simp
    | none => simp [cleanDimension, toReal, written?, hx]
  | _ => simp [cleanDimension, toReal, IsBoundless, written?]

theorem faultsWhen_putDimension (fields : Fields) (name : String) :
    FaultsWhen (putDimension fields name) (IsBoundless (get fields name)) := by
  rw [← exists_cleanDimension_error_iff]
  unfold putDimension
  cases cleanDimension (get fields name) with
  | ok n => exact (FaultsWhen.ok _).congr (by simp)
  | error e => exact ⟨fun _ ↦ ⟨e, rfl⟩, fun h ↦ (h ⟨e, rfl⟩).elim⟩

theorem get_remove_of_ne (fields : Fields) {key other : String} (h : other ≠ key) :
    get (Value.remove fields key) other = get fields other := by
  have hfind : (Value.remove fields key).find? (·.1 == other) = fields.find? (·.1 == other) := by
    rw [Value.remove, List.find?_filter]
    congr 1
    funext f
    by_cases hf : f.1 = other <;> simp [hf, h]
  rw [Value.get, Value.get, lookup, lookup, hfind]

/-- An older name hands its value over, if there is no other, and nothing else changes. -/
theorem get_renameField (fields : Fields) {old new : String} (h : name ≠ old) :
    get (renameField fields old new) name =
      if name = new ∧ (get fields new).isNull then get fields old else get fields name := by
  unfold renameField
  cases hv : lookup fields old with
  | none =>
    simp only
    split
    · rename_i hnull
      obtain ⟨rfl, hnull⟩ := hnull
      cases hget : get fields name <;> simp_all [isNull, Value.get]
    · rfl
  | some v =>
    have hget : get fields old = v := get_of_lookup hv
    simp only [hget]
    by_cases hnull : (get fields new).isNull
    · simp only [hnull, if_true, and_true]
      split
      · rename_i heq
        rw [heq, get_of_lookup (lookup_put_self ..)]
      · rename_i hne
        rw [get_put_of_ne _ _ hne, get_remove_of_ne _ h]
    · simp [hnull]

/-- After the older names are gone a field has the value that was given for it. -/
theorem get_renameFields (fields : Fields) (h : ∀ a ∈ aliases, name ≠ a.1) :
    get (renameFields fields) name = given fields name := by
  simp only [aliases, List.forall_mem_cons, List.not_mem_nil, false_imp_iff, implies_true,
    and_true] at h
  obtain ⟨h₁, h₂, h₃, h₄⟩ := h
  by_cases hnew : name ∈ ["created_at", "updated_at", "operating_system", "referer"]
  · simp only [List.mem_cons, List.not_mem_nil, or_false] at hnew
    rcases hnew with rfl | rfl | rfl | rfl <;>
      simp (disch := decide) [renameFields, aliases, given, get_renameField]
  · simp only [List.mem_cons, List.not_mem_nil, or_false, not_or] at hnew
    simp [renameFields, aliases, given, get_renameField, *, Ne.symm]

theorem isBeyond_iff (fields : Fields) : IsBeyond fields ↔
    (∃ name ∈ textFields, IsUnwritable (given fields name)) ∨
      IsBoundless (given fields "screen_width") ∨ IsBoundless (given fields "screen_height") ∨
        ∃ name ∈ times, Field.LeavesCalendar (given fields name) := by
  constructor
  · rintro (⟨name, hname, h⟩ | ⟨name, hname, h⟩ | ⟨name, hname, h⟩)
    · exact .inl ⟨name, hname, h⟩
    · rcases List.mem_cons.1 hname with rfl | hname
      · exact .inr (.inl h)
      · obtain rfl := List.mem_singleton.1 hname
        exact .inr (.inr (.inl h))
    · exact .inr (.inr (.inr ⟨name, hname, h⟩))
  · rintro (⟨name, hname, h⟩ | h | h | ⟨name, hname, h⟩)
    · exact .text name hname h
    · exact .size _ (by decide) h
    · exact .size _ (by decide) h
    · exact .time name hname h

theorem overflows_iff (fields : Fields) : Overflows fields ↔
    IsUnwritable (given fields "event") ∨ HasText (given fields "event") ∧
      (IsUnwritable (given fields "tag_id") ∨
        HasText (given fields "tag_id") ∧ IsBeyond fields) := by
  constructor
  · rintro (h | ⟨hevent, h⟩ | ⟨hevent, htag, h⟩)
    · exact .inl h
    · exact .inr ⟨hevent, .inl h⟩
    · exact .inr ⟨hevent, .inr ⟨htag, h⟩⟩
  · rintro (h | ⟨hevent, h | ⟨htag, h⟩⟩)
    · exact .event h
    · exact .tag hevent h
    · exact .other hevent htag h

section

variable {α : Type} {g : Fields → Except Failure α} {q : Prop}

theorem faultsWhen_putRequired_bind (hg : ∀ s, FaultsWhen (g (put fields name (.text s))) q) :
    FaultsWhen (putRequired fields name >>= g)
      (IsUnwritable (get fields name) ∨ HasText (get fields name) ∧ q) := by
  have hnext (cleaned : Fields) (h : putRequired fields name = .ok cleaned) :
      FaultsWhen (g cleaned) q := by
    obtain ⟨s, rfl, -⟩ := exists_of_putRequired h
    exact hg s
  refine ((faultsWhen_putRequired fields name).bind hnext).congr ?_
  by_cases h : IsUnwritable (get fields name)
  · simp [h]
  · rw [exists_putRequired_iff h]

/-- Of several texts each is looked at as it was given. -/
theorem faultsWhen_putTexts_bind {names : List String} (hnames : names.Nodup)
    (hg : ∀ cleaned, names.foldlM putText fields = .ok cleaned → FaultsWhen (g cleaned) q) :
    FaultsWhen (names.foldlM putText fields >>= g)
      ((∃ name ∈ names, IsUnwritable (get fields name)) ∨ q) := by
  induction names generalizing fields with
  | nil => exact (hg fields rfl).congr (by simp)
  | cons name rest ih =>
    obtain ⟨hnot, hrest⟩ := List.nodup_cons.1 hnames
    rw [List.foldlM_cons, bind_assoc]
    have hnext (cleaned : Fields) (h : putText fields name = .ok cleaned) :
        FaultsWhen (rest.foldlM putText cleaned >>= g)
          ((∃ name ∈ rest, IsUnwritable (get fields name)) ∨ q) := by
      have hafter := ih hrest fun last hlast ↦ hg last (by rw [List.foldlM_cons, h]; exact hlast)
      obtain ⟨o, rfl, -⟩ := exists_of_putText h
      refine hafter.congr (or_congr_left (exists_congr fun other ↦ and_congr_right fun hother ↦ ?_))
      rw [get_put_of_ne _ _ (ne_of_mem_of_not_mem hother hnot)]
    refine ((faultsWhen_putText fields name).bind_of_ok (fun h ↦ ?_) hnext).congr ?_
    · obtain ⟨v, hv⟩ := putText_of_not_isUnwritable h
      exact ⟨_, hv⟩
    · simp only [List.exists_mem_cons_iff, or_assoc]

theorem faultsWhen_putDimension_bind (hg : ∀ o, FaultsWhen (g (put fields name (.ofWhole o))) q) :
    FaultsWhen (putDimension fields name >>= g) (IsBoundless (get fields name) ∨ q) := by
  have hput : (∃ e, cleanDimension (get fields name) = .error e) ∨
      ∃ o, putDimension fields name = .ok (put fields name (.ofWhole o)) := by
    unfold putDimension
    cases cleanDimension (get fields name) with
    | error e => exact .inl ⟨e, rfl⟩
    | ok o => exact .inr ⟨o, rfl⟩
  rw [exists_cleanDimension_error_iff] at hput
  refine (faultsWhen_putDimension fields name).bind_of_ok (fun h ↦ ?_) fun cleaned h ↦ ?_
  · exact (hput.resolve_left h).imp' _ fun o ↦ id
  · rcases hput with hbound | ⟨o, ho⟩
    · obtain ⟨f, hf⟩ := (faultsWhen_putDimension fields name).fault hbound
      rw [hf] at h
      cases h
    · rw [ho] at h
      exact Except.ok.inj h ▸ hg o

/-- Sizes and team are put in place without a look at the times. -/
theorem faultsWhen_putSizes_bind
    (hg : ∀ cleaned, FaultsWhen (g cleaned)
      (∃ name ∈ times, Field.LeavesCalendar (get cleaned name))) :
    FaultsWhen (putDimension fields "screen_width" >>= fun sized ↦
        putDimension sized "screen_height" >>= fun sized ↦ g (putTeam sized))
      (IsBoundless (get fields "screen_width") ∨ IsBoundless (get fields "screen_height") ∨
        ∃ name ∈ times, Field.LeavesCalendar (get fields name)) := by
  have hlast : ∀ name ∈ times, name ≠ "screen_width" ∧ name ≠ "screen_height" ∧
      name ≠ "team_id" ∧ name ≠ "account_id" := by decide
  refine faultsWhen_putDimension_bind fun width ↦ ?_
  rw [← get_put_of_ne fields (.ofWhole width) (show "screen_height" ≠ "screen_width" by decide)]
  refine faultsWhen_putDimension_bind fun height ↦ (hg _).congr ?_
  refine exists_congr fun name ↦ and_congr_right fun hname ↦ ?_
  obtain ⟨hwidth, hheight, hteam, haccount⟩ := hlast name hname
  rw [putTeam, get_put_of_ne _ _ haccount, get_put_of_ne _ _ hteam, get_put_of_ne _ _ hheight,
    get_put_of_ne _ _ hwidth]

/-- Every value is looked at as it was given, since each step changes the fields of its own only. -/
theorem faultsWhen_clean_bind (fields : Fields)
    (hg : ∀ cleaned, FaultsWhen (g cleaned)
      (∃ name ∈ times, Field.LeavesCalendar (get cleaned name))) :
    FaultsWhen (clean fields >>= g) (Overflows fields) := by
  have hgiven : ∀ name ∈ ["event", "tag_id"] ++ textFields ++ sizes ++ times,
      get (renameFields fields) name = given fields name := fun name hname ↦
    get_renameFields fields fun a ha ↦ by revert name a; decide
  have hneeded : ∀ name ∈ textFields ++ sizes ++ times, name ≠ "event" ∧ name ≠ "tag_id" := by
    decide
  have hlate : ∀ name ∈ sizes ++ times, name ∉ textFields := by decide
  simp only [clean, bind_assoc, pure_bind, overflows_iff, isBeyond_iff]
  rw [← hgiven "event" (by decide), ← hgiven "tag_id" (by decide)]
  refine faultsWhen_putRequired_bind fun event ↦ ?_
  rw [← get_put_of_ne _ (.text event) (show "tag_id" ≠ "event" by decide)]
  refine faultsWhen_putRequired_bind fun tag ↦ ?_
  have hnamed : ∀ name ∈ textFields ++ sizes ++ times,
      get (put (put (renameFields fields) "event" (.text event)) "tag_id" (.text tag)) name =
        given fields name := by
    intro name hname
    obtain ⟨hevent, htag⟩ := hneeded name hname
    rw [get_put_of_ne _ _ htag, get_put_of_ne _ _ hevent]
    exact hgiven name (by simp_all)
  generalize put (put (renameFields fields) "event" _) "tag_id" _ = named at hnamed ⊢
  have htexts : (∃ name ∈ textFields, IsUnwritable (given fields name)) ↔
      ∃ name ∈ textFields, IsUnwritable (get named name) :=
    exists_congr fun name ↦ and_congr_right fun hname ↦ by rw [hnamed name (by simp [hname])]
  rw [htexts]
  refine faultsWhen_putTexts_bind (by decide) fun worded hworded ↦ ?_
  have hkept : ∀ name ∈ sizes ++ times, get worded name = given fields name := by
    intro name hname
    rw [← hnamed name (by simp_all), Value.get, Value.get,
      (hasTexts_of_foldlM hworded).kept name (hlate name hname)]
  rw [← hkept "screen_width" (by decide), ← hkept "screen_height" (by decide)]
  refine (faultsWhen_putSizes_bind hg).congr (or_congr_right (or_congr_right ?_))
  exact exists_congr fun name ↦ and_congr_right fun hname ↦ by rw [hkept name (by simp [hname])]

end

/-- Payloads at which the canonical form breaks down are those that overflow; from all others comes
a record or a violation. -/
theorem faultsWhen_canonicalizeFields (fields : Fields) :
    FaultsWhen (canonicalizeFields fields) (Overflows fields) := by
  refine faultsWhen_clean_bind fields fun cleaned ↦ ?_
  rw [times, ← EventRecord.hasFailed_read]
  cases EventRecord.read cleaned with
  | accepted r => exact .ok r
  | failed f => exact ⟨fun _ ↦ ⟨f, rfl⟩, fun h ↦ (h trivial).elim⟩
  | rejected is =>
    refine ⟨False.elim, fun _ e he ↦ ?_⟩
    cases is with
    | nil =>
      cases he
      exact ⟨_, rfl⟩
    | cons i rest =>
      cases he
      exact ⟨_, rfl⟩

/-- What is wrong with a payload is the answer to its sender, and nothing is stored. -/
theorem answer_ingest (s : Service) (now : Instant) (t : Tenant) {e : Failure}
    (h : canonicalize (.object fields) = .error e) :
    (Http.Call.ingest fields).answer s now t = (some (.ofFailure e), s) := by
  simp only [Http.Call.answer, Service.ingest, h, Http.Call.accepted, Except.map,
    Http.Response.ofResult]

/-- A batch is answered for the first payload that has no canonical form. -/
theorem answer_ingestMany (s : Service) (now : Instant) (t : Tenant) {payload : Value}
    {before after : List Value} {e : Failure}
    (hbefore : ∀ payload ∈ before, ∃ r, canonicalize payload = .ok r)
    (h : canonicalize payload = .error e) :
    (Http.Call.ingestMany (before ++ payload :: after)).answer s now t =
      (some (.ofFailure e), s) := by
  have hbatch : (before ++ payload :: after).mapM canonicalize = .error e :=
    mapM_eq_error_iff.2 ⟨before, payload, after, rfl, hbefore, h⟩
  have hstored : s.ingestMany now (before ++ payload :: after) = (.error e, s) := by
    rw [Service.ingestMany, hbatch]
    rfl
  simp only [Http.Call.answer, hstored, Http.Call.accepted, Except.map, Http.Response.ofResult]

/-- For every payload, what goes wrong is told as a violation unless the payload overflows. A
violation is told to the caller who sent the payload; a payload that overflows, alone or in a batch,
ends the request without an answer of the library. -/
theorem fails_by_violation_iff (s : Service) (now : Instant) (t : Tenant) (fields : Fields) :
    ((∀ e, canonicalize (.object fields) = .error e → ∃ v, e = .violation v) ↔
        ¬Overflows fields) ∧
      (∀ v, canonicalize (.object fields) = .error (.violation v) →
        (Http.Call.ingest fields).answer s now t = (some (.detail 400 v.message), s)) ∧
      (Overflows fields → (Http.Call.ingest fields).answer s now t = (some .broken, s)) ∧
      ∀ before after, (∀ payload ∈ before, ∃ r, canonicalize payload = .ok r) → Overflows fields →
        (Http.Call.ingestMany (before ++ .object fields :: after)).answer s now t =
          (some .broken, s) := by
  have hwhen := faultsWhen_canonicalizeFields fields
  have hfault (hover : Overflows fields) : ∃ f, canonicalize (.object fields) = .error (.fault f) :=
    hwhen.fault hover
  refine ⟨⟨fun h hover ↦ ?_, fun hover e he ↦ hwhen.violation hover he⟩,
    fun v hv ↦ answer_ingest s now t hv, fun hover ↦ ?_, fun before after hbefore hover ↦ ?_⟩
  · obtain ⟨f, hf⟩ := hfault hover
    obtain ⟨v, hv⟩ := h _ hf
    cases hv
  · obtain ⟨f, hf⟩ := hfault hover
    exact answer_ingest s now t hf
  · obtain ⟨f, hf⟩ := hfault hover
    exact answer_ingestMany s now t hbefore hf

/-- A payload whose screen has no bounds. -/
def boundlessPayload : Fields :=
  [("event", .text "view"), ("tag_id", .text "tag"), ("screen_width", .float (.infinite false))]

theorem boundlessPayload_breaks : Overflows boundlessPayload ∧
    ¬∀ e, canonicalize (.object boundlessPayload) = .error e → ∃ v, e = .violation v := by
  have hover : Overflows boundlessPayload := by
    refine .other ⟨"view", rfl, 'v', by decide, by decide⟩ ⟨"tag", rfl, 't', by decide, by decide⟩ ?_
    exact .size "screen_width" (by decide) ⟨false, rfl⟩
  refine ⟨hover, fun h ↦ ?_⟩
  obtain ⟨f, hf⟩ := (faultsWhen_canonicalizeFields boundlessPayload).fault hover
  obtain ⟨v, hv⟩ := h _ hf
  cases hv

end Event

end Footfall
