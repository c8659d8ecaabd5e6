import Footfall.Proofs.Cleaning
import Footfall.Proofs.Listing
import Footfall.Proofs.Rows
import Footfall.Proofs.WholeDays

/-!
The canonical form of events. What is read from clean fields is in canonical form, the fields of the
record are clean again, and they are read as the same record: so an event in canonical form is
brought into it by itself.
-/

namespace Footfall

namespace Field

variable {fields : Fields} {name : String} {v : Value} {t : Timestamp} {i : Instant}

theorem micros_lt_of_ofMicros? {n : Int} (h : Instant.ofMicros? n = some i) :
    i.micros < Instant.limit := by
  unfold Instant.ofMicros? at h
  split at h
  · rename_i hn
    cases h
    exact (Int.toNat_lt hn.1).2 hn.2
  · cases h

theorem wall_lt_of_ofMoment {m : Time.Moment} (h : ofMoment m = .accepted t) :
    t.wall.micros < Instant.limit := by
  unfold ofMoment at h
  split at h
  · rename_i i hi
    cases h
    exact micros_lt_of_ofMicros? hi
  · cases h

theorem wall_lt_of_timeReal {x : Double} (h : timeReal x = .accepted t) :
    t.wall.micros < Instant.limit := by
  unfold timeReal at h
  split at h
  · cases h
  · cases h
  · split at h
    · exact wall_lt_of_ofMoment h
    · cases h

theorem wall_lt_of_timeText {size : Nat} {cs : List Char} (h : timeText size cs = .accepted t) :
    t.wall.micros < Instant.limit := by
  unfold timeText at h
  split at h
  · exact wall_lt_of_ofMoment h
  · cases h

/-- Clocks show times of the calendar. -/
theorem wall_lt_of_timestamp (hv : v.IsActual) (h : timestamp v = .accepted t) :
    t.wall.micros < Instant.limit := by
  cases v with
  | time t =>
    cases h
    exact hv
  | date d =>
    cases h
    exact Nat.mul_lt_mul_of_pos_right (Date.number_lt hv) (by decide)
  | int n =>
    simp only [timestamp] at h
    split at h
    · split at h
      · exact wall_lt_of_ofMoment h
      · cases h
    · split at h
      · exact wall_lt_of_timeReal h
      · cases h
  | float x => exact wall_lt_of_timeReal h
  | text s => exact wall_lt_of_timeText h
  | bytes bs => exact wall_lt_of_timeText h
  | _ => cases h

theorem micros_lt_of_instant (hv : v.IsActual) (h : instant v = .accepted i) :
    i.micros < Instant.limit := by
  obtain ⟨t, ht, hi⟩ := Reading.bind_eq_accepted.1 h
  split at hi
  · rename_i j hj
    cases hi
    unfold Timestamp.toInstant? at hj
    split at hj
    · cases hj
      exact wall_lt_of_timestamp hv ht
    · exact micros_lt_of_ofMicros? hj
  · cases hi

theorem of_nullable {α : Type} {read : Value → Reading α} {a : α}
    (h : nullable read v = .accepted (some a)) : read v = .accepted a := by
  unfold nullable at h
  split at h
  · cases h
  · obtain ⟨b, hb, hsome⟩ := Reading.map_eq_accepted.1 h
    exact Option.some.inj hsome ▸ hb

theorem micros_lt_of_optional (ha : Value.AreActual fields)
    (h : Field.optional fields name none (nullable instant) = .accepted (some i)) :
    i.micros < Instant.limit := by
  obtain hnone | ⟨v, hv, hread⟩ := of_optional h
  · cases hnone
  · exact micros_lt_of_instant (ha _ (Value.mem_of_lookup hv)) (of_nullable hread)

theorem nullable_ofText (s : Option String) : nullable text (.ofText s) = .accepted s := by
  cases s <;> rfl

theorem nullable_ofWhole (n : Option Int) : nullable whole (.ofWhole n) = .accepted n := by
  cases n <;> rfl

theorem nullable_ofInstant {o : Option Instant} (h : ∀ i, o = some i → i.micros < Instant.limit) :
    nullable instant (.ofOption .ofInstant o) = .accepted o := by
  cases o with
  | none => rfl
  | some i => exact DateRange.read_ofInstant (h i rfl)

end Field

namespace EventRecord

open Footfall.Field

variable {fields : Fields} {r : EventRecord}

/-- The canonical form: texts have no blanks at their ends and are not empty, sizes are positive, the
team is the account, and the times are instants of the calendar. -/
structure IsCanonical (r : EventRecord) : Prop where
  event : Text.IsTrimmed r.event
  tag : Text.IsTrimmed r.tag
  texts : ∀ p ∈ r.context.texts, ∀ s, p.2 = some s → Text.IsTrimmed s
  sizes : ∀ p ∈ r.context.sizes, ∀ n, p.2 = some n → 0 < n
  team : r.team = r.account
  created : ∀ t, r.createdAt = some t → t.micros < Instant.limit
  updated : ∀ t, r.updatedAt = some t → t.micros < Instant.limit

theorem read_eq_accepted_iff : read fields = .accepted r ↔
    Field.optional fields "site_id" none (nullable whole) = .accepted r.site ∧
      required fields "tag_id" Field.text = .accepted r.tag ∧
      Field.optional fields "account_id" none (nullable whole) = .accepted r.account ∧
      Field.optional fields "team_id" none (nullable whole) = .accepted r.team ∧
      required fields "event" Field.text = .accepted r.event ∧
      Context.read fields = .accepted r.context ∧
      Field.optional fields "created_at" none (nullable instant) = .accepted r.createdAt ∧
      Field.optional fields "updated_at" none (nullable instant) = .accepted r.updatedAt := by
  constructor
  · intro h
    obtain ⟨_, _, g₇, h₈, rfl⟩ := Reading.seq_eq_accepted.1 h
    obtain ⟨_, _, g₆, h₇, rfl⟩ := Reading.seq_eq_accepted.1 g₇
    obtain ⟨_, _, g₅, h₆, rfl⟩ := Reading.seq_eq_accepted.1 g₆
    obtain ⟨_, _, g₄, h₅, rfl⟩ := Reading.seq_eq_accepted.1 g₅
    obtain ⟨_, _, g₃, h₄, rfl⟩ := Reading.seq_eq_accepted.1 g₄
    obtain ⟨_, _, g₂, h₃, rfl⟩ := Reading.seq_eq_accepted.1 g₃
    obtain ⟨_, _, g₁, h₂, rfl⟩ := Reading.seq_eq_accepted.1 g₂
    obtain ⟨_, h₁, rfl⟩ := Reading.map_eq_accepted.1 g₁
    exact ⟨h₁, h₂, h₃, h₄, h₅, h₆, h₇, h₈⟩
  · rintro ⟨h₁, h₂, h₃, h₄, h₅, h₆, h₇, h₈⟩
    simp only [read, h₁, h₂, h₃, h₄, h₅, h₆, h₇, h₈]
    rfl

theorem lookup_texts (r : EventRecord) {p : String × Option String} (hp : p ∈ r.context.texts) :
    Value.lookup r.toFields p.1 = some (.ofText p.2) := by
  simp only [Context.texts, List.mem_cons, List.not_mem_nil, or_false] at hp
  rcases hp with rfl | rfl | rfl | rfl | rfl | rfl | rfl | rfl | rfl | rfl | rfl <;> rfl

theorem lookup_sizes (r : EventRecord) {p : String × Option Int} (hp : p ∈ r.context.sizes) :
    Value.lookup r.toFields p.1 = some (.ofWhole p.2) := by
  simp only [Context.sizes, List.mem_cons, List.not_mem_nil, or_false] at hp
  rcases hp with rfl | rfl <;> rfl

theorem lookup_objects (r : EventRecord) {p : String × Option Fields}
    (hp : p ∈ r.context.objects) :
    Value.lookup r.toFields p.1 = some (.ofOption .object p.2) := by
  simp only [Context.objects, List.mem_cons, List.not_mem_nil, or_false] at hp
  rcases hp with rfl | rfl | rfl <;> rfl

/-- A record is read from its fields, if its times are of the calendar. -/
theorem read_toFields (hcreated : ∀ t, r.createdAt = some t → t.micros < Instant.limit)
    (hupdated : ∀ t, r.updatedAt = some t → t.micros < Instant.limit) :
    read r.toFields = .accepted r := by
  have hcontext : Context.read r.toFields = .accepted r.context := by
    refine Context.read_eq_accepted_iff.2 ⟨fun p hp ↦ ?_, fun p hp ↦ ?_, fun p hp ↦ ?_⟩
    · exact StoredEvent.optional_of_accepted (r.lookup_texts hp) (nullable_ofText p.2)
    · exact StoredEvent.optional_of_accepted (r.lookup_objects hp)
        (StoredEvent.eventMap_ofOption p.2)
    · exact StoredEvent.optional_of_accepted (r.lookup_sizes hp) (nullable_ofWhole p.2)
  refine read_eq_accepted_iff.2 ⟨?_, ?_, ?_, ?_, ?_, hcontext, ?_, ?_⟩
  · exact StoredEvent.optional_of_accepted rfl (nullable_ofWhole r.site)
  · exact StoredEvent.required_of_accepted rfl rfl
  · exact StoredEvent.optional_of_accepted rfl (nullable_ofWhole r.account)
  · exact StoredEvent.optional_of_accepted rfl (nullable_ofWhole r.team)
  · exact StoredEvent.required_of_accepted rfl rfl
  · exact StoredEvent.optional_of_accepted rfl (nullable_ofInstant hcreated)
  · exact StoredEvent.optional_of_accepted rfl (nullable_ofInstant hupdated)

end EventRecord

namespace Event

open Footfall.Field

variable {fields : Fields} {r : EventRecord}

theorem canonicalizeFields_eq_ok_iff : canonicalizeFields fields = .ok r ↔
    ∃ cleaned, clean fields = .ok cleaned ∧ EventRecord.read cleaned = .accepted r := by
  rw [canonicalizeFields, bind_eq_ok_iff]
  refine exists_congr fun cleaned ↦ and_congr_right fun _ ↦ ?_
  cases EventRecord.read cleaned with
  | accepted a => simp [pure, Except.pure]
  | failed e => simp [throw, throwThe, MonadExceptOf.throw]
  | rejected is => cases is <;> simp [throw, throwThe, MonadExceptOf.throw]

/-- What is read from clean fields is in canonical form, and its fields are clean. -/
theorem isCanonical_of_isClean (h : IsClean fields) (ha : Value.AreActual fields)
    (hr : EventRecord.read fields = .accepted r) : r.IsCanonical ∧ IsClean r.toFields := by
  obtain ⟨-, htag, haccount, hteam, hevent, hcontext, hcreated, hupdated⟩ :=
    EventRecord.read_eq_accepted_iff.1 hr
  obtain ⟨htexts, -, hsizes⟩ := Context.read_eq_accepted_iff.1 hcontext
  have hrequired {name s : String} (hname : name ∈ ["event", "tag_id"])
      (hs : required fields name Field.text = .accepted s) : Text.IsTrimmed s := by
    obtain ⟨s', hs', htrimmed⟩ := h.required name hname
    rw [StoredEvent.required_of_accepted (f := Field.text) hs' rfl] at hs
    cases hs
    exact htrimmed
  have htext : ∀ p ∈ r.context.texts, ∀ s, p.2 = some s → Text.IsTrimmed s := by
    intro p hp
    have hname : p.1 ∈ textFields := List.mem_map_of_mem (f := Prod.fst) hp
    obtain ⟨o, ho, htrimmed⟩ := h.texts p.1 hname
    have hread := htexts p hp
    rw [StoredEvent.optional_of_accepted ho (nullable_ofText o), Reading.accepted.injEq] at hread
    exact hread ▸ htrimmed
  have hsize : ∀ p ∈ r.context.sizes,
      cleanDimension (.ofWhole p.2) = .ok p.2 ∧ ∀ n, p.2 = some n → 0 < n := by
    intro p hp
    have hname : p.1 ∈ ["screen_width", "screen_height"] := List.mem_map_of_mem (f := Prod.fst) hp
    obtain ⟨o, ho, hclean⟩ := h.sizes p.1 hname
    have hread := hsizes p hp
    rw [StoredEvent.optional_of_accepted ho (nullable_ofWhole o), Reading.accepted.injEq] at hread
    exact hread ▸ hclean
  have hsame : r.team = r.account := by
    obtain ⟨v, hv, hv'⟩ := h.team
    simp only [Field.optional, hv, hv', Reading.under_eq_accepted] at hteam haccount
    exact Reading.accepted.inj (hteam.symm.trans haccount)
  constructor
  · constructor
    case event => exact hrequired (by simp) hevent
    case tag => exact hrequired (by simp) htag
    case texts => exact htext
    case sizes => exact fun p hp ↦ (hsize p hp).2
    case team => exact hsame
    case created => exact fun t ht ↦ micros_lt_of_optional ha (ht ▸ hcreated)
    case updated => exact fun t ht ↦ micros_lt_of_optional ha (ht ▸ hupdated)
  · constructor
    case required =>
      intro name hname
      rcases List.mem_cons.1 hname with rfl | hname
      · exact ⟨r.event, rfl, hrequired (by simp) hevent⟩
      · obtain rfl := List.mem_singleton.1 hname
        exact ⟨r.tag, rfl, hrequired (by simp) htag⟩
    case texts =>
      intro name hname
      obtain ⟨p, hp, rfl⟩ := List.mem_map.1 (show name ∈ r.context.texts.map Prod.fst from hname)
      exact ⟨p.2, r.lookup_texts hp, htext p hp⟩
    case sizes =>
      intro name hname
      obtain ⟨p, hp, rfl⟩ := List.mem_map.1 (show name ∈ r.context.sizes.map Prod.fst from hname)
      exact ⟨p.2, r.lookup_sizes hp, hsize p hp⟩
    case team => exact ⟨.ofWhole r.team, rfl, by rw [hsame]; rfl⟩

/-- Whatever payload of values that there are is brought into canonical form, the record is in
canonical form, and bringing it there once more gives the same record. -/
theorem canonicalize_idempotent {payload : Value} (h : payload.HasActualFields)
    (hr : canonicalize payload = .ok r) : r.IsCanonical ∧ recanonicalize r = .ok r := by
  cases payload with
  | object fields =>
    obtain ⟨cleaned, hclean, hread⟩ := canonicalizeFields_eq_ok_iff.1 hr
    obtain ⟨hcleaned, hactual⟩ := isClean_of_clean h hclean
    obtain ⟨hcanonical, hagain⟩ := isCanonical_of_isClean hcleaned hactual hread
    refine ⟨hcanonical, canonicalizeFields_eq_ok_iff.2 ⟨r.toFields, ?_, ?_⟩⟩
    · refine clean_of_isClean hagain fun a ha ↦ ?_
      simp only [aliases, List.mem_cons, List.not_mem_nil, or_false] at ha
      rcases ha with rfl | rfl | rfl | rfl <;> rfl
    · exact EventRecord.read_toFields hcanonical.created hcanonical.updated
  | _ => cases hr

/-- A payload under older names of fields, with blanks, numbers for texts, a size with a fraction, a
map given as text and a time of another zone. -/
def loosePayload : Value :=
  .object [("createdAt", .text "2024-01-01T01:30:00+02:00"), ("event", .text " view\n"),
    ("tag_id", .int 7), ("os", .text "\tLinux "), ("referrer", .text "  "),
    ("screen_width", .float (.ofDecimal false 19205 (-1))), ("screen_height", .text "-3"),
    ("account_id", .text " 5 "), ("custom_data", .text "\x7b\"a\": [NaN]\x7d")]

theorem canonicalize_idempotent_loosePayload :
    loosePayload.HasActualFields ∧ ∃ r, canonicalize loosePayload = .ok r ∧
      (r.event, r.team, r.context.operatingSystem, r.context.screenWidth, r.createdAt) =
        ("view", some 5, some "Linux", some 1920,
          some ⟨(Instant.ofDate ⟨2024, 1, 1⟩).micros - Instant.hour / 2⟩) ∧
      r.IsCanonical ∧ recanonicalize r = .ok r := by
  have h : loosePayload.HasActualFields := by
    simp [loosePayload, Value.HasActualFields, Value.AreActual, Value.IsActual,
      Double.isRepresentable_ofDecimal]
  have hsome : (canonicalize loosePayload).toOption.map (fun r ↦
      (r.event, r.team, r.context.operatingSystem, r.context.screenWidth, r.createdAt)) =
      some ("view", some 5, some "Linux", some 1920,
        some ⟨(Instant.ofDate ⟨2024, 1, 1⟩).micros - Instant.hour / 2⟩) := by
    decide +kernel
  cases hr : canonicalize loosePayload with
  | error e =>
    rw [hr] at hsome
    cases hsome
  | ok r =>
    rw [hr] at hsome
    exact ⟨h, r, rfl, Option.some.inj hsome, canonicalize_idempotent h hr⟩

end Event

end Footfall
