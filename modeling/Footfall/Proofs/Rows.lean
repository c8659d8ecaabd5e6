import Footfall.Proofs.Calendar
import Footfall.Store.Table

/-!
The two ways to a stored event: from the values that a record is stored with, and from the cells of
its row. Both give the row, as far as texts of maps and times are read back as what they were
written from.
-/

namespace Footfall

def Context.maps (c : Context) : List Fields :=
  c.queryParams.toList ++ c.customData.toList ++ c.botData.toList

namespace Context

open Footfall.Field

variable {fields : Fields} {c : Context}

/-- The texts of a context, with the names of their fields. -/
def texts (c : Context) : List (String × Option String) :=
  [("page_url", c.pageUrl), ("client_page_url", c.clientPageUrl), ("referer", c.referer),
   ("browser", c.browser), ("operating_system", c.operatingSystem),
   ("device_type", c.deviceType), ("country", c.country), ("region", c.region), ("city", c.city),
   ("postal", c.postal), ("rid", c.rid)]

def objects (c : Context) : List (String × Option Fields) :=
  [("query_params", c.queryParams), ("custom_data", c.customData), ("bot_data", c.botData)]

def sizes (c : Context) : List (String × Option Int) :=
  [("screen_width", c.screenWidth), ("screen_height", c.screenHeight)]

/-- The fields of a context are read one by one. -/
theorem read_eq_accepted_iff : read fields = .accepted c ↔
    (∀ p ∈ c.texts, Field.optional fields p.1 none (nullable text) = .accepted p.2) ∧
      (∀ p ∈ c.objects, Field.optional fields p.1 none eventMap = .accepted p.2) ∧
      ∀ p ∈ c.sizes, Field.optional fields p.1 none (nullable whole) = .accepted p.2 := by
  simp only [texts, objects, sizes, List.forall_mem_cons, List.not_mem_nil, false_implies,
    implies_true, and_true]
  constructor
  · intro h
    obtain ⟨_, _, g₁₅, h₁₆, rfl⟩ := Reading.seq_eq_accepted.1 h
    obtain ⟨_, _, g₁₄, h₁₅, rfl⟩ := Reading.seq_eq_accepted.1 g₁₅
    obtain ⟨_, _, g₁₃, h₁₄, rfl⟩ := Reading.seq_eq_accepted.1 g₁₄
    obtain ⟨_, _, g₁₂, h₁₃, rfl⟩ := Reading.seq_eq_accepted.1 g₁₃
    obtain ⟨_, _, g₁₁, h₁₂, rfl⟩ := Reading.seq_eq_accepted.1 g₁₂
    obtain ⟨_, _, g₁₀, h₁₁, rfl⟩ := Reading.seq_eq_accepted.1 g₁₁
    obtain ⟨_, _, g₉, h₁₀, rfl⟩ := Reading.seq_eq_accepted.1 g₁₀
    obtain ⟨_, _, g₈, h₉, rfl⟩ := Reading.seq_eq_accepted.1 g₉
    obtain ⟨_, _, g₇, h₈, rfl⟩ := Reading.seq_eq_accepted.1 g₈
    obtain ⟨_, _, g₆, h₇, rfl⟩ := Reading.seq_eq_accepted.1 g₇
    obtain ⟨_, _, g₅, h₆, rfl⟩ := Reading.seq_eq_accepted.1 g₆
    obtain ⟨_, _, g₄, h₅, rfl⟩ := Reading.seq_eq_accepted.1 g₅
    obtain ⟨_, _, g₃, h₄, rfl⟩ := Reading.seq_eq_accepted.1 g₄
    obtain ⟨_, _, g₂, h₃, rfl⟩ := Reading.seq_eq_accepted.1 g₃
    obtain ⟨_, _, g₁, h₂, rfl⟩ := Reading.seq_eq_accepted.1 g₂
    obtain ⟨_, h₁, rfl⟩ := Reading.map_eq_accepted.1 g₁
    exact ⟨⟨h₁, h₂, h₃, h₇, h₈, h₉, h₁₂, h₁₃, h₁₄, h₁₅, h₁₆⟩, ⟨h₄, h₅, h₆⟩, h₁₀, h₁₁⟩
  · rintro ⟨⟨h₁, h₂, h₃, h₇, h₈, h₉, h₁₂, h₁₃, h₁₄, h₁₅, h₁₆⟩, ⟨h₄, h₅, h₆⟩, h₁₀, h₁₁⟩
    simp only [read, h₁, h₂, h₃, h₄, h₅, h₆, h₇, h₈, h₉, h₁₀, h₁₁, h₁₂, h₁₃, h₁₄, h₁₅, h₁₆]
    rfl

end Context

/-- The times are of the calendar, and the maps are read back from their texts. -/
structure EventRecord.IsStorable (r : EventRecord) : Prop where
  created : ∀ t, r.createdAt = some t → t.micros < Instant.limit
  updated : ∀ t, r.updatedAt = some t → t.micros < Instant.limit
  maps : ∀ m ∈ r.context.maps, Json.read (Json.write (.object m)) = .ok (.object m)

/-- The value that is loaded from a cell: maps and times are stored as texts of them. -/
def Column.load? : Column → Cell → Option Value
  | .queryParams, .text s | .customData, .text s | .botData, .text s => (Json.read s).toOption
  | .createdAt, .text s | .updatedAt, .text s => (Time.readTimestamp? s.toList).map .time
  | _, cell => some cell.toValue

/-- The values of a record with its site, its team and its times, which show universal time. -/
def Entry.values (e : Entry) (now : Instant) : Fields :=
  let fields := Value.remove e.record.toFields "account_id"
  let fields := Value.put fields "site_id" (.int e.site)
  let fields := Value.put fields "team_id" (.ofWhole e.team)
  let fields := Value.put fields "created_at" (.time ⟨e.record.createdAt.getD now, none⟩)
  Value.put fields "updated_at" (.time ⟨e.record.updatedAt.getD now, none⟩)

/-- The event made of the values of a record and the number that its row has been given. -/
def Entry.returned (e : Entry) (id : Int) (now : Instant) : Reading StoredEvent :=
  StoredEvent.read (.object (Value.put (e.values now) "id" (.int id)))

namespace StoredEvent

open Footfall.Field

/-- The event made of the cells of a row. -/
def ofCells (cell : Column → Cell) : Option (Reading StoredEvent) :=
  (Column.all.mapM fun c : Column ↦ (c.load? (cell c)).map (c.name, ·)).map (read <| .object ·)

/-- The value of a column. -/
def loaded (e : StoredEvent) : Column → Value
  | .queryParams => .ofOption .object e.context.queryParams
  | .customData => .ofOption .object e.context.customData
  | .botData => .ofOption .object e.context.botData
  | .createdAt => .time ⟨e.createdAt, none⟩
  | .updatedAt => .time ⟨e.updatedAt, none⟩
  | c => (e.cell c).toValue

theorem toValue_ofText (s : Option String) : (Cell.ofText s).toValue = .ofText s := by
  cases s <;> rfl

theorem toValue_ofWhole (n : Option Int) : (Cell.ofWhole n).toValue = .ofWhole n := by
  cases n <;> rfl

theorem nullable_text (s : Option String) :
    nullable Field.text (Cell.ofText s).toValue = .accepted s := by
  cases s <;> rfl

theorem nullable_whole (n : Option Int) :
    nullable whole (Cell.ofWhole n).toValue = .accepted n := by
  cases n <;> rfl

theorem eventMap_ofOption (m : Option Fields) : eventMap (.ofOption .object m) = .accepted m := by
  cases m <;> rfl

theorem optional_of_accepted {α : Type} {fields : Fields} {name : String} {d a : α} {v : Value}
    {f : Value → Reading α} (hv : Value.lookup fields name = some v) (hf : f v = .accepted a) :
    Field.optional fields name d f = .accepted a := by
  simp only [Field.optional, hv, hf, Reading.under]

theorem required_of_accepted {α : Type} {fields : Fields} {name : String} {a : α} {v : Value}
    {f : Value → Reading α} (hv : Value.lookup fields name = some v) (hf : f v = .accepted a) :
    required fields name f = .accepted a := by
  simp only [required, hv, hf, Reading.under]

theorem readContext_of_lookup {fields : Fields} {e : StoredEvent}
    (h : ∀ c : Column, Value.lookup fields c.name = some (e.loaded c)) :
    Context.read fields = .accepted e.context := by
  have htext (c : Column) {s : Option String} (hc : e.loaded c = (Cell.ofText s).toValue) :
      Field.optional fields c.name none (nullable Field.text) = .accepted s :=
    optional_of_accepted (h c) (hc ▸ nullable_text s)
  have hsize (c : Column) {n : Option Int} (hc : e.loaded c = (Cell.ofWhole n).toValue) :
      Field.optional fields c.name none (nullable whole) = .accepted n :=
    optional_of_accepted (h c) (hc ▸ nullable_whole n)
  have hmap (c : Column) {m : Option Fields} (hc : e.loaded c = .ofOption .object m) :
      Field.optional fields c.name none eventMap = .accepted m :=
    optional_of_accepted (h c) (hc ▸ eventMap_ofOption m)
  refine Context.read_eq_accepted_iff.2 ⟨?_, ?_, ?_⟩ <;>
    simp only [Context.texts, Context.objects, Context.sizes, List.forall_mem_cons,
      List.not_mem_nil, false_implies, implies_true, and_true]
  · exact ⟨htext .pageUrl rfl, htext .clientPageUrl rfl, htext .referer rfl, htext .browser rfl,
      htext .operatingSystem rfl, htext .deviceType rfl, htext .country rfl, htext .region rfl,
      htext .city rfl, htext .postal rfl, htext .rid rfl⟩
  · exact ⟨hmap .queryParams rfl, hmap .customData rfl, hmap .botData rfl⟩
  · exact ⟨hsize .screenWidth rfl, hsize .screenHeight rfl⟩

theorem readFields_of_lookup {fields : Fields} {e : StoredEvent}
    (h : ∀ c : Column, Value.lookup fields c.name = some (e.loaded c))
    (haccount : Value.lookup fields "account_id" = some (Cell.ofWhole e.account).toValue) :
    readFields fields = .accepted e := by
  have hinstant (t : Instant) : Field.instant (.time ⟨t, none⟩) = .accepted t := rfl
  simp only [readFields, readContext_of_lookup h,
    show required fields "site_id" _ = _ from required_of_accepted (f := whole) (h .site) rfl,
    show required fields "tag_id" _ = _ from required_of_accepted (f := Field.text) (h .tag) rfl,
    show Field.optional fields "account_id" none _ = _ from
      optional_of_accepted haccount (nullable_whole _),
    show Field.optional fields "team_id" none _ = _ from
      optional_of_accepted (h .team) (nullable_whole e.team),
    show required fields "event" _ = _ from required_of_accepted (f := Field.text) (h .event) rfl,
    show required fields "created_at" _ = _ from required_of_accepted (h .createdAt) (hinstant _),
    show required fields "updated_at" _ = _ from required_of_accepted (h .updatedAt) (hinstant _),
    show required fields "id" _ = _ from required_of_accepted (f := whole) (h .id) rfl]
  rfl

/-- What an event is read as depends on the values of its columns alone; the account, which has no
column, is the team. -/
theorem read_of_lookup {fields : Fields} {e : StoredEvent}
    (h : ∀ c : Column, Value.lookup fields c.name = some (e.loaded c))
    (hnone : Value.lookup fields "account_id" = none) (haccount : e.account = e.team) :
    read (.object fields) = .accepted e := by
  have hnull : (Value.get fields "account_id").isNull = true := by
    simp [Value.get, hnone, Value.isNull]
  have hteam : Value.get fields "team_id" = (Cell.ofWhole e.account).toValue := by
    rw [haccount]
    exact congrArg (·.getD .null) (h .team)
  show readFields (withAccount fields) = .accepted e
  rw [withAccount, if_pos hnull, hteam]
  apply readFields_of_lookup
  · intro c
    rw [Value.lookup_put_of_ne _ _ (by cases c <;> decide), h]
  · exact Value.lookup_put_self ..

end StoredEvent

namespace Entry

variable {e : Entry} {id : Int} {now : Instant}

/-- An event that is returned when its record is stored is its row. -/
theorem returned_eq_row (e : Entry) (id : Int) (now : Instant) :
    e.returned id now = .accepted (e.row id now) := by
  apply StoredEvent.read_of_lookup
  · intro c
    obtain ⟨⟨_, _, _, _, _, _, _, _⟩, _, _⟩ := e
    cases c with
    | team | screenWidth | screenHeight => exact congrArg some (StoredEvent.toValue_ofWhole _).symm
    | id | site | tag | event | queryParams | customData | botData | createdAt | updatedAt => rfl
    | _ => exact congrArg some (StoredEvent.toValue_ofText _).symm
  · rfl
  · rfl

end Entry

namespace StoredEvent

/-- The texts in the cells of a row are read back. -/
structure IsLoadable (e : StoredEvent) : Prop where
  created : e.createdAt.micros < Instant.limit
  updated : e.updatedAt.micros < Instant.limit
  maps : ∀ m ∈ e.context.maps, Json.read (Json.write (.object m)) = .ok (.object m)
  account : e.account = e.team

theorem load?_ofMap {c : Column} (hc : ∀ s, c.load? (.text s) = (Json.read s).toOption)
    {m : Option Fields} (hm : ∀ x, m = some x → Json.read (Json.write (.object x)) = .ok (.object x)) :
    c.load? (.ofMap m) = some (.ofOption .object m) := by
  rw [Cell.ofMap, hc]
  cases m with
  | none => rfl
  | some x => exact congrArg Except.toOption (hm x rfl)

theorem load?_storedText {c : Column}
    (hc : ∀ s, c.load? (.text s) = (Time.readTimestamp? s.toList).map .time) {t : Instant}
    (ht : t.micros < Instant.limit) : c.load? (.text t.storedText) = some (.time ⟨t, none⟩) := by
  rw [hc, Instant.readTimestamp?_storedText ht]
  rfl

theorem load?_cell {e : StoredEvent} (h : e.IsLoadable) (c : Column) :
    c.load? (e.cell c) = some (e.loaded c) := by
  cases c with
  | queryParams => exact load?_ofMap (fun _ ↦ rfl) fun x hx ↦ h.maps x (by simp [Context.maps, hx])
  | customData => exact load?_ofMap (fun _ ↦ rfl) fun x hx ↦ h.maps x (by simp [Context.maps, hx])
  | botData => exact load?_ofMap (fun _ ↦ rfl) fun x hx ↦ h.maps x (by simp [Context.maps, hx])
  | createdAt => exact load?_storedText (fun _ ↦ rfl) h.created
  | updatedAt => exact load?_storedText (fun _ ↦ rfl) h.updated
  | _ => rfl

theorem lookup_columns (f : Column → Value) (c : Column) :
    Value.lookup (Column.all.map fun c ↦ (c.name, f c)) c.name = some (f c) := by
  cases c <;> rfl

/-- An event that is listed is its row. -/
theorem ofCells_cell {e : StoredEvent} (h : e.IsLoadable) :
    ofCells e.cell = some (.accepted e) := by
  have hload : (Column.all.mapM fun c : Column ↦ (c.load? (e.cell c)).map (c.name, ·)) =
      some (Column.all.map fun c ↦ (c.name, e.loaded c)) := by
    simp only [load?_cell h, Option.map_some]
    exact List.mapM_pure
  rw [ofCells, hload, Option.map_some]
  exact congrArg some (read_of_lookup (lookup_columns e.loaded) rfl h.account)

end StoredEvent

theorem EventRecord.IsStorable.isLoadable_row {e : Entry} (h : e.record.IsStorable) {now : Instant}
    (hnow : now.micros < Instant.limit) (id : Int) : (e.row id now).IsLoadable := by
  constructor
  · cases ht : e.record.createdAt with
    | none => simpa [Entry.row, ht] using hnow
    | some t => simpa [Entry.row, ht] using h.created t ht
  · cases ht : e.record.updatedAt with
    | none => simpa [Entry.row, ht] using hnow
    | some t => simpa [Entry.row, ht] using h.updated t ht
  · exact h.maps
  · rfl

end Footfall
