import Footfall.Backend.Embedded
import Footfall.Proofs.Connection

/-!
What reads and writes do to the stores of all sites. A read opens stores and finds out their owners;
it changes no row. A write concerns the store of one site, which from then on goes by the team of the
first record if it went by none.
-/

namespace Footfall.Registry

variable {α : Type} {r r' r'' : Registry} {site : Int}

/-- The rows of a site's database; without a database or a table there are none. -/
def rowsOf (r : Registry) (site : Int) : Table := (r.tableOf site).getD []

/-- The team that the open store of a site goes by. -/
def teamOf (r : Registry) (site : Int) : Option Int := (r.find site).bind (·.team)

/-- Every open store stands under its own site and finds the table that it has made. -/
structure IsSound (r : Registry) : Prop where
  site_eq {site : Int} {s : SiteStore} : r.find site = some s → s.site = site
  isSome_table {site : Int} {s : SiteStore} :
    r.find site = some s → s.schemaReady = true → (r.tableOf site).isSome = true

theorem find_save (r : Registry) (c : Connection) (site : Int) :
    (r.save c).find site = if c.store.site = site then some c.store else r.find site :=
  Keyed.find_put ..

theorem tableOf_save (r : Registry) (c : Connection) (site : Int) :
    (r.save c).tableOf site =
      if c.store.schemaReady = true ∧ c.store.site = site then c.table else r.tableOf site := by
  by_cases hs : c.store.schemaReady = true
  · by_cases h : c.store.site = site <;> simp [save, tableOf, hs, h, Keyed.find_put]
  · simp [save, tableOf, hs]

@[simp] theorem find_remember (r : Registry) (s : SiteStore) (site : Int) :
    (r.remember s).find site = r.find site := by
  unfold remember
  split
  · rfl
  · split <;> rfl

@[simp] theorem tableOf_remember (r : Registry) (s : SiteStore) (site : Int) :
    (r.remember s).tableOf site = r.tableOf site := by
  unfold remember
  split
  · rfl
  · split <;> rfl

@[simp] theorem rowsOf_remember (r : Registry) (s : SiteStore) (site : Int) :
    (r.remember s).rowsOf site = r.rowsOf site := by
  simp [rowsOf]

@[simp] theorem persistent_remember (r : Registry) (s : SiteStore) :
    (r.remember s).persistent = r.persistent := by
  unfold remember
  split
  · rfl
  · split <;> rfl

theorem IsSound.remember (h : r.IsSound) (s : SiteStore) : (r.remember s).IsSound :=
  ⟨fun hf ↦ h.site_eq (by simpa using hf),
    fun hf ↦ by simpa using h.isSome_table (by simpa using hf)⟩

theorem find_obtain (r : Registry) (site : Int) (tag : Option String) (team : Option Int)
    (other : Int) : (r.obtain site tag team).2.find other =
      if site = other then some (r.storeFor site tag team) else r.find other := by
  simp only [obtain, find_remember]
  exact Keyed.find_put ..

@[simp] theorem tableOf_obtain (r : Registry) (site : Int) (tag : Option String)
    (team : Option Int) (other : Int) :
    (r.obtain site tag team).2.tableOf other = r.tableOf other := by
  simp [obtain, tableOf_remember]
  rfl

theorem team_storeFor (r : Registry) (site : Int) (tag : Option String) (team : Option Int) :
    (r.storeFor site tag team).team = (r.teamOf site).or team := by
  cases h : Keyed.find r.stores site <;> simp [storeFor, teamOf, find, h]

/-- A store that is connected with the database of its site. -/
def Holds (r : Registry) (site : Int) (s : SiteStore) : Prop :=
  s.site = site ∧ (s.schemaReady = true → (r.tableOf site).isSome = true)

theorem IsSound.holds (h : r.IsSound) {s : SiteStore} (hs : r.find site = some s) :
    r.Holds site s := ⟨h.site_eq hs, h.isSome_table hs⟩

theorem IsSound.holds_storeFor (h : r.IsSound) (site : Int) (tag : Option String)
    (team : Option Int) : r.Holds site (r.storeFor site tag team) := by
  cases hf : Keyed.find r.stores site with
  | none => simp [Holds, storeFor, hf]
  | some s => simpa [Holds, storeFor, hf] using h.holds hf

theorem Holds.isSound_connect {s : SiteStore} (h : r.Holds site s) : (r.connect s).IsSound :=
  fun hs ↦ by simpa only [connect, h.1] using h.2 hs

theorem Holds.content_connect {s : SiteStore} (h : r.Holds site s) :
    (r.connect s).content = r.rowsOf site := by
  simp only [Connection.content, connect, h.1, rowsOf]

theorem IsSound.obtain (h : r.IsSound) (site : Int) (tag : Option String) (team : Option Int) :
    (r.obtain site tag team).2.IsSound := by
  have hs := h.holds_storeFor site tag team
  constructor
  · intro other s hf
    rw [find_obtain] at hf
    split at hf
    · cases hf
      exact hs.1.trans ‹_›
    · exact h.site_eq hf
  · intro other s hf
    rw [find_obtain] at hf
    rw [tableOf_obtain]
    split at hf
    · cases hf
      exact ‹site = other› ▸ hs.2
    · exact h.isSome_table hf

theorem IsSound.save (h : r.IsSound) {c : Connection} (hc : c.IsSound) : (r.save c).IsSound := by
  constructor
  · intro other s hf
    rw [find_save] at hf
    split at hf
    · cases hf
      assumption
    · exact h.site_eq hf
  · intro other s hf hs
    rw [find_save] at hf
    rw [tableOf_save]
    split at hf
    · cases hf
      rename_i hsite
      simpa [hs, hsite] using hc hs
    · rename_i hsite
      simpa [hsite] using h.isSome_table hf hs

/-- A store that is saved brings its rows with it. It has made its table, unless the rows are those
that were there. -/
theorem rowsOf_save (r : Registry) {c : Connection}
    (hc : c.store.schemaReady = true ∨ c.content = r.rowsOf c.store.site) (site : Int) :
    (r.save c).rowsOf site = if c.store.site = site then c.content else r.rowsOf site := by
  by_cases h : c.store.site = site
  · rcases hc with hc | hc
    · simp [rowsOf, tableOf_save, hc, h, Connection.content]
    · by_cases hs : c.store.schemaReady = true
      · simp [rowsOf, tableOf_save, hs, h, Connection.content]
      · simp [rowsOf, tableOf_save, hs, h, hc]
  · simp [rowsOf, tableOf_save, h]

end Footfall.Registry
