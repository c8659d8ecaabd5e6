import Footfall.Proofs.Parcelling

/-!
Batches of payloads. All of them are checked before anything is stored, so that one that is refused
leaves everything as it is, at whatever place of the batch it stands. Otherwise the storage gets the
records of one site after the other, the sites in the order in which they first occur, and those of
a site in the order of the batch.
-/

namespace Footfall

namespace Service

variable {s s' s'' : Service} {now : Instant} {payload : Value} {payloads : List Value}
  {e : Failure} {r : EventRecord} {sent : List (Site × EventRecord)} {m : Keyed Int Parcel}
  {parcels : List Parcel}

/-- The payloads that are refused: those that are no events, those of a tag that no site has, and
those that name another site than that of their tag. -/
inductive Refuses (s : Service) (payload : Value) : Failure → Prop
  | event {e : Failure} : Event.canonicalize payload = .error e → Refuses s payload e
  | tag {r : EventRecord} :
      Event.canonicalize payload = .ok r → s.directory.find? (.tag r.tag) = none →
      Refuses s payload (.violation (.unknownTag r.tag))
  | site {r : EventRecord} {x : Site} {n : Int} :
      Event.canonicalize payload = .ok r → s.directory.find? (.tag r.tag) = some x →
      r.site = some n → n ≠ x.id → Refuses s payload (.violation .siteOfTag)

/-- A payload is sent to the site of its tag, as a record of the number and team that the directory
has for it. -/
def Sends (s : Service) (payload : Value) (p : Site × EventRecord) : Prop :=
  ∃ r, Event.canonicalize payload = .ok r ∧ s.directory.find? (.tag r.tag) = some p.1 ∧
    p.2 = { r with site := some p.1.id, team := some p.1.team, account := some p.1.team }

/-- Parcels are handed to the storage one after the other, and each is stored with its rows. -/
inductive Hands (now : Instant) : Service → List (Parcel × List StoredEvent) → Service → Prop
  | nil (s : Service) : Hands now s [] s
  | cons {s s' s'' : Service} {p : Parcel} {rows : List StoredEvent}
      {rest : List (Parcel × List StoredEvent)} :
      s.onBackend p.1.storage (·.insertAll now p.2) = (.ok rows, s') → Hands now s' rest s'' →
      Hands now s ((p, rows) :: rest) s''

/-- How the storage of parcels ends: all have been handed over, or those up to one that fails. -/
inductive Stores (now : Instant) (s : Service) (parcels : List Parcel) :
    Except Failure (List StoredEvent) × Service → Prop
  | all (done : List (Parcel × List StoredEvent)) {s' : Service} :
      done.map (·.1) = parcels → Hands now s done s' →
      Stores now s parcels (.ok (done.flatMap (·.2)), s')
  | upTo (done : List (Parcel × List StoredEvent)) {p : Parcel} {rest : List Parcel} {e : Failure}
      {s' s'' : Service} :
      done.map (·.1) ++ p :: rest = parcels → Hands now s done s' →
      s'.onBackend p.1.storage (·.insertAll now p.2) = (.error e, s'') →
      Stores now s parcels (.error e, s'')

end Service

end Footfall
