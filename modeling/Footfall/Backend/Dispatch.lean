import Footfall.Backend.Basic
import Footfall.Directory.Remote
import Footfall.Directory.Static

/-!
Choice of the backend for a kind of storage, and the set-up of backends and directory from the
settings. A kind that is not known stands for the default one; a known kind without a backend has a
stub.
-/

namespace Footfall

structure Dispatcher where
  backends : Keyed StorageKind Backend := []
  defaultKind : StorageKind := .sqlite
  deriving Repr, Inhabited

namespace Dispatcher

def resolve (d : Dispatcher) (kind : Value) : StorageKind :=
  (StorageKind.ofValue? kind).getD d.defaultKind

def backend (d : Dispatcher) (kind : StorageKind) : Backend :=
  (Keyed.find d.backends kind).getD (.stub kind)

def save (d : Dispatcher) (kind : StorageKind) (b : Backend) : Dispatcher :=
  { d with backends := d.backends.put kind b }

@[simp] theorem backend_save (d : Dispatcher) (kind : StorageKind) (b : Backend) :
    (d.save kind b).backend kind = b := by
  simp [save, backend]

theorem backend_save_of_ne (d : Dispatcher) {kind other : StorageKind} (b : Backend)
    (h : kind ≠ other) : (d.save kind b).backend other = d.backend other := by
  simp [save, backend, Keyed.find_put, h]

end Dispatcher

namespace Settings

def embedded (s : Settings) : Backend :=
  ⟨.sqlite, s.windowDays, .embedded { persistent := s.storeDir.isTruthy, maxRows := s.queryRows }⟩

def dialectOfUrl (url : String) : Report.Dialect :=
  if (after? "sqlite" url).isSome then .sqlite else .postgresql

def server (s : Settings) : Except Fault (Option Backend) := do
  match ← s.serverUrl with
  | .text url =>
    if url.isEmpty then return none
    else return some ⟨.postgres, s.windowDays,
      .server { dialect := dialectOfUrl url, maxRows := s.queryRows, table := none }⟩
  | _ => return none

def dispatcher (s : Settings) : Except Fault Dispatcher := do
  return { backends := (.sqlite, s.embedded) :: ((← s.server).map ((.postgres, ·))).toList }

end Settings

/-- Where sites are looked up. -/
inductive SiteSource
  | fixed (d : Directory)
  | remote (d : RemoteDirectory)
  deriving Repr

/-- The source of sites: the given one, or else the remote directory if it is configured. -/
def Settings.siteSource (s : Settings) (given : Option Directory) : Except Failure SiteSource :=
  match given with
  | some d => .ok (.fixed d)
  | none =>
    if s.hasDirectory then .ok (.remote (.ofSettings s)) else .error (.fault .noDirectory)

end Footfall
