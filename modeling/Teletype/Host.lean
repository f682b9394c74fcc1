import Teletype.Identity.Database
import Teletype.Notice
import Teletype.Settings.Load
import Teletype.Terminal.Device

/-!
# Hosts

The host that sessions run on, as far as they change it: how many terminals it has opened, children it
has spawned and sessions it has named, the devices still to be opened, the faults it has ready, and a
journal of what was asked of it and told to the operator.
-/

namespace Teletype

/-- What a child is spawned with: its words, its standard streams, its variables, whether it leads a
    session of its own, and with a credential that user, group and exactly these further groups. -/
structure Spawn where
  argv : List String
  streams : List Nat
  environment : Environment
  leads : Bool
  credential : Option Credential
  deriving DecidableEq, Repr

/-- Something asked of the host, or told to the operator. -/
inductive Event where
  | opened (master subordinate : Nat)
  | spawning (spawn : Spawn)
  | closed (handle : Nat)
  | resizing (handle : Nat) (columns rows : Int)
  | closingMaster (handle : Nat)
  | told (notice : Notice)
  deriving DecidableEq, Repr

/-- A host. -/
structure Host where
  opened : Nat := 0
  spawned : Nat := 0
  named : Nat := 0
  devices : List Device := []
  faults : Faults := {}
  journal : List Event := []

namespace Host

/-- The host with one more event in its journal. -/
def note (h : Host) (e : Event) : Host := { h with journal := h.journal ++ [e] }

/-- The host after the operator was told something. -/
def tell (h : Host) (n : Notice) : Host := h.note (.told n)

/-- A new name of eight digits. -/
def name (h : Host) : String × Host :=
  (String.ofList (Text.paddedDigits 10 8 (h.named + 1)), { h with named := h.named + 1 })

/-- The handle of the `n`-th terminal's master. -/
def masterHandle (n : Nat) : Nat := 100 + 2 * n

/-- The handle of the other side of a master's terminal. -/
def subordinateOf (master : Nat) : Nat := master + 1

/-- The id of the `n`-th child. -/
def childId (n : Nat) : Nat := 4001 + n

/-- Opens the terminal of the next device: its master and the device, unless the host has a fault
    ready. The faults that the device brings become ready first. -/
def openTerminal (h : Host) : Except Fault (Nat × Device) × Host :=
  let device := h.devices.headD {}
  let faults := h.faults.updated device.faults
  let h := { h with devices := h.devices.drop 1, faults }
  match faults.opening with
  | some f => (.error f, { h with faults := { faults with opening := none } })
  | none =>
    let master := masterHandle h.opened
    (.ok (master, device), { h with opened := h.opened + 1 }.note (.opened master (subordinateOf master)))

/-- Spawns a child, unless the host has a fault ready: the child's id. -/
def spawn (h : Host) (s : Spawn) : Except Fault Nat × Host :=
  let h := h.note (.spawning s)
  match h.faults.spawning with
  | some f => (.error f, { h with faults := { h.faults with spawning := none } })
  | none => (.ok (childId h.spawned), { h with spawned := h.spawned + 1 })

/-- Gives a terminal's window a size, unless the host has a fault ready. -/
def resize (h : Host) (handle : Nat) (columns rows : Int) : Option Fault × Host :=
  let h := h.note (.resizing handle columns rows)
  match h.faults.resizing with
  | some f => (some f, { h with faults := { h.faults with resizing := none } })
  | none => (none, h)

end Host

end Teletype
