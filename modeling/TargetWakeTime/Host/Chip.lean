import TargetWakeTime.Host.Command
import TargetWakeTime.Host.Link
import TargetWakeTime.Host.Response

/-!
Contract: a simulated chip.

Owns:
- the table of installed agreements, one for each interface and flow, in ascending order;
- what each command does to the table and with what status it is answered;
- confirms on their way to the host, and the ways to lose or spoil them on purpose.

A command is executed also when its confirm is lost, and again whenever it is transmitted again.
The time that a confirm takes is a setting of the chip, and the same for all of them.
-/

namespace TargetWakeTime.Host

namespace Chip

/-- Interface and flow of an installed agreement. -/
abbrev SlotId := UInt16 × UInt8

def slotLt (a b : SlotId) : Bool := a.1 < b.1 || (a.1 == b.1 && a.2 < b.2)

/-- Agreements by interface and flow, in ascending order. -/
abbrev Table := List (SlotId × List UInt8)

namespace Table

def get? (id : SlotId) (t : Table) : Option (List UInt8) :=
  (t.find? (·.1 == id)).map (·.2)

/-- Installs an agreement in place of any earlier one for the slot. -/
def insert (id : SlotId) (agreement : List UInt8) : Table → Table
  | [] => [(id, agreement)]
  | entry :: rest =>
      if entry.1 = id then (id, agreement) :: rest
      else if slotLt id entry.1 then (id, agreement) :: entry :: rest
      else entry :: insert id agreement rest

def erase (id : SlotId) (t : Table) : Table := t.filter (·.1 ≠ id)

end Table

structure Settings where
  /-- Milliseconds from a command to its confirm. -/
  latency : Nat := 1
  loseAll : Bool := false
deriving DecidableEq, Repr

structure Stats where
  received : Nat := 0
  sent : Nat := 0
  dropped : Nat := 0
deriving DecidableEq, Repr

/-- A confirm on its way, and when it arrives. -/
structure Reply where
  due : Nat
  frame : List UInt8
deriving DecidableEq, Repr

/-- The status of a request that cannot be carried out. -/
def statusInvalid : UInt32 := 22

end Chip

structure Chip where
  settings : Chip.Settings := {}
  installed : Chip.Table := []
  /-- Host identifiers of all commands that came in, the newest first. -/
  received : List HostId := []
  /-- How many of the next confirms are lost on purpose. -/
  dropNext : Nat := 0
  /-- The status of the next command, which is then not executed. -/
  failNext : Option UInt32 := none
  stats : Chip.Stats := {}
  /-- Confirms on their way, in the order in which they were sent. -/
  replies : List Chip.Reply := []
deriving DecidableEq, Repr

namespace Chip

/-- What a command does to the table, and its status. -/
def execute (t : Table) : Command → UInt32 × Table
  | .healthCheck => (0, t)
  | .install vif flow agreement => (0, t.insert (vif, flow) agreement)
  | .validate _ _ agreement => (if agreement.isEmpty then statusInvalid else 0, t)
  | .remove vif flow =>
      match t.get? (vif, flow) with
      | some _ => (0, t.erase (vif, flow))
      | none => (statusInvalid, t)

/-- The next commands' confirms are lost. The commands are executed all the same. -/
def drop (count : Nat) (c : Chip) : Chip := { c with dropNext := count }

/-- The next command is answered with this status and not executed. -/
def fail (status : UInt32) (c : Chip) : Chip := { c with failNext := some status }

/-- Carries out a command that came in, unless it is to fail, and yields its status. -/
def perform (hostId : HostId) (command : Command) (c : Chip) : UInt32 × Chip :=
  let c :=
    { c with
      received := hostId :: c.received
      stats := { c.stats with received := c.stats.received + 1 } }
  match c.failNext with
  | some status => (status, { c with failNext := none })
  | none =>
      let (status, installed) := execute c.installed command
      (status, { c with installed })

/-- Sends the confirm of a request on its way, or loses it. -/
def answer (now : Nat) (request : Header) (status : UInt32) (c : Chip) : Chip :=
  if 0 < c.dropNext ∨ c.settings.loseAll then
    { c with
      dropNext := c.dropNext - 1
      stats := { c.stats with dropped := c.stats.dropped + 1 } }
  else
    { c with
      stats := { c.stats with sent := c.stats.sent + 1 }
      replies := c.replies ++
        [{ due := now + c.settings.latency
           frame := (Response.confirm request status []).encode }] }

/-- Takes a frame from the host; one that is no command is refused and leaves no trace. -/
def transmit (now : Nat) (frame : List UInt8) (c : Chip) : Except LinkError Unit × Chip :=
  match Command.decode frame with
  | .error error => (.error (.io error.message), c)
  | .ok (header, command) =>
      let (status, c) := c.perform header.hostId command
      (.ok (), c.answer now header status)

def nextArrival? (c : Chip) : Option Nat := (c.replies.map (·.due)).min?

/-- The confirms that have arrived by now; the others stay on their way. -/
def arrivals (now : Nat) (c : Chip) : List (List UInt8) × Chip :=
  ((c.replies.filter (·.due ≤ now)).map (·.frame),
    { c with replies := c.replies.filter (now < ·.due) })

instance : Link Chip where
  transmit := transmit
  nextArrival? := nextArrival?
  arrivals := arrivals

end Chip

end TargetWakeTime.Host
