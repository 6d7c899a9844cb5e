import TargetWakeTime.Host.Link

/-!
Contract: a link whose outcomes are laid down in advance.

Frames that are taken are kept. Nothing ever comes back by itself.
-/

namespace TargetWakeTime.Simulation

structure ScriptedLink where
  /-- What becomes of the next frames: taken, or refused for this reason. Later ones are taken. -/
  outcomes : List (Option Host.LinkError) := []
  /-- The frames that were taken, the newest first. -/
  taken : List (List UInt8) := []
deriving DecidableEq, Repr

namespace ScriptedLink

def transmit (frame : List UInt8) (l : ScriptedLink) :
    Except Host.LinkError Unit × ScriptedLink :=
  match l.outcomes with
  | some error :: rest => (.error error, { l with outcomes := rest })
  | _ => (.ok (), { outcomes := l.outcomes.tail, taken := frame :: l.taken })

instance : Host.Link ScriptedLink where
  transmit _ := transmit
  nextArrival? _ := none
  arrivals _ l := ([], l)

end ScriptedLink

end TargetWakeTime.Simulation
