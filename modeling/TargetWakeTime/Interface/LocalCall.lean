import TargetWakeTime.Interface.Basic

/-!
Contract: local operations that wait for the chip: configuring a flow and tearing one down.

Such an operation has two halves. The first checks and says what to ask of the chip, the second
takes the chip's answer. In between the interface goes on, and other operations may run.
-/

namespace TargetWakeTime

/-- An operation that waits for the chip's answer. -/
inductive LocalCall where
  /-- Install without asking the access point. -/
  | install (agreement : Agreement)
  /-- Ask the access point, once the chip has said that it could run the agreement. -/
  | negotiate (agreement : Agreement) (command : SetupCommand)
  | uninstall (flow : UInt8)
deriving DecidableEq, Repr

namespace Interface

/-- First half of configuring a flow: the checks, and what to ask of the chip. -/
def configure (r : SetupRequest) (i : Interface) : Except Error (LocalCall × Host.Command) :=
  match r.build with
  | .error error => .error error
  | .ok agreement =>
      match i.negotiation.ensureConfigurable r.flow with
      | .error error => .error error
      | .ok () =>
          match r.mode with
          | .forceInstall =>
              .ok (.install agreement, .install i.vif agreement.flow agreement.chipBlob)
          | .negotiate =>
              if !i.negotiation.requester then .error .requesterDisabled
              else if !r.command.isRequest then
                .error (.invalidParameter (.notRequesterCommand r.command))
              else
                .ok (.negotiate agreement r.command,
                  .validate i.vif agreement.flow agreement.chipBlob)

/-- First half of tearing a flow down: the own flow is cleared, and the chip is asked only if no
frame has to go first. -/
def teardown (flow : UInt8) (i : Interface) :
    Except Error (Option (LocalCall × Host.Command)) × Interface :=
  match i.operate (·.beginTeardown flow) with
  | (.error error, i) => (.error error, i)
  | (.ok true, i) => (.ok (some (.uninstall flow, .remove i.vif flow)), i)
  | (.ok false, i) => (.ok none, i)

def complete (call : LocalCall) (answer : Except Host.CommandError Unit) (i : Interface) :
    Except Error Unit × Interface :=
  match answer with
  | .error error => (.error (.host error), i)
  | .ok () =>
      match call with
      | .install agreement => i.operate fun n => (.ok (), n.forceInstalled agreement)
      | .negotiate agreement command => i.operate (·.sendRequest agreement command)
      | .uninstall flow =>
          (.ok (), { i with negotiation := i.negotiation.commitUninstall flow })

end Interface

end TargetWakeTime
