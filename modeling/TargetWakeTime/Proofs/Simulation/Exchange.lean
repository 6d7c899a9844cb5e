import TargetWakeTime.Proofs.Negotiation.Serving
import TargetWakeTime.Proofs.Simulation.Carrying
import TargetWakeTime.Proofs.Simulation.Cast

/-!
Contract: what a station and its access point say to each other about one flow, until both rest again.

Owns:
- sketches of access points, and stations and access points at rest;
- the situations between a request or a teardown of the station and the rest of both, each with a
  rank: first those in which the two talk, then those in which the chip is told;
- that a step of either side leads to a situation of lower rank, and touches no other flow;
- that at the end the flow of the station and the slot of the access point are paired.

The access point answers every request at once. So there is at most one frame on its way, and whoever
gets it rests.
-/

namespace TargetWakeTime.Simulation

open Network (accessPointAddress stationAddress)

namespace Sketch

/-- An access point that serves these stations, with these events queued and these notes. -/
structure Access (served : List MacAddress) (queued : List Event)
    (noted : MacAddress → Option UInt8) (a : Sketch) : Prop where
  address : a.address = accessPointAddress
  serving : a.negotiation.Serving served queued noted

/-- The slot that an access point has for a flow of a station, if it is busy. -/
def busy? (number : Nat) (flow : UInt8) (a : Sketch) : Option Slot :=
  a.negotiation.stations.busy? ⟨stationAddress number, flow⟩

/-- An access point that has nothing to do. -/
structure Waits (served : List MacAddress) (a : Sketch) : Prop extends
    a.Access served [] fun _ => none where
  still : a.activity = .resting

/-- A station that has nothing to do. -/
structure Rests (number : Nat) (x : Sketch) : Prop where
  exists_own : ∃ own link, x.Station number own link [] ∧ own.commands = {} ∧
    (link = {} ∨ link = joined)
  still : x.activity = .resting

/-- An access point treats all flows but one of one station as before. -/
structure Spares (number : Nat) (flow : UInt8) (a b : Sketch) : Prop where
  link : b.negotiation.link = a.negotiation.link
  slots : ∀ key, key ≠ ⟨stationAddress number, flow⟩ →
    b.negotiation.stations.busy? key = a.negotiation.stations.busy? key

theorem Spares.refl (number : Nat) (flow : UInt8) (a : Sketch) : Spares number flow a a :=
  ⟨rfl, fun _ _ => rfl⟩

/-- What a receiver becomes of what a node sends, if it sends anything. -/
inductive Heard (source : MacAddress) (a : Sketch) : Option ActionFrame → Sketch → Prop where
  | silence : Heard source a none a
  | frame {frame : ActionFrame} (addressed : a.address = frame.destination)
      (takes : a.Takes source frame) : Heard source a (some frame) (a.receive source frame)

end Sketch

open Sketch (Heard)

/-- An answer of the access point to a station, and what the access point has noted for it. -/
def Granted (number : Nat) (flow : UInt8) (answer : Agreement) (a : Sketch) : Prop :=
  answer.command = .accept ∧ a.busy? number flow = some ⟨.agreement, some answer⟩ ∨
    answer.command = .reject ∧ a.busy? number flow = none

/-- A flow under consideration, of a station that has joined. -/
structure Considering (number : Nat) (flow : UInt8) (own : Requester) (queued : List Event)
    (x : Sketch) : Prop where
  station : x.Station number own joined queued
  considers : (own.state flow).isConsidering = true
  inactive : own.isInstalled flow = false
  empty : own.commands = {}

/-- How far a station and its access point are with what they say about a flow. -/
inductive Talking (served : List MacAddress) (number : Nat) (flow : UInt8) (x a : Sketch) :
    Nat → Prop where
  | rests (station : x.Rests number) (access : a.Waits served)
      (paired : x.Paired flow (a.busy? number flow)) : Talking served number flow x a 0
  | asks {own : Requester} {token : UInt8} {agreement : Agreement}
      (station : Considering number flow own [] x)
      (faces : x.activity =
        .facing (.sendSetup accessPointAddress token agreement.element agreement.flow))
      (legible : agreement.Legible) (requests : agreement.command.isRequest = true)
      (sameFlow : agreement.flow = flow) (access : a.Waits served)
      (free : a.busy? number flow = none) : Talking served number flow x a 12
  | asked {own : Requester} {token : UInt8} {agreement : Agreement}
      (station : Considering number flow own [] x) (still : x.activity = .resting)
      (legible : agreement.Legible) (requests : agreement.command.isRequest = true)
      (sameFlow : agreement.flow = flow)
      (access : a.Access served [.setup (stationAddress number) agreement]
        fun other => if other = stationAddress number then some token else none)
      (faces : a.activity = .facing (.handleEvents none))
      (free : a.busy? number flow = none) : Talking served number flow x a 11
  | answers {own : Requester} {token : UInt8} {answer : Agreement}
      (station : Considering number flow own [] x) (still : x.activity = .resting)
      (legible : answer.Legible) (sameFlow : answer.flow = flow)
      (access : a.Access served [] fun _ => none)
      (faces : a.activity =
        .facing (.sendSetup (stationAddress number) token answer.element flow))
      (granted : Granted number flow answer a) : Talking served number flow x a 10
  | answered {own : Requester} {answer : Agreement}
      (station : Considering number flow own [.setup accessPointAddress answer] x)
      (faces : x.activity = .facing (.handleEvents none)) (sameFlow : answer.flow = flow)
      (access : a.Waits served) (granted : Granted number flow answer a) :
      Talking served number flow x a 9
  | leaves {own : Requester} {slot : Slot} (station : x.Station number own joined [])
      (faces : x.activity = .facing (.sendTeardown accessPointAddress flow))
      (apart : own.state flow ≠ .agreement) (empty : own.commands = {})
      (runs : (x.installed.get? (1, flow)).isSome = true) (access : a.Waits served)
      (busy : a.busy? number flow = some slot) : Talking served number flow x a 9

/-- How far a station, its chip and its access point are with a flow. -/
inductive Exchange (served : List MacAddress) (number : Nat) (flow : UInt8) (now : Nat) (x a : Sketch) :
    Nat → Prop where
  | talks {rank : Nat} (talking : Talking served number flow x a rank) :
      Exchange served number flow now x a rank
  | installs {own : Requester} {answer : Agreement} {stage : Nat}
      (carrying : x.Carrying number own (.setup accessPointAddress answer) now stage)
      (empty : own.commands = {}) (sameFlow : answer.flow = flow)
      (slot : own.slots.get? flow = some ⟨.agreement, some answer⟩) (access : a.Waits served)
      (busy : a.busy? number flow = some ⟨.agreement, some answer⟩) :
      Exchange served number flow now x a stage
  /-- The access point still has to handle the teardown. -/
  | removes {own : Requester} {stage : Nat} {slot : Slot}
      (carrying : x.Carrying number own (.teardown accessPointAddress flow) now stage)
      (empty : own.commands = {}) (apart : own.state flow ≠ .agreement)
      (access : a.Access served [.teardown (stationAddress number) flow] fun _ => none)
      (faces : a.activity = .facing (.handleEvents none)) (busy : a.busy? number flow = some slot) :
      Exchange served number flow now x a (stage + 1)
  | removed {own : Requester} {stage : Nat}
      (carrying : x.Carrying number own (.teardown accessPointAddress flow) now stage)
      (empty : own.commands = {}) (apart : own.state flow ≠ .agreement) (access : a.Waits served)
      (free : a.busy? number flow = none) : Exchange served number flow now x a stage

variable {served : List MacAddress} {number rank now due : Nat} {flow : UInt8} {x y a b : Sketch}
  {frame : Option ActionFrame}

theorem busy?_key_teardown {slot : Slot} (small : flow.toNat < 8)
    (busy : a.busy? number flow = some slot) :
    a.negotiation.stations.busy? (Event.teardown (stationAddress number) flow).key = some slot := by
  rw [Event.key_teardown _ small]
  exact busy

/-- What is heard by a receiver that rests, if it leaves one task. -/
theorem heard_of_taken {source : MacAddress} {frame : ActionFrame} {task : Task} {n : Negotiation}
    (rests : a.activity = .resting) (addressed : a.address = frame.destination)
    (full : frame.payload ≠ [])
    (taken : (Sketch.taken source frame a.negotiation).takeTasks = ([task], n)) :
    Heard source a (some frame) { a with negotiation := n, activity := .facing task } := by
  have tasks : (Sketch.taken source frame a.negotiation).tasks = [task] := congrArg (·.1) taken
  have heard : Heard source a (some frame) (a.receive source frame) :=
    .frame addressed ⟨rests, full, by rw [tasks]; exact Nat.le_refl 1⟩
  rwa [Sketch.receive, taken] at heard

/-! ### Steps -/

/-- A station that talks, and takes a step, gets closer to the rest of both. -/
theorem Talking.station_next (talking : Talking served number flow x a rank)
    (member : stationAddress number ∈ served) (small : flow.toNat < 8)
    (next : x.next? due = some (y, frame)) :
    ∃ b less, Heard x.address a frame b ∧ less < rank ∧
      Exchange served number flow now y b less ∧ x.Elsewhere flow y ∧ a.Spares number flow b := by
  cases talking with
  | rests station =>
      rw [Sketch.next?, station.still] at next
      cases next
  | asked _ still | answers _ still =>
      rw [Sketch.next?, still] at next
      cases next
  | @asks own token agreement station faces legible requests sameFlow access free =>
      rw [Sketch.next?, faces] at next
      obtain ⟨rfl, rfl⟩ : _ = y ∧ some _ = frame := by simpa using next
      obtain ⟨m, taken, serving, link, same⟩ := access.serving.receiveSetup token member legible
      rw [← station.station.address] at taken
      have stays := station.station.turn .resting
      exact ⟨_, 11, heard_of_taken access.still access.address (Agreement.element_ne_nil _) taken, by omega,
        .talks (.asked { station with station := stays } rfl legible requests sameFlow
          ⟨access.address, serving⟩ rfl ((same _).trans free)),
        station.station.elsewhere stays (.refl _ _) rfl, link, fun key _ => same key⟩
  | @answered own answer station faces sameFlow access granted =>
      subst sameFlow
      obtain ⟨station, considers, inactive, empty⟩ := station
      rw [Sketch.next?, faces, station.negotiation] at next
      obtain ⟨rfl, rfl⟩ : _ = y ∧ none = frame := by simpa using next
      refine ⟨a, ?_⟩
      rcases granted with ⟨accepts, busy⟩ | ⟨rejects, free⟩
      · rw [Negotiation.handleEvents_of_accept accepts considers rfl]
        let agreed :=
          (own.setState answer.flow .agreement).setAgreement answer.flow (some answer)
        let event := Event.setup accessPointAddress answer
        have stays := station.become (rfl : _ = Negotiation.asking (agreed.pushCommand event) joined [])
          (.facing .applyCommands)
        have same : own.Elsewhere answer.flow agreed :=
          (Requester.elsewhere_setState _ own).trans (Requester.elsewhere_setAgreement _ _)
        exact ⟨7, .silence, by omega, .installs (.queued stays rfl rfl) empty rfl
          (Requester.slot?_ended small) access busy, station.elsewhere stays same rfl, .refl _ _ a⟩
      · rw [Negotiation.handleEvents_of_reject rejects considers]
        have stays := station.become
          (rfl : _ = Negotiation.asking (own.setState answer.flow .noAgreement) joined []) .resting
        refine ⟨0, .silence, by omega, .talks (.rests ⟨⟨_, _, stays, empty, .inr rfl⟩, rfl⟩ access ?_),
          station.elsewhere stays (Requester.elsewhere_setState _ own) rfl, .refl _ _ a⟩
        rw [free]
        refine .free ?_ inactive
        show (own.setState answer.flow .noAgreement).state answer.flow ≠ .agreement
        rw [Requester.state_setState small]
        decide
  | @leaves own slot station faces apart empty runs access busy =>
      rw [Sketch.next?, faces, station.negotiation] at next
      obtain ⟨rfl, rfl⟩ : _ = y ∧ some _ = frame := by simpa using next
      obtain ⟨m, taken, serving, link, same⟩ := access.serving.receiveTeardown busy
      rw [← station.address] at taken
      let event := Event.teardown accessPointAddress flow
      have stays := station.become (rfl : _ = Negotiation.asking (own.pushCommand event) joined [])
        (.facing .applyCommands)
      have feasible : (Host.Chip.execute x.installed (Interface.commandFor 1 event)).1 = 0 := by
        show (Host.Chip.execute x.installed (.remove 1 event.flow)).1 = 0
        rw [Event.flow_teardown accessPointAddress small, Host.Chip.execute]
        obtain ⟨blob, found⟩ := Option.isSome_iff_exists.mp runs
        rw [found]
      exact ⟨_, 8, heard_of_taken access.still access.address (List.cons_ne_nil _ _) taken, by omega,
        .removes (.queued stays rfl feasible) empty apart ⟨access.address, serving⟩ rfl
          ((same _).trans busy), station.elsewhere stays (.refl _ own) rfl, link, fun key _ => same key⟩

/-- An access point that talks, and takes a step, gets closer to the rest of both. -/
theorem Talking.access_next (talking : Talking served number flow x a rank)
    (member : stationAddress number ∈ served) (small : flow.toNat < 8)
    (next : a.next? due = some (b, frame)) :
    ∃ y less, Heard a.address x frame y ∧ less < rank ∧
      Exchange served number flow now y b less ∧ x.Elsewhere flow y ∧ a.Spares number flow b ∧
      (frame = none ∨ rank = 10) := by
  cases talking with
  | rests _ access | asks _ _ _ _ _ access | answered _ _ _ access | leaves _ _ _ _ _ access =>
      rw [Sketch.next?, access.still] at next
      cases next
  | @asked own token agreement station still legible requests sameFlow access faces free =>
      subst sameFlow
      obtain ⟨answer, m, taken, serving, link, others, readable, sameFlow, granted⟩ :=
        access.serving.answer member legible requests free
      rw [Sketch.next?, faces] at next
      dsimp only at next
      rw [taken] at next
      obtain ⟨rfl, rfl⟩ : _ = b ∧ none = frame := by simpa using next
      exact ⟨x, 10, .silence, by omega, .talks (.answers station still readable sameFlow
        ⟨access.address, serving⟩ rfl granted), .refl _ x, ⟨link, others⟩, .inl rfl⟩
  | @answers own token answer station still legible sameFlow access faces granted =>
      rw [Sketch.next?, faces] at next
      obtain ⟨rfl, rfl⟩ : _ = b ∧ some _ = frame := by simpa using next
      have held := station.station.negotiation
      have received : (Sketch.taken a.address
          { destination := stationAddress number, payload := answer.element, token, setup := true }
          x.negotiation).takeTasks =
            ([.handleEvents none], .asking own joined [.setup accessPointAddress answer]) := by
        rw [held, access.address]
        exact congrArg Negotiation.takeTasks (Negotiation.receiveSetup_asking legible)
      have hears := station.station.become
        (rfl : _ = Negotiation.asking own joined [.setup accessPointAddress answer])
        (.facing (.handleEvents none))
      exact ⟨_, 9, heard_of_taken still station.station.address (Agreement.element_ne_nil _) received,
        by omega, .talks (.answered { station with station := hears } rfl sameFlow
          ⟨⟨access.address, access.serving⟩, rfl⟩ granted),
        station.station.elsewhere hears (.refl _ own) rfl, ⟨rfl, fun _ _ => rfl⟩, .inr rfl⟩

/-- A station that takes a step gets closer to the rest of both. -/
theorem Exchange.station_next (exchange : Exchange served number flow now x a rank)
    (member : stationAddress number ∈ served) (small : flow.toNat < 8)
    (next : x.next? due = some (y, frame)) :
    ∃ b less, Heard x.address a frame b ∧ less < rank ∧
      Exchange served number flow now y b less ∧ x.Elsewhere flow y ∧ a.Spares number flow b := by
  have tornDown := Event.flow_teardown accessPointAddress small
  cases exchange with
  | talks talking => exact talking.station_next member small next
  | @installs own answer stage carrying empty sameFlow slot access busy =>
      subst sameFlow
      obtain ⟨rfl, ⟨less, smaller, carries⟩, elsewhere⟩ :=
        carrying.next empty small (fun agreement same => Option.some.inj same ▸ rfl) next
      exact ⟨a, less, .silence, smaller, .installs carries empty rfl slot access busy, elsewhere,
        .refl _ _ a⟩
  | removes carrying empty apart access faces busy =>
      obtain ⟨rfl, ⟨less, smaller, carries⟩, elsewhere⟩ :=
        carrying.next empty (tornDown.symm ▸ small) (fun _ same => by cases same) next
      exact ⟨a, less + 1, .silence, by omega, .removes carries empty apart access faces busy,
        tornDown ▸ elsewhere, .refl _ _ a⟩
  | removed carrying empty apart access free =>
      obtain ⟨rfl, ⟨less, smaller, carries⟩, elsewhere⟩ :=
        carrying.next empty (tornDown.symm ▸ small) (fun _ same => by cases same) next
      exact ⟨a, less, .silence, smaller, .removed carries empty apart access free,
        tornDown ▸ elsewhere, .refl _ _ a⟩

/-- An access point that takes a step gets closer to the rest of both. -/
theorem Exchange.access_next (exchange : Exchange served number flow now x a rank)
    (member : stationAddress number ∈ served) (small : flow.toNat < 8)
    (next : a.next? due = some (b, frame)) :
    ∃ y less, Heard a.address x frame y ∧ less < rank ∧
      Exchange served number flow now y b less ∧ x.Elsewhere flow y ∧ a.Spares number flow b ∧
      (frame = none ∨ rank = 10) := by
  cases exchange with
  | talks talking => exact talking.access_next member small next
  | installs _ _ _ _ access | removed _ _ _ access =>
      rw [Sketch.next?, access.still] at next
      cases next
  | @removes own stage slot carrying empty apart access faces busy =>
      obtain ⟨m, taken, serving, link, others, free⟩ :=
        access.serving.tearDown rfl (busy?_key_teardown small busy)
      rw [Event.key_teardown _ small] at others free
      rw [Sketch.next?, faces] at next
      dsimp only at next
      rw [taken] at next
      obtain ⟨rfl, rfl⟩ : _ = b ∧ none = frame := by simpa using next
      exact ⟨x, stage, .silence, by omega, .removed carrying empty apart
        ⟨⟨access.address, serving⟩, rfl⟩ free, .refl _ x, ⟨link, others⟩, .inl rfl⟩

/-- Either side can take its steps while they talk. -/
theorem Talking.able (talking : Talking served number flow x a rank)
    (member : stationAddress number ∈ served)
    (known : x.negotiation.link = joined → a.negotiation.link.knows (stationAddress number) = true) :
    x.Able ∧ a.Able := by
  unfold Sketch.Able
  cases talking with
  | rests station access =>
      rw [station.still, access.still]
      exact ⟨trivial, trivial⟩
  | asks station faces _ _ _ access =>
      rw [faces, access.still, station.station.negotiation]
      exact ⟨knows_joined, trivial⟩
  | asked station still legible requests sameFlow access faces free =>
      subst sameFlow
      obtain ⟨answer, m, taken, -⟩ := access.serving.answer member legible requests free
      have tasks : (a.negotiation.handleEvents none).tasks = _ := congrArg (·.1) taken
      rw [still, faces]
      dsimp only
      rw [tasks]
      exact ⟨trivial, Nat.le_refl 1⟩
  | answers station still _ _ _ faces =>
      rw [still, faces]
      exact ⟨trivial, known (by rw [station.station.negotiation]; rfl)⟩
  | answered station faces sameFlow access granted =>
      have considers := station.considers
      rw [← sameFlow] at considers
      rw [faces, access.still, station.station.negotiation]
      refine ⟨?_, trivial⟩
      rcases granted with ⟨accepts, -⟩ | ⟨rejects, -⟩
      · dsimp only
        rw [Negotiation.handleEvents_of_accept accepts considers rfl]
        exact Nat.le_refl 1
      · dsimp only
        rw [Negotiation.handleEvents_of_reject rejects considers]
        exact Nat.zero_le 1
  | leaves station faces _ _ _ access =>
      rw [faces, access.still, station.negotiation]
      exact ⟨⟨knows_joined, Nat.le_refl 1⟩, trivial⟩

/-- Either side can take its steps. -/
theorem Exchange.able (exchange : Exchange served number flow now x a rank)
    (member : stationAddress number ∈ served) (small : flow.toNat < 8)
    (known : x.negotiation.link = joined → a.negotiation.link.knows (stationAddress number) = true) :
    x.Able ∧ a.Able := by
  have rests (still : a.activity = .resting) : a.Able := by
    rw [Sketch.Able, still]
    trivial
  cases exchange with
  | talks talking => exact talking.able member known
  | installs carrying empty _ _ access => exact ⟨carrying.able empty, rests access.still⟩
  | removed carrying empty _ access => exact ⟨carrying.able empty, rests access.still⟩
  | removes carrying empty apart access faces busy =>
      obtain ⟨m, taken, -⟩ := access.serving.tearDown rfl (busy?_key_teardown small busy)
      have tasks : (a.negotiation.handleEvents none).tasks = [] := congrArg (·.1) taken
      refine ⟨carrying.able empty, ?_⟩
      rw [Sketch.Able, faces]
      dsimp only
      rw [tasks]
      exact Nat.zero_le 1

/-! ### Time -/

/-- What time brings is for the station. -/
theorem Exchange.untimed_access (exchange : Exchange served number flow now x a rank) :
    a.timer? = none := by
  unfold Sketch.timer?
  cases exchange with
  | talks talking =>
      cases talking with
      | rests _ access | asks _ _ _ _ _ access | answered _ _ _ access | leaves _ _ _ _ _ access =>
          rw [access.still]
      | asked _ _ _ _ _ _ faces | answers _ _ _ _ _ faces => rw [faces]
  | installs _ _ _ _ access | removed _ _ _ access => rw [access.still]
  | removes _ _ _ _ faces => rw [faces]

theorem Talking.untimed_station (talking : Talking served number flow x a rank) :
    x.timer? = none := by
  unfold Sketch.timer?
  cases talking with
  | rests station => rw [station.still]
  | asks _ faces | answered _ faces | leaves _ faces => rw [faces]
  | asked _ still | answers _ still => rw [still]

/-- What is due by now comes in. -/
theorem Exchange.delivered (exchange : Exchange served number flow now x a rank)
    (small : flow.toNat < 8) :
    ∃ less, less ≤ rank ∧ Exchange served number flow now (x.delivered now) a less ∧
      x.Elsewhere flow (x.delivered now) ∧
      ∀ due, x.timer? = some due → due ≤ now → less < rank := by
  have tornDown := Event.flow_teardown accessPointAddress small
  cases exchange with
  | talks talking =>
      have untimed := talking.untimed_station
      rw [Sketch.delivered_of_untimed untimed]
      refine ⟨rank, Nat.le_refl rank, .talks talking, .refl _ x, fun due waits => ?_⟩
      rw [untimed] at waits
      cases waits
  | installs carrying empty sameFlow slot access busy =>
      subst sameFlow
      obtain ⟨less, below, carries, elsewhere, strict⟩ := carrying.delivered
      exact ⟨less, below, .installs carries empty rfl slot access busy, elsewhere, strict⟩
  | removes carrying empty apart access faces busy =>
      obtain ⟨less, below, carries, elsewhere, strict⟩ := carrying.delivered
      exact ⟨less + 1, by omega, .removes carries empty apart access faces busy, tornDown ▸ elsewhere,
        fun due waits arrived => Nat.succ_lt_succ (strict due waits arrived)⟩
  | removed carrying empty apart access free =>
      obtain ⟨less, below, carries, elsewhere, strict⟩ := carrying.delivered
      exact ⟨less, below, .removed carries empty apart access free, tornDown ▸ elsewhere, strict⟩

/-- The clock goes on. -/
theorem Exchange.later {time : Nat} (exchange : Exchange served number flow now x a rank)
    (onward : now ≤ time) :
    ∃ less, less ≤ rank ∧ Exchange served number flow time x a less ∧
      (x.timer? = some time → now < time → less < rank) := by
  cases exchange with
  | talks talking =>
      refine ⟨rank, Nat.le_refl rank, .talks talking, fun waits => ?_⟩
      rw [talking.untimed_station] at waits
      cases waits
  | installs carrying empty sameFlow slot access busy =>
      obtain ⟨less, below, carries, strict⟩ := carrying.later onward
      exact ⟨less, below, .installs carries empty sameFlow slot access busy, strict⟩
  | removes carrying empty apart access faces busy =>
      obtain ⟨less, below, carries, strict⟩ := carrying.later onward
      exact ⟨less + 1, by omega, .removes carries empty apart access faces busy,
        fun waits passed => Nat.succ_lt_succ (strict waits passed)⟩
  | removed carrying empty apart access free =>
      obtain ⟨less, below, carries, strict⟩ := carrying.later onward
      exact ⟨less, below, .removed carries empty apart access free, strict⟩

/-! ### The end -/

/-- At the end both rest, and the flow and its slot are paired. -/
theorem Exchange.settled (exchange : Exchange served number flow now x a 0) (small : flow.toNat < 8) :
    x.Rests number ∧ a.Waits served ∧ x.Paired flow (a.busy? number flow) := by
  generalize zero : 0 = last at exchange
  cases exchange with
  | talks talking =>
      cases talking with
      | rests station access paired => exact ⟨station, access, paired⟩
      | asks | asked | answers | answered | leaves => cases zero
  | @installs own answer stage carrying empty sameFlow slot access busy =>
      subst sameFlow
      cases carrying with
      | queued | begun | asking | early | ripe | answered => cases zero
      | ended station rests done =>
          refine ⟨⟨⟨_, _, station, empty, .inr rfl⟩, rests⟩, access, ?_⟩
          have held := station.negotiation
          rw [busy]
          refine .agreed ?_ ?_ (done answer rfl) (by rw [held]; rfl)
          · rw [held]
            exact slot
          · rw [held]
            show (own.setInstalled answer.flow true).isInstalled answer.flow = true
            rw [Requester.isInstalled_setInstalled small small, if_pos rfl]
  | removes => cases zero
  | @removed own stage carrying empty apart access free =>
      cases carrying with
      | queued | begun | asking | early | ripe | answered => cases zero
      | ended station rests =>
          refine ⟨⟨⟨_, _, station, empty, .inr rfl⟩, rests⟩, access, ?_⟩
          have held := station.negotiation
          rw [free]
          refine .free ?_ ?_
          · rw [held]
            exact apart
          · rw [held]
            show (own.setInstalled (Event.teardown accessPointAddress flow).flow false).isInstalled flow = false
            rw [Event.flow_teardown accessPointAddress small,
              Requester.isInstalled_setInstalled small small, if_pos rfl]

/-- If neither side can take a step, at most a confirm from the chip is still to come. -/
theorem Exchange.rank_of_still (exchange : Exchange served number flow now x a rank)
    (station : x.activity = .resting ∨ ∃ event due status, x.activity = .awaiting event due status)
    (access : a.activity = .resting) : rank ≤ 3 ∧ (x.activity = .resting → rank = 0) := by
  have carried {own : Requester} {event : Event} {stage : Nat}
      (carrying : x.Carrying number own event now stage) :
      stage ≤ 3 ∧ (x.activity = .resting → stage = 0) := by
    cases carrying <;> simp_all
  cases exchange with
  | talks talking => cases talking <;> simp_all
  | installs carrying | removed carrying => exact carried carrying
  | removes _ _ _ _ faces =>
      rw [access] at faces
      cases faces

end TargetWakeTime.Simulation
