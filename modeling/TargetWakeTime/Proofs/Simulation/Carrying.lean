import TargetWakeTime.Proofs.Negotiation.Asking
import TargetWakeTime.Proofs.Simulation.Sketch
import TargetWakeTime.Simulation.Network

/-!
Contract: how a station carries out one event on its chip.

Owns:
- sketches of stations, and what one flow of a station has in common with its access point;
- the way of an event from the queue of the station to the chip and back, stage by stage, and what the
  station knows at the end;
- that all of this leaves the other flows of the station alone.

Each stage has a number, and each step leads to a stage with a smaller one.
-/

namespace TargetWakeTime.Simulation

open Host (Chip)
open Network (accessPointAddress stationAddress)

/-- The link of a station that has joined the access point. -/
def joined : Association := Association.associate accessPointAddress {}

theorem knows_joined : joined.knows accessPointAddress = true := by decide

namespace Sketch

/-- A station with these own flows, this link and these events queued. -/
structure Station (number : Nat) (own : Requester) (link : Association) (queued : List Event)
    (x : Sketch) : Prop where
  vif : x.vif = 1
  address : x.address = stationAddress number
  negotiation : x.negotiation = .asking own link queued

/-- All flows of a station but one are as they were. -/
structure Elsewhere (flow : UInt8) (x y : Sketch) : Prop where
  own : x.negotiation.own.Elsewhere flow y.negotiation.own
  link : y.negotiation.link = x.negotiation.link
  runs : ∀ other, other ≠ flow → y.installed.get? (1, other) = x.installed.get? (1, other)

/-- A flow of a station and the slot that the access point has for it, if this slot is busy: both have
no agreement, or both have the same one, and the chip runs it. -/
inductive Paired (flow : UInt8) (x : Sketch) : Option Slot → Prop where
  | free (apart : x.negotiation.own.state flow ≠ .agreement)
      (inactive : x.negotiation.own.isInstalled flow = false) : Paired flow x none
  | agreed {agreement : Agreement}
      (slot : x.negotiation.own.slots.get? flow = some ⟨.agreement, some agreement⟩)
      (active : x.negotiation.own.isInstalled flow = true)
      (runs : x.installed.get? (1, flow) = some agreement.chipBlob)
      (linked : x.negotiation.link = joined) :
      Paired flow x (some ⟨.agreement, some agreement⟩)

variable {x y z : Sketch} {flow other : UInt8} {own : Requester} {link : Association}
  {queued : List Event} {number now due : Nat} {event : Event}

theorem Elsewhere.refl (flow : UInt8) (x : Sketch) : Elsewhere flow x x :=
  ⟨.refl flow _, rfl, fun _ _ => rfl⟩

/-- A station that does something else. -/
theorem Station.turn (station : x.Station number own link queued) (activity : Activity) :
    ({ x with activity } : Sketch).Station number own link queued :=
  ⟨station.vif, station.address, station.negotiation⟩

/-- A station that does something else, in another state of negotiation. -/
theorem Station.become {n : Negotiation} {after : Requester} {relinked : Association} {left : List Event}
    (station : x.Station number own link queued) (held : n = .asking after relinked left)
    (activity : Activity) :
    ({ x with negotiation := n, activity } : Sketch).Station number after relinked left :=
  ⟨station.vif, station.address, held⟩

/-- Only the flows, the link and the chip's table matter. -/
theorem Station.elsewhere {after : Requester} {left : List Event} (station : x.Station number own link queued)
    (stays : y.Station number after link left) (same : own.Elsewhere flow after)
    (installed : y.installed = x.installed) : Elsewhere flow x y where
  own := by
    rw [station.negotiation, stays.negotiation]
    exact same
  link := by
    rw [station.negotiation, stays.negotiation]
    rfl
  runs _ _ := by rw [installed]

/-- A flow that the chip does not run, or whose station is not linked, is free on both sides. -/
theorem Paired.unbusy {busy : Option Slot} (paired : x.Paired flow busy)
    (apart : x.negotiation.own.isInstalled flow = false ∨ x.negotiation.link ≠ joined) :
    busy = none ∧ x.negotiation.own.state flow ≠ .agreement ∧
      x.negotiation.own.isInstalled flow = false := by
  cases paired with
  | free unagreed inactive => exact ⟨rfl, unagreed, inactive⟩
  | agreed _ active _ linked =>
      rcases apart with inactive | parted
      · exact absurd (inactive.symm.trans active) Bool.false_ne_true
      · exact absurd linked parted

/-- A flow that the chip runs is busy on both sides. -/
theorem Paired.busy {busy : Option Slot} (paired : x.Paired flow busy)
    (active : x.negotiation.own.isInstalled flow = true) :
    (∃ slot, busy = some slot) ∧ (x.installed.get? (1, flow)).isSome = true ∧
      x.negotiation.link = joined := by
  cases paired with
  | free _ inactive => exact absurd (inactive.symm.trans active) Bool.false_ne_true
  | agreed _ _ runs linked => exact ⟨⟨_, rfl⟩, by rw [runs]; rfl, linked⟩

/-- What is done about one flow leaves the others paired. -/
theorem Paired.elsewhere {busy : Option Slot} (paired : x.Paired other busy)
    (elsewhere : Elsewhere flow x y) (small : other.toNat < 8) (apart : other ≠ flow) :
    y.Paired other busy := by
  obtain ⟨slot, installed⟩ := elsewhere.own other small apart
  cases paired with
  | free unagreed inactive =>
      refine .free ?_ (installed.trans inactive)
      rwa [Requester.state, Slots.state, slot]
  | agreed found active runs linked =>
      exact .agreed (slot.trans found) (installed.trans active)
        ((elsewhere.runs other apart).trans runs) (elsewhere.link.trans linked)

/-- What the chip runs for the flow of an event after it was carried out. -/
def Done (event : Event) (installed : Chip.Table) : Prop :=
  ∀ agreement, event.agreement? = some agreement →
    installed.get? (1, agreement.flow) = some agreement.chipBlob

/-- What a station knows of its chip after an event was carried out. -/
def noted (event : Event) (own : Requester) : Requester :=
  own.setInstalled event.flow event.agreement?.isSome

/-- How far a station is with an event that its chip can carry out. -/
inductive Carrying (number : Nat) (own : Requester) (event : Event) (now : Nat) (x : Sketch) :
    Nat → Prop where
  | queued (station : x.Station number (own.pushCommand event) joined [])
      (faces : x.activity = .facing .applyCommands)
      (feasible : (Chip.execute x.installed (Interface.commandFor 1 event)).1 = 0) :
      Carrying number own event now x 7
  | begun (station : x.Station number own joined []) (begins : x.activity = .begun event)
      (feasible : (Chip.execute x.installed (Interface.commandFor 1 event)).1 = 0) :
      Carrying number own event now x 6
  | asking (station : x.Station number own joined []) (asks : x.activity = .asking event)
      (feasible : (Chip.execute x.installed (Interface.commandFor 1 event)).1 = 0) :
      Carrying number own event now x 5
  | early {due : Nat} (station : x.Station number own joined [])
      (awaits : x.activity = .awaiting event due 0) (done : Done event x.installed)
      (early : now < due) : Carrying number own event now x 3
  | ripe {due : Nat} (station : x.Station number own joined [])
      (awaits : x.activity = .awaiting event due 0) (done : Done event x.installed)
      (ripe : due ≤ now) : Carrying number own event now x 2
  | answered (station : x.Station number own joined []) (answers : x.activity = .answered event 0)
      (done : Done event x.installed) : Carrying number own event now x 1
  | ended (station : x.Station number (noted event own) joined []) (rests : x.activity = .resting)
      (done : Done event x.installed) : Carrying number own event now x 0

/-- What the chip executes is done, and leaves the other flows alone. -/
theorem done_execute (installed : Chip.Table) (event : Event) :
    Done event (Chip.execute installed (Interface.commandFor 1 event)).2 := by
  intro agreement carries
  rw [Interface.commandFor, carries]
  show (installed.insert (1, agreement.flow) agreement.chipBlob).get? _ = _
  rw [Chip.Table.get?_insert, if_pos rfl]

theorem get?_execute (installed : Chip.Table)
    (sameFlow : ∀ agreement, event.agreement? = some agreement → agreement.flow = event.flow)
    (apart : other ≠ event.flow) :
    (Chip.execute installed (Interface.commandFor 1 event)).2.get? (1, other) =
      installed.get? (1, other) := by
  have elsewhere : ((1, other) : Chip.SlotId) ≠ (1, event.flow) := by simpa using apart
  unfold Interface.commandFor
  split
  case h_1 agreement carries =>
    show (installed.insert (1, agreement.flow) agreement.chipBlob).get? _ = _
    rw [sameFlow agreement carries, Chip.Table.get?_insert, if_neg elsewhere]
  case h_2 =>
    rw [Chip.execute]
    split
    · exact Chip.Table.get?_erase_of_ne elsewhere installed
    · rfl

/-- A station that takes a step with an event comes closer to having carried it out. -/
theorem Carrying.next {stage : Nat} {frame : Option ActionFrame}
    (carrying : x.Carrying number own event now stage) (empty : own.commands = {})
    (small : event.flow.toNat < 8)
    (sameFlow : ∀ agreement, event.agreement? = some agreement → agreement.flow = event.flow)
    (next : x.next? due = some (y, frame)) :
    frame = none ∧ (∃ less, less < stage ∧ y.Carrying number own event now less) ∧
      Elsewhere event.flow x y := by
  cases carrying with
  | queued station faces feasible =>
      rw [Sketch.next?, faces] at next
      obtain ⟨rfl, rfl⟩ : _ = y ∧ none = frame := by simpa using next
      have taken : x.negotiation.takeCommands = ([event], .asking own joined []) := by
        rw [station.negotiation]
        exact Negotiation.takeCommands_asking empty event
      have stays := station.become (congrArg (·.2) taken) (.ofEvents x.negotiation.takeCommands.1)
      exact ⟨rfl, ⟨6, by omega, .begun stays (congrArg (fun result => Activity.ofEvents result.1) taken)
        feasible⟩, station.elsewhere stays (.refl _ own) rfl⟩
  | begun station begins feasible =>
      rw [Sketch.next?, begins] at next
      obtain ⟨rfl, rfl⟩ : _ = y ∧ none = frame := by simpa using next
      have stays := station.turn (.asking event)
      exact ⟨rfl, ⟨5, by omega, .asking stays rfl feasible⟩,
        station.elsewhere stays (.refl _ _) rfl⟩
  | asking station asks feasible =>
      obtain ⟨vif, address, negotiation, activity, installed⟩ := x
      obtain ⟨rfl, located, held⟩ := station
      obtain rfl : activity = .asking event := asks
      obtain ⟨rfl, rfl⟩ : _ = y ∧ none = frame := by simpa [Sketch.next?] using next
      refine ⟨rfl, ?_, ⟨.refl _ _, rfl, fun other apart => get?_execute _ sameFlow apart⟩⟩
      have done := done_execute installed event
      have confirms : Activity.awaiting event due (Chip.execute installed (Interface.commandFor 1 event)).1 =
          .awaiting event due 0 := congrArg (Activity.awaiting event due) feasible
      rcases Nat.lt_or_ge now due with early | ripe
      · exact ⟨3, by omega, .early ⟨rfl, located, held⟩ confirms done early⟩
      · exact ⟨2, by omega, .ripe ⟨rfl, located, held⟩ confirms done ripe⟩
  | early station awaits | ripe station awaits =>
      rw [Sketch.next?, awaits] at next
      cases next
  | answered station answers done =>
      rw [Sketch.next?, answers] at next
      obtain ⟨rfl, rfl⟩ : _ = y ∧ none = frame := by simpa using next
      have commits : Interface.commit event x.negotiation = .asking (noted event own) joined [] := by
        rw [station.negotiation, Interface.commit, noted, Event.agreement?]
        cases event.body <;> rfl
      have stays := station.become commits .resting
      exact ⟨rfl, ⟨0, by omega, .ended stays rfl done⟩,
        station.elsewhere stays (Requester.elsewhere_setInstalled small _ own) rfl⟩
  | ended station rests =>
      rw [Sketch.next?, rests] at next
      cases next

/-- A station can take every step. -/
theorem Carrying.able {stage : Nat} (carrying : x.Carrying number own event now stage)
    (empty : own.commands = {}) : x.Able := by
  unfold Able
  cases carrying with
  | queued station faces =>
      rw [faces, station.negotiation]
      show (own.commands.toList ++ [event]).length ≤ 1
      rw [empty]
      exact Nat.le_refl 1
  | begun _ activity | asking _ activity | early _ activity | ripe _ activity
      | answered _ activity | ended _ activity =>
      rw [activity]
      trivial

/-- Without a timer, a delivery changes nothing. -/
theorem delivered_of_untimed (untimed : x.timer? = none) : x.delivered now = x := by
  unfold timer? at untimed
  unfold delivered
  cases activity : x.activity with
  | awaiting =>
      rw [activity] at untimed
      cases untimed
  | resting | facing | begun | asking | answered => rfl

/-- Once the confirm has come, the station no longer waits for it. -/
theorem Carrying.delivered {stage : Nat} (carrying : x.Carrying number own event now stage) :
    ∃ less, less ≤ stage ∧ (x.delivered now).Carrying number own event now less ∧
      Elsewhere event.flow x (x.delivered now) ∧
      ∀ due, x.timer? = some due → due ≤ now → less < stage := by
  have still (rests : x.timer? = none) :
      ∃ less, less ≤ stage ∧ (x.delivered now).Carrying number own event now less ∧
        Elsewhere event.flow x (x.delivered now) ∧
        ∀ due, x.timer? = some due → due ≤ now → less < stage := by
    have stays : x.delivered now = x := delivered_of_untimed rests
    refine ⟨stage, Nat.le_refl stage, stays.symm ▸ carrying, stays.symm ▸ .refl _ x, ?_⟩
    intro due waits
    rw [rests] at waits
    cases waits
  cases carrying with
  | queued _ activity | begun _ activity | asking _ activity | answered _ activity
      | ended _ activity =>
      exact still (by rw [timer?, activity])
  | @early arrival station awaits done early =>
      have stays : x.delivered now = x := by
        rw [Sketch.delivered, awaits]
        exact if_neg (Nat.not_le_of_lt early)
      rw [stays]
      refine ⟨3, Nat.le_refl 3, .early station awaits done early, .refl _ x, ?_⟩
      intro due waits arrived
      rw [timer?, awaits] at waits
      obtain rfl := Option.some.inj waits
      omega
  | @ripe arrival station awaits done ripe =>
      have comes : x.delivered now = { x with activity := .answered event 0 } := by
        rw [Sketch.delivered, awaits]
        exact if_pos ripe
      rw [comes]
      have stays := station.turn (.answered event 0)
      exact ⟨1, by omega, .answered stays rfl done, station.elsewhere stays (.refl _ _) rfl,
        fun _ _ _ => by omega⟩

/-- The clock goes on, and brings the station further if it reaches the confirm. -/
theorem Carrying.later {stage time : Nat} (carrying : x.Carrying number own event now stage)
    (onward : now ≤ time) :
    ∃ less, less ≤ stage ∧ x.Carrying number own event time less ∧
      (x.timer? = some time → now < time → less < stage) := by
  have untimed (rests : x.timer? = none) (less : Nat) :
      x.timer? = some time → now < time → less < stage := fun waits => by
    rw [rests] at waits
    cases waits
  cases carrying with
  | queued station activity feasible =>
      exact ⟨7, Nat.le_refl 7, .queued station activity feasible, untimed (by rw [timer?, activity]) 7⟩
  | begun station activity feasible =>
      exact ⟨6, Nat.le_refl 6, .begun station activity feasible, untimed (by rw [timer?, activity]) 6⟩
  | asking station activity feasible =>
      exact ⟨5, Nat.le_refl 5, .asking station activity feasible, untimed (by rw [timer?, activity]) 5⟩
  | answered station activity done =>
      exact ⟨1, Nat.le_refl 1, .answered station activity done, untimed (by rw [timer?, activity]) 1⟩
  | ended station activity done =>
      exact ⟨0, Nat.le_refl 0, .ended station activity done, untimed (by rw [timer?, activity]) 0⟩
  | @early arrival station awaits done early =>
      rcases Nat.lt_or_ge time arrival with still | arrived
      · refine ⟨3, Nat.le_refl 3, .early station awaits done still, fun waits _ => ?_⟩
        rw [timer?, awaits] at waits
        obtain rfl := Option.some.inj waits
        omega
      · exact ⟨2, by omega, .ripe station awaits done arrived, fun _ _ => by omega⟩
  | @ripe arrival station awaits done ripe =>
      refine ⟨2, Nat.le_refl 2, .ripe station awaits done (Nat.le_trans ripe onward), ?_⟩
      intro waits passed
      rw [timer?, awaits] at waits
      obtain rfl := Option.some.inj waits
      omega

end Sketch

end TargetWakeTime.Simulation
