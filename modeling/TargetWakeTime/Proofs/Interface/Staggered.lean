import Mathlib.Logic.Relation
import TargetWakeTime.Proofs.Host.Joining
import TargetWakeTime.Proofs.Interface.Rivals

/-!
Contract: answers that are acted on some time after the channel was left.

Owns:
- runs in which a send leaves the channel in one move, and whoever it belongs to acts on its answer in
  a later one, with anything in between;
- that such a run goes through no state of the interface, and once all answers have been acted on ends
  in no state of the whole, that a run of turns would not reach.

Answers are acted on in the order in which they came. What happens on the bus meanwhile does not depend
on the interface, and can as well happen afterwards. What happens at the interface can as well happen
before, since a command that joins the queue makes no difference to those ahead of it.
-/

namespace TargetWakeTime.Assembly

open Relation (ReflTransGen)

/-- The end of a send that nobody has acted on yet, with the exchange that it left the channel with. -/
structure Answer where
  exchange : Option (Host.Channel.Exchange Sender)
  completion : Host.Bus.Completion Sender

/-- A whole, and the answers that wait to be acted on, the oldest one first. -/
structure Staggered where
  whole : Assembly
  answers : List Answer := []

/-- What can happen next if answers may wait. -/
inductive Half where
  /-- A turn, except that the answer of a send which ends has to wait. -/
  | turn (turn : Turn)
  /-- The oldest answer is acted on. -/
  | act

namespace Staggered

/-- A step of the channel, whose answers have to wait. -/
def release (s : Staggered) : Staggered :=
  match s.whole.bus.step? s.whole.now with
  | none => s
  | some (bus, completions) =>
      { whole := { s.whole with bus }
        answers := s.answers ++
          completions.map fun completion => ⟨s.whole.bus.channel.exchange, completion⟩ }

def apply (s : Staggered) : Half → Staggered
  | .turn (.move .step) => s.release
  | .turn other => { s with whole := other.apply s.whole }
  | .act =>
      match s.answers with
      | [] => s
      | answer :: rest =>
          { whole := s.whole.settle answer.exchange answer.completion, answers := rest }

theorem apply_turn {s : Staggered} {turn : Turn} (noStep : turn ≠ .move .step) :
    s.apply (.turn turn) = { s with whole := turn.apply s.whole } := by
  unfold apply
  split
  case h_1 same => exact absurd (Half.turn.inj same) noStep
  case h_2 same => rw [Half.turn.inj same]
  case h_3 same => cases same

end Staggered

/-! ### What happens at the interface -/

/-- The bus once a command has joined the queue, if there is one. -/
def joinedBy (asks : Option (Sender × Host.Command)) (bus : Host.Bus Sender Host.Chip) :
    Host.Bus Sender Host.Chip :=
  match asks with
  | none => bus
  | some (sender, command) => bus.enqueue sender command none

/-- The same interface at another time and on another bus. -/
def on (now : Nat) (bus : Host.Bus Sender Host.Chip) (a : Assembly) : Assembly :=
  { a with now, bus }

/-- Something that looks neither at the bus nor at the clock, and at most gives the channel a
command. -/
def IsLocal (act : Assembly → Assembly) : Prop :=
  ∀ a, ∃ asks, ∀ now bus, act (a.on now bus) = (act a).on now (joinedBy asks bus)

variable {a m : Assembly} {s t : Staggered} {allowed : Turn → Prop}

theorem isLocal_settle (answer : Answer) :
    IsLocal (·.settle answer.exchange answer.completion) := by
  refine fun a => ⟨none, fun now bus => ?_⟩
  simp only [settle, on]
  cases answer.exchange with
  | none => rfl
  | some e => cases answer.completion.outcome <;> rfl

/-- Whether a turn is one of the bus or of what it is connected to. -/
def Turn.isOnBus : Turn → Bool
  | chip _ | attach | detach => true
  | move given =>
      match given with
      | .step | .deliver | .wait _ => true
      | .act .. | .configure _ | .teardown _ | .work => false

theorem isLocal_turn {turn : Turn} (inside : turn.isOnBus = false) : IsLocal turn.apply := by
  intro a
  cases turn with
  | chip | attach | detach => cases inside
  | move given =>
      cases given with
      | step | deliver | wait => cases inside
      | act => exact ⟨none, fun now bus => rfl⟩
      | configure request =>
          simp only [Turn.apply, Move.apply, on]
          cases a.interface.configure request with
          | error error => exact ⟨none, fun now bus => rfl⟩
          | ok passed => exact ⟨some (.call passed.1, passed.2), fun now bus => rfl⟩
      | teardown flow =>
          simp only [Turn.apply, Move.apply, on]
          obtain ⟨begun, after⟩ := a.interface.teardown flow
          rcases begun with error | _ | ⟨call, command⟩
          · exact ⟨none, fun now bus => rfl⟩
          · exact ⟨none, fun now bus => rfl⟩
          · exact ⟨some (.call call, command), fun now bus => rfl⟩
      | work =>
          simp only [Turn.apply, Move.apply, on]
          rcases a.interface.work with _ | ⟨after, _ | asked⟩
          · exact ⟨none, fun now bus => rfl⟩
          · exact ⟨none, fun now bus => rfl⟩
          · cases asked with
            | transmit | alarm => exact ⟨none, fun now bus => rfl⟩
            | command command => exact ⟨some (.worker, command), fun now bus => rfl⟩

/-! ### What happens on the bus -/

/-- A turn changes the clock and the bus, and does so in the same way if a command has joined the
queue before. -/
theorem exists_onBus {turn : Turn} (outside : turn.isOnBus = true) (noStep : turn ≠ .move .step) :
    ∃ onBus : Nat → Host.Bus Sender Host.Chip → Nat × Host.Bus Sender Host.Chip,
      (∀ a, turn.apply a = a.on (onBus a.now a.bus).1 (onBus a.now a.bus).2) ∧
      ∀ asks now bus,
        onBus now (joinedBy asks bus) = ((onBus now bus).1, joinedBy asks (onBus now bus).2) := by
  cases turn with
  | chip change =>
      refine ⟨fun now bus => (now, { bus with link := change bus.link }), fun a => rfl, ?_⟩
      rintro (_ | asked) now bus <;> rfl
  | attach =>
      refine ⟨fun now bus => (now, bus.attach), fun a => rfl, ?_⟩
      rintro (_ | asked) now bus <;> rfl
  | detach =>
      refine ⟨fun now bus => (now, bus.detach), fun a => rfl, ?_⟩
      rintro (_ | ⟨sender, command⟩) now bus
      · rfl
      · exact congrArg (now, ·) (Host.Bus.detach_enqueue sender command none bus)
  | move given =>
      cases given with
      | step => exact absurd rfl noStep
      | act | configure | teardown | work => cases outside
      | deliver =>
          refine ⟨fun now bus => (now, bus.deliver now), fun a => rfl, ?_⟩
          rintro (_ | ⟨sender, command⟩) now bus
          · rfl
          · exact congrArg (now, ·) (Host.Bus.deliver_enqueue sender command none now bus)
      | wait time =>
          refine ⟨fun now bus =>
            (if (Host.Link.nextArrival? bus.link).all (time ≤ ·) then max now time else now, bus),
            fun a => ?_, ?_⟩
          · simp only [Turn.apply, Move.apply]
            split <;> rfl
          · rintro (_ | asked) now bus <;> rfl

/-- Something happens on the bus, of what is allowed. -/
inductive OnBus (allowed : Turn → Prop) : Staggered → Staggered → Prop where
  | stepped {s : Staggered} {bus : Host.Bus Sender Host.Chip}
      {completions : List (Host.Bus.Completion Sender)} (possible : allowed (.move .step))
      (found : s.whole.bus.step? s.whole.now = some (bus, completions)) :
      OnBus allowed s
        { whole := { s.whole with bus }
          answers := s.answers ++
            completions.map fun completion => ⟨s.whole.bus.channel.exchange, completion⟩ }
  | turned {s : Staggered} {turn : Turn} (possible : allowed turn) (outside : turn.isOnBus = true)
      (noStep : turn ≠ .move .step) :
      OnBus allowed s { s with whole := turn.apply s.whole }

/-- What happens on the bus leaves further answers, and does not depend on those that wait. -/
theorem OnBus.leaves (happens : OnBus allowed s t) :
    ∃ more, t.answers = s.answers ++ more ∧
      ∀ answers, OnBus allowed ⟨s.whole, answers⟩ ⟨t.whole, answers ++ more⟩ := by
  cases happens with
  | stepped possible found =>
      exact ⟨_, rfl, fun answers => .stepped (s := ⟨s.whole, answers⟩) possible found⟩
  | turned possible outside noStep =>
      refine ⟨[], (List.append_nil _).symm, fun answers => ?_⟩
      rw [List.append_nil]
      exact .turned (s := ⟨s.whole, answers⟩) possible outside noStep

/-- It changes nothing at the interface. -/
theorem OnBus.interface (happens : OnBus allowed s t) :
    t.whole.interface = s.whole.interface ∧ t.whole.forgotten = s.whole.forgotten := by
  cases happens with
  | stepped => exact ⟨rfl, rfl⟩
  | turned possible outside noStep =>
      obtain ⟨onBus, applied, -⟩ := exists_onBus outside noStep
      dsimp only
      rw [applied]
      exact ⟨rfl, rfl⟩

/-- It can as well happen after something at the interface. -/
theorem OnBus.after {act : Assembly → Assembly} (inside : IsLocal act)
    (happens : OnBus allowed s t) :
    OnBus allowed ⟨act s.whole, s.answers⟩ ⟨act t.whole, t.answers⟩ := by
  obtain ⟨asks, acted⟩ := inside s.whole
  have here : act s.whole = (act s.whole).on s.whole.now (joinedBy asks s.whole.bus) :=
    acted s.whole.now s.whole.bus
  have now : (act s.whole).now = s.whole.now := by
    rw [here]
    rfl
  have joined : (act s.whole).bus = joinedBy asks s.whole.bus := by
    rw [here]
    rfl
  cases happens with
  | @stepped bus completions possible found =>
      have exchange : (act s.whole).bus.channel.exchange = s.whole.bus.channel.exchange := by
        rw [joined]
        cases asks <;> rfl
      have foundToo : (act s.whole).bus.step? (act s.whole).now =
          some (joinedBy asks bus, completions) := by
        rw [joined, now]
        cases asks with
        | none => exact found
        | some asked => exact Host.Bus.step_enqueue asked.1 asked.2 none found
      have same : act (s.whole.on s.whole.now bus) =
          (act s.whole).on (act s.whole).now (joinedBy asks bus) := by
        rw [acted, now]
      have steps := OnBus.stepped (s := ⟨act s.whole, s.answers⟩) possible foundToo
      dsimp only at steps
      rw [exchange] at steps
      show OnBus allowed _ ⟨act (s.whole.on s.whole.now bus), _⟩
      rw [same]
      exact steps
  | @turned turn possible outside noStep =>
      obtain ⟨onBus, applied, beside⟩ := exists_onBus outside noStep
      have same : act (turn.apply s.whole) = turn.apply (act s.whole) := by
        rw [applied, acted, applied, now, joined, beside]
      show OnBus allowed _ ⟨act (turn.apply s.whole), s.answers⟩
      rw [same]
      exact .turned (s := ⟨act s.whole, s.answers⟩) possible outside noStep

theorem leaves_of_reflTransGen (happens : ReflTransGen (OnBus allowed) s t) :
    ∃ more, t.answers = s.answers ++ more ∧
      ∀ answers, ReflTransGen (OnBus allowed) ⟨s.whole, answers⟩ ⟨t.whole, answers ++ more⟩ := by
  induction happens with
  | refl =>
      refine ⟨[], (List.append_nil _).symm, fun answers => ?_⟩
      rw [List.append_nil]
  | tail _ last inductionHypothesis =>
      obtain ⟨earlier, left, first⟩ := inductionHypothesis
      obtain ⟨later, leftLater, second⟩ := last.leaves
      refine ⟨earlier ++ later, by rw [leftLater, left, List.append_assoc], fun answers => ?_⟩
      rw [← List.append_assoc]
      exact (first answers).tail (second (answers ++ earlier))

theorem after_of_reflTransGen {act : Assembly → Assembly} (inside : IsLocal act)
    (happens : ReflTransGen (OnBus allowed) s t) :
    ReflTransGen (OnBus allowed) ⟨act s.whole, s.answers⟩ ⟨act t.whole, t.answers⟩ := by
  induction happens with
  | refl => exact .refl
  | tail _ last inductionHypothesis => exact inductionHypothesis.tail (last.after inside)

/-! ### Catching up -/

/-- A run of allowed turns leads from one whole to another. -/
def Leads (allowed : Turn → Prop) (a b : Assembly) : Prop :=
  ∃ turns : List Turn, (∀ turn ∈ turns, allowed turn) ∧ turns.foldl Turn.apply a = b

theorem Leads.refl (a : Assembly) : Leads allowed a a := ⟨[], List.forall_mem_nil _, rfl⟩

theorem Leads.head {b : Assembly} {turn : Turn} (possible : allowed turn)
    (rest : Leads allowed (turn.apply a) b) : Leads allowed a b := by
  obtain ⟨turns, areAllowed, ends⟩ := rest
  exact ⟨turn :: turns, List.forall_mem_cons.mpr ⟨possible, areAllowed⟩, ends⟩

theorem Leads.single {turn : Turn} (possible : allowed turn) (a : Assembly) :
    Leads allowed a (turn.apply a) :=
  .head possible (.refl _)

theorem Leads.trans {b c : Assembly} (first : Leads allowed a b) (second : Leads allowed b c) :
    Leads allowed a c := by
  obtain ⟨turns, areAllowed, rfl⟩ := first
  obtain ⟨more, moreAllowed, rfl⟩ := second
  exact ⟨turns ++ more, List.forall_mem_append.mpr ⟨areAllowed, moreAllowed⟩, List.foldl_append⟩

/-- A step of the channel is a turn if it ends nobody's send, and else it is one as soon as the answer
has been acted on. -/
theorem step_eq {bus : Host.Bus Sender Host.Chip}
    {completions : List (Host.Bus.Completion Sender)}
    (found : a.bus.step? a.now = some (bus, completions)) :
    (completions = [] ∧ (Turn.move .step).apply a = { a with bus }) ∨
      ∃ completion, completions = [completion] ∧
        (Turn.move .step).apply a =
          ({ a with bus } : Assembly).settle a.bus.channel.exchange completion := by
  simp only [Turn.apply, Move.apply, found]
  rcases Host.Bus.callers_step found with ⟨rfl, -⟩ | ⟨completion, rfl, -⟩
  · exact .inl ⟨rfl, rfl⟩
  · exact .inr ⟨completion, rfl, rfl⟩

/-- What has happened on the bus is caught up with by turns: all of it, if it left no answer, or else
as far as the oldest answer. -/
theorem caughtUp_of_reflTransGen (happens : ReflTransGen (OnBus allowed) ⟨m, []⟩ s) :
    (s.answers = [] → Leads allowed m s.whole) ∧
      ∀ answer rest, s.answers = answer :: rest → ∃ caught, Leads allowed m caught ∧
        ReflTransGen (OnBus allowed) ⟨caught, []⟩
          ⟨s.whole.settle answer.exchange answer.completion, rest⟩ := by
  generalize same : (⟨m, []⟩ : Staggered) = first at happens
  induction happens using ReflTransGen.head_induction_on generalizing m with
  | refl =>
      subst same
      exact ⟨fun _ => .refl _, fun answer rest waits => nomatch waits⟩
  | @head _ next happens more inductionHypothesis =>
      subst same
      -- A turn that leaves no answer comes first in the run that catches up.
      have byTurn {turn : Turn} (possible : allowed turn) (reached : ⟨turn.apply m, []⟩ = next) :=
        And.intro
          (fun none => ((inductionHypothesis reached).1 none).head possible)
          fun answer rest waits =>
            ((inductionHypothesis reached).2 answer rest waits).imp fun caught leads =>
              And.imp_left (Leads.head possible) leads
      cases happens with
      | turned possible outside noStep => exact byTurn possible rfl
      | stepped possible found =>
          rcases step_eq found with ⟨rfl, same⟩ | ⟨completion, rfl, same⟩
          · exact byTurn possible (congrArg (Staggered.mk · []) same)
          · obtain ⟨later, left, happensToo⟩ := leaves_of_reflTransGen more
            rw [left]
            refine ⟨fun none => (nomatch none), ?_⟩
            rintro answer rest waits
            obtain ⟨rfl, rfl⟩ := List.cons.inj waits
            exact ⟨_, same ▸ .single possible m,
              after_of_reflTransGen (isLocal_settle ⟨m.bus.channel.exchange, completion⟩)
                (happensToo [])⟩

/-- The whole has come by turns to where the other one was when the oldest answer came, and at the
interface to where the other one is. -/
def Lags (allowed : Turn → Prop) (m : Assembly) (s : Staggered) : Prop :=
  ReflTransGen (OnBus allowed) ⟨m, []⟩ s

/-- What happens next is followed by turns. -/
theorem Lags.next (lags : Lags allowed m s) {half : Half}
    (possible : ∀ turn, half = .turn turn → allowed turn) :
    ∃ followed, Leads allowed m followed ∧ Lags allowed followed (s.apply half) := by
  cases half with
  | act =>
      rw [Staggered.apply]
      split
      case h_1 => exact ⟨m, .refl m, lags⟩
      case h_2 answer rest waits => exact (caughtUp_of_reflTransGen lags).2 answer rest waits
  | turn turn =>
      have isAllowed := possible turn rfl
      by_cases step : turn = .move .step
      case pos =>
        subst step
        rw [Staggered.apply, Staggered.release]
        split
        case h_1 => exact ⟨m, .refl m, lags⟩
        case h_2 found => exact ⟨m, .refl m, lags.tail (.stepped isAllowed found)⟩
      case neg =>
        rw [Staggered.apply_turn step]
        cases outside : turn.isOnBus with
        | true => exact ⟨m, .refl m, lags.tail (.turned isAllowed outside step)⟩
        | false =>
            exact ⟨turn.apply m, .single isAllowed m,
              after_of_reflTransGen (isLocal_turn outside) lags⟩

theorem Lags.run (lags : Lags allowed m s) {halves : List Half}
    (possible : ∀ turn, .turn turn ∈ halves → allowed turn) :
    ∃ followed, Leads allowed m followed ∧
      Lags allowed followed (halves.foldl Staggered.apply s) := by
  induction halves generalizing m s with
  | nil => exact ⟨m, .refl m, lags⟩
  | cons half rest inductionHypothesis =>
      obtain ⟨middle, leads, lagsThere⟩ :=
        lags.next fun turn same => possible turn (same ▸ List.mem_cons_self)
      obtain ⟨followed, leadsOn, lagsStill⟩ :=
        inductionHypothesis lagsThere fun turn member => possible turn (List.mem_cons_of_mem _ member)
      exact ⟨followed, leads.trans leadsOn, lagsStill⟩

theorem Lags.interface (lags : Lags allowed m s) :
    m.interface = s.whole.interface ∧ m.forgotten = s.whole.forgotten := by
  induction lags with
  | refl => exact ⟨rfl, rfl⟩
  | tail _ last inductionHypothesis =>
      exact ⟨inductionHypothesis.1.trans last.interface.1.symm,
        inductionHypothesis.2.trans last.interface.2.symm⟩

/-- Whenever answers are acted on some time after the channel was left, the interface is as after a run
of turns. Once all answers have been acted on, so is all the rest. -/
theorem reached_of_staggered (a : Assembly) (halves : List Half) :
    let s := halves.foldl Staggered.apply { whole := a }
    ∃ turns : List Turn, (∀ turn ∈ turns, Half.turn turn ∈ halves) ∧
      let m := turns.foldl Turn.apply a
      m.interface = s.whole.interface ∧ m.forgotten = s.whole.forgotten ∧
        (s.answers = [] → m = s.whole) := by
  intro s
  have start : Lags (fun turn => Half.turn turn ∈ halves) a { whole := a } := .refl
  obtain ⟨followed, ⟨turns, allowed, rfl⟩, lags⟩ := start.run fun _ member => member
  by_cases done : s.answers = []
  case pos =>
    obtain ⟨more, moreAllowed, ends⟩ := (caughtUp_of_reflTransGen lags).1 done
    refine ⟨turns ++ more, List.forall_mem_append.mpr ⟨allowed, moreAllowed⟩, ?_⟩
    dsimp only
    rw [List.foldl_append, ends]
    exact ⟨rfl, rfl, fun _ => rfl⟩
  case neg =>
    exact ⟨turns, allowed, lags.interface.1, lags.interface.2, fun none => absurd none done⟩

end TargetWakeTime.Assembly
