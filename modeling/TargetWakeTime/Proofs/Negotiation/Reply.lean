import TargetWakeTime.Proofs.Negotiation.Outcome

/-!
Contract: how an answer leaves while an event is handled.

Owns:
- the note of a station, which is the token of an action frame that has no answer yet;
- the tasks by which an event may be answered or carried out;
- the ways in which the handling of one event answers: not at all, in one action frame with the
  token that is noted, or by one answer that waits if none is noted.
-/

namespace TargetWakeTime

/-- Whether a task is one that an event may leave: an answer, or commands for the chip. -/
def Task.isReply : Task → Bool
  | sendSetup .. | applyCommands => true
  | sendTeardown .. | handleEvents _ | retryEvents => false

/-- The stations that stay keep what is noted for them. -/
structure NotesKept (t s : StationTable) : Prop where
  distinct : s.Distinct
  same : ∀ peer, s.contains peer = true → s.note? peer = t.note? peer

namespace NotesKept

variable {t s middle : StationTable}

theorem refl (distinct : t.Distinct) : NotesKept t t := ⟨distinct, fun _ _ => rfl⟩

/-- For whom nothing was noted, nothing is. -/
theorem eq_none {peer : MacAddress} (kept : NotesKept t s) (unnoted : t.note? peer = none) :
    s.note? peer = none := by
  cases contained : s.contains peer with
  | false => exact StationTable.note?_of_unknown contained
  | true => exact (kept.same peer contained).trans unnoted

theorem of_same (kept : NotesKept middle s) (same : ∀ peer, middle.note? peer = t.note? peer) :
    NotesKept t s where
  distinct := kept.distinct
  same peer known := (kept.same peer known).trans (same peer)

theorem modifySlots (distinct : t.Distinct) (address : MacAddress) (f : Slots → Slots) :
    NotesKept t (t.modifySlots address f) where
  distinct := StationTable.distinct_modifySlots distinct
  same _ _ := StationTable.note?_modifySlots f

theorem remove (distinct : t.Distinct) (address : MacAddress) : NotesKept t (t.remove address) where
  distinct := StationTable.distinct_remove distinct
  same peer known := by
    simp only [StationTable.contains, StationTable.note?,
      StationTable.get?_remove distinct] at known ⊢
    split at known
    · cases known
    case isFalse apart => rw [if_neg apart]

end NotesKept

namespace Negotiation

/-- The ways in which handling an event of this source and flow answers. -/
inductive Replied (key : AgreementKey) (n m : Negotiation) : Prop where
  | silent {extra : List Task} (tasks : m.tasks = n.tasks ++ extra)
      (chipOnly : ∀ task ∈ extra, task = .applyCommands)
      (answers : m.answers.toList.length ≤ n.answers.toList.length)
      (kept : NotesKept n.stations m.stations)
  | inFrame {token : UInt8} {element : List UInt8} (noted : n.stations.note? key.address = some token)
      (tasks : m.tasks = n.tasks ++ [.sendSetup key.address token element key.flow])
      (answers : m.answers.toList.length ≤ n.answers.toList.length)
      (kept : NotesKept (n.stations.withoutNote key.address) m.stations)
  | waits {answer : Event} (unnoted : n.stations.note? key.address = none)
      (tasks : m.tasks = n.tasks)
      (answers : m.answers.toList = n.answers.toList ++ [answer]) (sameKey : answer.key = key)
      (kept : NotesKept n.stations m.stations)

variable {n m : Negotiation} {peer : MacAddress} {flow : UInt8} {key : AgreementKey}
  {event : Event}

namespace Replied

theorem unanswered (distinct : n.stations.Distinct) : Replied key n n :=
  .silent (List.append_nil _).symm (by simp) (Nat.le_refl _) (.refl distinct)

/-- What is done to slots and schedule before an answer leaves does not matter. -/
theorem of_same {middle : Negotiation} (replied : Replied key middle m)
    (tasks : middle.tasks = n.tasks) (answers : middle.answers = n.answers)
    (notes : ∀ peer, middle.stations.note? peer = n.stations.note? peer) : Replied key n m := by
  cases replied with
  | silent grown chipOnly shrunk kept =>
      rw [tasks] at grown
      rw [answers] at shrunk
      exact .silent grown chipOnly shrunk (kept.of_same notes)
  | inFrame noted grown shrunk kept =>
      rw [tasks] at grown
      rw [answers] at shrunk
      rw [notes] at noted
      refine .inFrame noted grown shrunk (kept.of_same fun peer => ?_)
      rw [StationTable.note?_withoutNote, StationTable.note?_withoutNote, notes]
  | waits unnoted grown pushed sameKey kept =>
      rw [tasks] at grown
      rw [answers] at pushed
      rw [notes] at unnoted
      exact .waits unnoted grown pushed sameKey (kept.of_same notes)

end Replied

/-! ### Ends of a negotiation -/

/-- The end of a negotiation gives no answer. -/
structure Quiet (n m : Negotiation) : Prop where
  tasks : m.tasks = n.tasks
  answers : m.answers.toList.length ≤ n.answers.toList.length
  kept : NotesKept n.stations m.stations

theorem quiet_dropStation (distinct : n.stations.Distinct) : Quiet n (n.dropStation peer) :=
  ⟨rfl, List.length_filter_le .., .remove distinct peer⟩

theorem quiet_collectIdle (distinct : n.stations.Distinct) : Quiet n (n.collectIdle peer) := by
  unfold collectIdle
  split
  · split
    · exact quiet_dropStation distinct
    · exact ⟨rfl, Nat.le_refl _, .refl distinct⟩
  · exact ⟨rfl, Nat.le_refl _, .refl distinct⟩

theorem quiet_conclude {conclusion : Conclusion} (distinct : n.stations.Distinct) :
    Quiet n (n.conclude event conclusion) := by
  unfold conclude
  split
  · exact ⟨rfl, Nat.le_refl _, .refl distinct⟩
  · have withState (state : AgreementState) :
        (n.setState event.source event.flow state).stations.Distinct :=
      StationTable.distinct_modifySlots distinct
    cases conclusion
    case established =>
      cases event.agreement? with
      | none => exact ⟨rfl, Nat.le_refl _, .modifySlots distinct _ _⟩
      | some agreement =>
          refine ⟨rfl, Nat.le_refl _, ?_⟩
          exact (NotesKept.modifySlots (withState _) _ _).of_same fun _ =>
            StationTable.note?_modifySlots _
    case cleared =>
      let withdrawn : Negotiation := { n.setState event.source event.flow .noAgreement with
        schedule := n.schedule.remove ⟨event.source, event.flow⟩
        stations := (n.setState event.source event.flow .noAgreement).stations.modifySlots
          event.source (·.setAgreement event.flow none) }
      have collected : Quiet withdrawn (withdrawn.collectIdle event.source) :=
        quiet_collectIdle (StationTable.distinct_modifySlots (withState _))
      refine ⟨collected.tasks, collected.answers, collected.kept.of_same fun _ => ?_⟩
      exact (StationTable.note?_modifySlots _).trans (StationTable.note?_modifySlots _)

/-! ### Answers -/

theorem replied_respond {answer : Event} {conclusion : Option Conclusion} {agreement : Agreement}
    (distinct : n.stations.Distinct) (carries : answer.agreement? = some agreement)
    (sameKey : answer.key = key) : Replied key n (n.respond answer conclusion) := by
  subst sameKey
  have left : (n.stations.withoutNote answer.source).Distinct :=
    StationTable.distinct_withoutNote distinct
  have response := responded answer conclusion n
  generalize n.respond answer conclusion = m at response ⊢
  cases response with
  | unknown => exact .unanswered distinct
  | waiting unnoted => exact .waits unnoted rfl rfl rfl (.refl distinct)
  | left _ noted sends =>
      exact .inFrame noted (sends agreement carries) (Nat.le_refl _) (.refl left)
  | @concluded token tasks c _ noted sends =>
      let silenced : Negotiation :=
        { n with stations := n.stations.withoutNote answer.source, tasks }
      have ended : Quiet silenced (silenced.conclude answer c) := quiet_conclude left
      exact .inFrame noted (ended.tasks.trans (sends agreement carries)) ended.answers ended.kept

theorem replied_reject {agreement : Agreement} (distinct : n.stations.Distinct) :
    Replied ⟨peer, flow⟩ n (n.reject peer flow agreement) :=
  replied_respond distinct rfl rfl

theorem replied_accept {command : SetupCommand} {agreement : Agreement}
    (distinct : n.stations.Distinct) :
    Replied ⟨peer, flow⟩ n (n.accept peer flow command agreement) := by
  rw [accept_eq]
  dsimp only
  split
  case h_1 error schedule _ =>
    exact (replied_reject (n := { n with schedule }) distinct).of_same rfl rfl fun _ => rfl
  case h_2 scheduled schedule _ =>
    let granted := (scheduled.withCommand .accept).updateParameters
    have stored : (n.stations.modifySlots peer (·.setAgreement flow (some granted))).Distinct :=
      StationTable.distinct_modifySlots distinct
    have sameNotes (other : MacAddress) :
        (n.stations.modifySlots peer (·.setAgreement flow (some granted))).note? other =
          n.stations.note? other :=
      StationTable.note?_modifySlots _
    exact Replied.of_same (n := n) (replied_respond (by exact stored) rfl rfl) rfl rfl sameNotes

theorem replied_answerRequest {command : SetupCommand} {agreement : Agreement}
    {state : AgreementState} (distinct : n.stations.Distinct) :
    Replied ⟨peer, flow⟩ n (n.answerRequest peer flow command agreement state) := by
  unfold answerRequest
  split
  case h_1 =>
    unfold consider
    split
    · exact .unanswered distinct
    · have considering (state : AgreementState) :
          (n.setState peer flow state).stations.Distinct :=
        StationTable.distinct_modifySlots distinct
      have sameNotes (state : AgreementState) (peer' : MacAddress) :
          (n.setState peer flow state).stations.note? peer' = n.stations.note? peer' :=
        StationTable.note?_modifySlots _
      cases command
      case request | suggest =>
        exact (replied_accept (considering _)).of_same rfl rfl (sameNotes _)
      case demand | grouping =>
        exact (replied_reject (considering _)).of_same rfl rfl (sameNotes _)
      all_goals exact .unanswered distinct
  case h_6 =>
    split
    · exact .unanswered distinct
    · exact replied_reject distinct
  all_goals exact .unanswered distinct

/-! ### Events -/

theorem replied_of_quiet (quiet : Quiet n m) : Replied key n m :=
  .silent (quiet.tasks.trans (List.append_nil _).symm) (by simp) quiet.answers quiet.kept

theorem replied_deferCommands {own : Requester} (distinct : n.stations.Distinct) :
    Replied key n ({ n with own }.deferCommands) := by
  unfold deferCommands
  split
  · exact .silent rfl (by simp) (Nat.le_refl _) (.refl distinct)
  · exact .silent (List.append_nil _).symm (by simp) (Nat.le_refl _) (.refl distinct)

theorem replied_handleTeardown (distinct : n.stations.Distinct) (event : Event) :
    Replied key n (n.handleTeardown event) := by
  unfold handleTeardown
  split
  · unfold handleOwnTeardown
    dsimp only
    split
    · exact .unanswered distinct
    · exact replied_deferCommands distinct
  · split
    · split
      · exact .unanswered distinct
      · exact .unanswered distinct
      · exact replied_of_quiet (quiet_conclude distinct)
    · exact .unanswered distinct

theorem replied_handleAnswer (distinct : n.stations.Distinct) (event : Event)
    (command : SetupCommand) : Replied key n (n.handleAnswer event command) := by
  unfold handleAnswer
  dsimp only
  split
  · cases command
    case accept => exact replied_deferCommands distinct
    all_goals exact replied_of_quiet ⟨rfl, Nat.le_refl _, .refl distinct⟩
  · exact .unanswered distinct

/-- The ways in which the handling of an event answers. -/
theorem replied_handleEvent (distinct : n.stations.Distinct) (event : Event) :
    Replied event.key n (n.handleEvent event).1 := by
  unfold handleEvent
  split
  case h_1 => exact replied_handleTeardown distinct event
  case h_2 command agreement _ =>
    split
    · split
      · split
        · exact .unanswered distinct
        case h_2 stations ensured =>
          have extended : { n with stations }.stations.Distinct :=
            StationTable.distinct_of_ensure ensured distinct
          exact (replied_answerRequest extended).of_same rfl rfl fun _ =>
            StationTable.note?_of_ensure ensured
      · exact .unanswered distinct
    · split
      · exact replied_handleAnswer distinct event command
      · exact .unanswered distinct

end Negotiation

end TargetWakeTime
