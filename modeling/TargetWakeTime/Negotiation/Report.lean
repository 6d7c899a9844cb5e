import TargetWakeTime.Negotiation.Basic

/-!
Contract: the textual reports of a negotiation state.

Every line ends with a line feed. The schedule is reported in ascending order of the wake interval,
stations in order of arrival, the requester's own flows in order of the flow.

Members of the schedule that have no agreement are passed over. The lines of its report are counted
beside the report, where they are made.
-/

namespace TargetWakeTime.Negotiation

/-- The lines of a report as one text. -/
def joinLines (lines : List String) : String :=
  String.join (lines.map (· ++ "\n"))

private def memberLine? (key : AgreementKey) (n : Negotiation) : Option String :=
  (n.stations.slot? key).bind fun slot =>
    slot.agreement.map fun agreement =>
      s!"\tTWT Wake time: {agreement.wakeTime} us, Wake Duration: {agreement.wakeDuration} us, " ++
        s!"State: {slot.state.name}"

private def groupLines (n : Negotiation) (group : Schedule.Group) : List String :=
  if group.entries.isEmpty then ["Empty wake interval"]
  else
    s!"TWT Wake interval: {group.interval}us" :: group.entries.filterMap (memberLine? · n)

/-- One line for each wake interval and one for each of its members. -/
def scheduleLines (n : Negotiation) : List String :=
  n.schedule.groups.flatMap (groupLines n)

private def pairLine (requester responder : MacAddress) : String :=
  s!"TWT Agreements for Requester: {requester.text}, Responder: {responder.text}"

private def timingText (flow : Nat) (a : Agreement) : String :=
  s!"Flow ID: {flow}, Wake Interval: {a.wakeInterval} us, Wake Time: {a.wakeTime} us, " ++
    s!"Wake Duration: {a.wakeDuration} us"

private def slotLine (flow : Nat) (slot : Slot) : String :=
  s!"\t{timingText flow (slot.agreement.getD .zero)}, State {slot.state.name}"

private def stationLines (own : MacAddress) (station : Station) : List String :=
  pairLine station.address own ::
    station.slots.toList.mapIdx slotLine

private def ownFlowLines (n : Negotiation) : List String :=
  let line (flow : Nat) (slot : Slot) : Option String :=
    if slot.state = .noAgreement then none
    else
      let installed := if n.own.isInstalled (UInt8.ofNat flow) then " (installed)" else ""
      some (slotLine flow slot ++ installed)
  (n.own.slots.toList.mapIdx line).filterMap id

private def ownLines (own : MacAddress) (n : Negotiation) : List String :=
  let flows := n.ownFlowLines
  let header :=
    if flows.isEmpty then [] else [pairLine own (n.link.bssid.getD .zero)]
  let stored :=
    match n.own.stored.bind (·.agreement?) with
    | none => []
    | some agreement => [s!"Pending TWT request: {timingText agreement.flow.toNat agreement}"]
  header ++ flows ++ stored

/-- Every slot of every station, then the requester's own flows and its stored request. -/
def agreementLines (own : MacAddress) (n : Negotiation) : List String :=
  n.stations.stations.flatMap (stationLines own) ++ (if n.requester then n.ownLines own else [])

def scheduleReport (n : Negotiation) : String := joinLines n.scheduleLines

def agreementReport (own : MacAddress) (n : Negotiation) : String :=
  joinLines (n.agreementLines own)

/-! ### Lines of the schedule's report -/

/-- Whether a text stays on its line. -/
def Unbroken (text : String) : Prop := '\n' ∉ text.toList

instance (text : String) : Decidable (Unbroken text) := inferInstanceAs (Decidable (¬ _))

private theorem unbroken_append {first second : String} :
    Unbroken (first ++ second) ↔ Unbroken first ∧ Unbroken second := by
  simp [Unbroken, String.toList_append]

private theorem unbroken_repr (number : Nat) : Unbroken number.repr := by
  intro broken
  rw [Nat.toList_repr] at broken
  exact absurd (Nat.isDigit_of_mem_toDigits (by decide) (by decide) broken) (by decide)

private theorem unbroken_name (state : AgreementState) : Unbroken state.name := by
  cases state <;> decide

private theorem unbroken_memberLine {key : AgreementKey} {n : Negotiation} {line : String}
    (written : memberLine? key n = some line) : Unbroken line := by
  obtain ⟨slot, -, held⟩ := Option.bind_eq_some_iff.mp written
  obtain ⟨agreement, -, rfl⟩ := Option.map_eq_some_iff.mp held
  have wakeTime : Unbroken (toString agreement.wakeTime) := unbroken_repr agreement.wakeTime.toNat
  have duration : Unbroken (toString agreement.wakeDuration) :=
    unbroken_repr agreement.wakeDuration.toNat
  have state : Unbroken (toString slot.state.name) := unbroken_name slot.state
  simp only [unbroken_append]
  exact ⟨⟨⟨⟨⟨by decide, wakeTime⟩, by decide⟩, duration⟩, by decide⟩, by decide, state⟩

private theorem unbroken_groupLine {group : Schedule.Group} {n : Negotiation} {line : String}
    (written : line ∈ groupLines n group) : Unbroken line := by
  have interval : Unbroken (toString group.interval) := unbroken_repr group.interval.toNat
  unfold groupLines at written
  split at written
  · obtain rfl := List.mem_singleton.mp written
    decide
  · rcases List.mem_cons.mp written with rfl | member
    · simp only [unbroken_append]
      exact ⟨⟨by decide, interval⟩, by decide⟩
    · obtain ⟨key, -, found⟩ := List.mem_filterMap.mp member
      exact unbroken_memberLine found

/-- A report has as many line feeds as lines, if all of these are unbroken. -/
theorem count_joinLines {lines : List String} (unbroken : ∀ line ∈ lines, Unbroken line) :
    (joinLines lines).toList.count '\n' = lines.length := by
  induction lines with
  | nil => rfl
  | cons line rest inductionHypothesis =>
      have first : line.toList.count '\n' = 0 :=
        List.count_eq_zero.mpr (unbroken line List.mem_cons_self)
      have others := inductionHypothesis fun later member =>
        unbroken later (List.mem_cons_of_mem _ member)
      rw [joinLines] at others ⊢
      rw [List.map_cons, String.join_cons, String.toList_append, String.toList_append,
        List.count_append, List.count_append, first, others, List.length_cons, Nat.add_comm]
      rfl

/-- Where all members of a group have agreements, it takes one line and one for each of them. -/
private theorem length_groupLines {group : Schedule.Group} {n : Negotiation}
    (held : ∀ key ∈ group.entries, (n.stations.agreement? key).isSome) :
    (groupLines n group).length = 1 + group.entries.length := by
  unfold groupLines
  split
  case isTrue empty => simp [List.isEmpty_iff.mp empty]
  case isFalse =>
    have all : (group.entries.filterMap (memberLine? · n)).length = group.entries.length := by
      rw [List.filterMap_length_eq_length]
      intro key member
      obtain ⟨agreement, holds⟩ := Option.isSome_iff_exists.mp (held key member)
      obtain ⟨slot, found, has⟩ := Option.bind_eq_some_iff.mp holds
      simp [memberLine?, found, has]
    rw [List.length_cons, all, Nat.add_comm]

/-- Where all members of the schedule have agreements, its report has one line for each group and
one for each member. -/
theorem count_scheduleReport {n : Negotiation} (held : ∀ group ∈ n.schedule.groups,
    ∀ key ∈ group.entries, (n.stations.agreement? key).isSome) :
    n.scheduleReport.toList.count '\n' =
      n.schedule.groups.length + (n.schedule.groups.flatMap (·.entries)).length := by
  have unbroken : ∀ line ∈ n.scheduleLines, Unbroken line := by
    intro line member
    obtain ⟨group, -, written⟩ := List.mem_flatMap.mp member
    exact unbroken_groupLine written
  rw [scheduleReport, count_joinLines unbroken, scheduleLines]
  generalize n.schedule.groups = groups at held
  induction groups with
  | nil => rfl
  | cons group rest inductionHypothesis =>
      have others := inductionHypothesis fun later member =>
        held later (List.mem_cons_of_mem _ member)
      rw [List.flatMap_cons, List.length_append, others,
        length_groupLines (held group List.mem_cons_self), List.length_cons, List.flatMap_cons,
        List.length_append]
      omega

end TargetWakeTime.Negotiation
