import TargetWakeTime.Proofs.Agreement.Legible
import TargetWakeTime.Proofs.Negotiation.Regrouping
import TargetWakeTime.Proofs.Negotiation.Surroundings
import TargetWakeTime.Proofs.Schedule.Lookup
import TargetWakeTime.Proofs.Schedule.Ring

/-!
Contract: the service periods of each group form a ring, along every run.

Owns:
- the periods of a group, in the order of its members;
- that members that leave, and a flow that gets a place, leave rings behind;
- the two things that a run must not do: give a wake time that overflows, and take out an acceptance
  with another timing than its flow holds.
-/

namespace TargetWakeTime

namespace Agreement

theorem wakeInterval_lt_of_parse {element : List UInt8} {a : Agreement}
    (read : parse element = .ok a) : a.wakeInterval.toNat < 1 <<< 47 := by
  have interval : WakeInterval.micros a.parameters.mantissa a.parameters.requestType.exponent.val =
      a.wakeInterval := congrArg Agreement.wakeInterval (legible_of_parse read).values
  rw [← interval, toNat_micros]
  exact shiftLeft_lt ..

end Agreement

namespace Schedule

variable {lookup : AgreementKey → Option ServicePeriod} {keys : List AgreementKey}
  {periods : List ServicePeriod}

/-! ### Placing in a ring -/

/-- A single period makes a ring. -/
theorem ring_singleton {p : ServicePeriod} (positive : 0 < p.wakeInterval.toNat)
    (bounded : p.wakeInterval.toNat < 1 <<< 47) (fits : p.duration.toNat ≤ p.wakeInterval.toNat) :
    Ring p.wakeInterval [p] := by
  refine .turn positive bounded (by simp) fits ?_
  exact Nat.le_of_lt (Nat.mod_lt _ positive)

/-- An agreement that is not demanded takes its place in the ring of its group. -/
theorem ring_of_placed {a : Agreement} {command : SetupCommand} {position : Nat}
    {wakeTime : UInt64} (placed : Placed lookup a command keys position wakeTime)
    (notDemand : command ≠ .demand) (found : keys.map lookup = periods.map some)
    (ring : Ring a.wakeInterval periods) (positive : 0 < a.wakeInterval.toNat)
    (bounded : a.wakeInterval.toNat < 1 <<< 47)
    (fits : a.wakeDuration.toUInt64.toNat ≤ a.wakeInterval.toNat)
    (noOverflow : ∀ index before, position = index + 1 → periods[index]? = some before →
      before.wakeTime.toNat + before.duration.toNat < UInt64.size) :
    Ring a.wakeInterval (periods.take position ++
      .ofAgreement { a with wakeTime } :: periods.drop position) := by
  let q : ServicePeriod := .ofAgreement { a with wakeTime }
  have qFits : q.duration.toNat ≤ q.wakeInterval.toNat := fits
  cases placed with
  | first =>
      have none : periods = [] := List.map_eq_nil_iff.mp found.symm
      subst none
      exact ring_singleton (p := q) positive bounded qFits
  | demanded demand => exact absurd demand notDemand
  | @fitted _ place fitted =>
      unfold Schedule.place at fitted
      split at fitted
      · cases fitted
      · cases fitted
      case h_3 first rest resolved =>
        have same : periods = first :: rest :=
          (filterMap_of_map_lookup found).symm.trans
            (filterMap_of_map_lookup (map_lookup_of_resolve resolved))
        subst same
        split at fitted
        · cases fitted
        case h_2 place' firstFound =>
          cases fitted
          exact ring.insert (q := q) firstFound rfl qFits rfl noOverflow

end Schedule

namespace Negotiation

/-- The periods of a group, in the order of its members. -/
def periods (interval : UInt64) (n : Negotiation) : List ServicePeriod :=
  (n.schedule.entries interval).filterMap n.stations.servicePeriod?

/-- The periods of each group follow one another. -/
def Rings (n : Negotiation) : Prop := ∀ interval, Schedule.Ring interval (n.periods interval)

/-- The period directly ahead of a flow in its group ends within 64 bits. -/
def EndFits (key : AgreementKey) (n : Negotiation) : Prop :=
  ∀ interval earlier before later p,
    n.schedule.entries interval = earlier ++ before :: key :: later →
    n.stations.servicePeriod? before = some p →
    p.wakeTime.toNat + p.duration.toNat < UInt64.size

/-- No wake time overflows when an event is handled: a flow that gets a place behind another member
of its group wakes when that one's period ends. -/
def WakeTimeFits (event : Event) (n : Negotiation) : Prop :=
  n.stations.agreement? event.key = none → EndFits event.key (n.handleEvent event).1

/-- No wake time overflows when an operation handles events. -/
def WakeTimesFit (n : Negotiation) (operation : Operation) : Prop :=
  ∀ handling ∈ operation.handlings n, WakeTimeFits handling.1 handling.2

variable {n m : Negotiation} {peer : MacAddress} {flow : UInt8} {key : AgreementKey}
  {event : Event}

/-- A period ends within 64 bits if all periods of the groups do. -/
theorem endFits_of_groups (ends : ∀ group ∈ n.schedule.groups, ∀ member ∈ group.entries,
    ∀ p ∈ n.stations.servicePeriod? member, p.wakeTime.toNat + p.duration.toNat < UInt64.size) :
    EndFits key n := by
  intro interval earlier before later p entries found
  have member : before ∈ n.schedule.entries interval := by
    rw [entries]
    exact List.mem_append_right _ List.mem_cons_self
  obtain ⟨folder, filed, -, sameEntries⟩ := Schedule.exists_folder_of_mem_entries member
  rw [← sameEntries] at member
  exact ends folder.group (List.mem_map_of_mem filed) before member p found

/-! ### Groups that change -/

theorem rings_of_shrunk (rings : n.Rings) (shrunk : Shrunk n m) : m.Rings := fun interval =>
  (rings interval).sublist
    (Schedule.filterMap_sublist (shrunk.entries interval) shrunk.periods)

/-- Every member of a group has a period. -/
theorem map_servicePeriod? (consistent : n.Consistent) (interval : UInt64) :
    (n.schedule.entries interval).map n.stations.servicePeriod? =
      (n.periods interval).map some := by
  refine Schedule.map_lookup_of_known fun other member => ?_
  obtain ⟨a, held, -⟩ := (consistent.listed other interval).mp member
  exact ⟨.ofAgreement a, by rw [StationTable.servicePeriod?, held]; rfl⟩

/-- The period behind which a flow has got its place ends within 64 bits. -/
theorem end_lt_of_endFits {interval : UInt64} {keys : List AgreementKey}
    {others : List ServicePeriod} {index : Nat} {before : ServicePeriod} (endFits : EndFits key n)
    (entries : n.schedule.entries interval =
      keys.take (index + 1) ++ key :: keys.drop (index + 1))
    (looked : keys.map n.stations.servicePeriod? = others.map some)
    (ahead : others[index]? = some before) :
    before.wakeTime.toNat + before.duration.toNat < UInt64.size := by
  have mapped := congrArg (·[index]?) looked
  simp only [List.getElem?_map, ahead, Option.map_some, Option.map_eq_some_iff] at mapped
  obtain ⟨owner, member, ownerHolds⟩ := mapped
  refine endFits interval (keys.take index) owner (keys.drop (index + 1)) before ?_ ownerHolds
  rw [entries, List.take_add_one, member]
  simp

theorem rings_of_granted {agreement : Agreement} (consistent : n.Consistent) (rings : n.Rings)
    (free : n.stations.agreement? key = none) (granted : Granted key agreement n m)
    (bounded : agreement.wakeInterval.toNat < 1 <<< 47) (endFits : EndFits key m) : m.Rings := by
  obtain ⟨command, scheduled, notDemand, found, holds⟩ := granted.placed
  obtain ⟨nonzero, durationFits, position, wakeTime, placed, moved, after⟩ :=
    Schedule.schedule_ok found
  -- The flow had no place before, so all members of the groups stay.
  have absent := consistent.notMem_of_agreement?_eq_none free
  have sameEntries (interval : UInt64) :
      (n.schedule.remove key).entries interval = n.schedule.entries interval :=
    Schedule.entries_remove_of_notMem consistent.wellFormed (absent interval)
  rw [sameEntries] at placed after
  have looked (interval : UInt64) :
      (n.schedule.entries interval).map m.stations.servicePeriod? =
        (n.periods interval).map some := by
    rw [← map_servicePeriod? consistent]
    refine List.map_congr_left fun other member => granted.others other ?_
    rintro rfl
    exact absent interval member
  intro interval
  rw [periods, after, Schedule.entries_put]
  split
  case isFalse =>
    rw [sameEntries, Schedule.filterMap_of_map_lookup (looked interval)]
    exact rings interval
  case isTrue same =>
    subst same
    rw [Schedule.filterMap_insert (looked _) holds, moved]
    have positive : 0 < agreement.wakeInterval.toNat :=
      Nat.pos_of_ne_zero fun zero => nonzero (UInt64.toNat_inj.mp zero)
    refine Schedule.ring_of_placed placed notDemand (map_servicePeriod? consistent _) (rings _)
      positive bounded (UInt64.le_iff_toNat_le.mp durationFits) fun index before behind ahead => ?_
    subst behind
    have grown : m.schedule.entries agreement.wakeInterval =
        (n.schedule.entries agreement.wakeInterval).take (index + 1) ++
          key :: (n.schedule.entries agreement.wakeInterval).drop (index + 1) := by
      rw [after, Schedule.entries_put, if_pos rfl]
    exact end_lt_of_endFits endFits grown (looked _) ahead

theorem rings_of_regrouped {body : Event.Body} (consistent : n.Consistent) (rings : n.Rings)
    (regrouped : Regrouped key body n m)
    (bounded : ∀ command agreement, body = .setup command agreement →
      agreement.wakeInterval.toNat < 1 <<< 47)
    (endFits : n.stations.agreement? key = none → EndFits key m) : m.Rings := by
  cases regrouped with
  | shrunk shrunk => exact rings_of_shrunk rings shrunk
  | granted asks free granted =>
      exact rings_of_granted consistent rings free granted (bounded _ _ asks) (endFits free)

/-! ### Events -/

/-- The interval that a frame asks for has at most 47 bits. -/
theorem wakeInterval_lt_of_fromFrame {command : SetupCommand} {agreement : Agreement}
    (framed : FromFrame event) (asks : event.body = .setup command agreement) :
    agreement.wakeInterval.toNat < 1 <<< 47 := by
  cases framed with
  | element read =>
      cases asks
      exact Agreement.wakeInterval_lt_of_parse read
  | teardown => cases asks

theorem rings_handleEvent (consistent : n.Consistent) (rings : n.Rings) (framed : FromFrame event)
    (fits : WakeTimeFits event n) : (n.handleEvent event).1.Rings :=
  rings_of_regrouped consistent rings (regrouped_handleEvent consistent event)
    (fun _ _ asks => wakeInterval_lt_of_fromFrame framed asks) fits

theorem rings_handleAll {events : List Event} (consistent : n.Consistent) (rings : n.Rings)
    (framed : ∀ event ∈ events, FromFrame event)
    (fit : ∀ handling ∈ handlings events n, WakeTimeFits handling.1 handling.2) :
    (handleAll events n).1.Rings := by
  induction events generalizing n with
  | nil => exact rings
  | cons event rest inductionHypothesis =>
      have first : (n.handleEvent event).1.Rings :=
        rings_handleEvent consistent rings (framed event List.mem_cons_self)
          (fit (event, n) List.mem_cons_self)
      exact inductionHypothesis (consistent_handleEvent consistent) first
        (fun later member => framed later (List.mem_cons_of_mem _ member))
        (fun handling member => fit handling (List.mem_cons_of_mem _ member))

theorem rings_handleEvents {source : Option MacAddress} (consistent : n.Consistent)
    (rings : n.Rings) (framed : ∀ event ∈ n.events.toList, FromFrame event)
    (fit : n.WakeTimesFit (.handleEvents source)) : (n.handleEvents source).Rings := by
  obtain ⟨events, tasks, handled⟩ := handleEvents_eq source n
  have all : (handleAll (n.due source) (n.opened source)).1.Rings :=
    rings_handleAll consistent rings
      (fun event member => framed event (List.mem_filter.mp member).1) fit
  rw [handled]
  exact all

/-! ### Operations -/

/-- An acceptance that is taken out may not give its flow another timing. -/
theorem rings_takeAnswer {operation : Operation} (consistent : n.Consistent) (rings : n.Rings)
    (takes : operation.takesAnswerFor? = some peer)
    (confirms : Confirms ServicePeriod.ofAgreement n operation) :
    (n.takeAnswer peer).2.Rings := by
  have taken := answerTaken peer n
  generalize n.takeAnswer peer = result at taken ⊢
  cases taken with
  | nothing => exact rings
  | @established answer agreement state first accepts stands considering =>
      obtain ⟨held, holds, sameTiming⟩ :=
        confirms peer answer agreement state takes first accepts stands considering
      obtain ⟨source, flow, body⟩ := answer
      cases accepts
      have unmoved : Unmoved (n.withoutAnswer peer)
          ((n.withoutAnswer peer).conclude ⟨source, flow, .setup .accept agreement⟩
            .established) :=
        unmoved_conclude_established holds sameTiming
      exact rings_of_shrunk (n := n.withoutAnswer peer) rings unmoved.shrunk
  | cleared =>
      exact rings_of_shrunk (n := n.withoutAnswer peer) rings
        (shrunk_conclude_cleared (n := n.withoutAnswer peer) consistent)
  | kept => exact rings
  | refused => exact rings

theorem rings_of_responderPart (rings : n.Rings) (same : m.responderPart = n.responderPart) :
    m.Rings :=
  rings_of_shrunk rings (unmoved_of_responderPart same).shrunk

/-- Slots and schedule tell the same, the groups are rings, and frames brought all events. -/
structure Spaced (n : Negotiation) : Prop where
  consistent : n.Consistent
  rings : n.Rings
  framed : ∀ event ∈ n.events.toList, FromFrame event

theorem spaced_new (settings : Settings) : (new settings).Spaced where
  consistent := consistent_new settings
  rings _ := .empty
  framed _ member := by cases member

/-- An operation that brings in events from frames keeps the timing that was given, if it gives no
wake time that overflows and takes out no acceptance with another timing than its flow holds. -/
structure KeepsTiming (n : Negotiation) (operation : Operation) : Prop where
  fromFrames : operation.fromFrames = true
  fit : n.WakeTimesFit operation
  confirms : Confirms ServicePeriod.ofAgreement n operation

theorem spaced_apply {operation : Operation} (spaced : n.Spaced)
    (keeps : n.KeepsTiming operation) : (operation.apply n).Spaced where
  consistent := by
    refine consistent_apply spaced.consistent
      fun peer answer agreement state takes first accepts stands considering => ?_
    obtain ⟨held, holds, sameTiming⟩ :=
      keeps.confirms peer answer agreement state takes first accepts stands considering
    exact ⟨held, holds, congrArg ServicePeriod.wakeInterval sameTiming⟩
  framed := fromFrame_apply spaced.framed keeps.fromFrames
  rings := by
    have rings := spaced.rings
    have result := applied n operation
    generalize operation.apply n = m at result ⊢
    cases result with
    | untouched same => exact rings_of_responderPart rings same
    | queued _ same => exact rings_of_responderPart (n := n.queueEvent _) rings same
    | noted _ ensured same =>
        refine rings_of_responderPart (rings_of_shrunk rings ?_) same
        refine (unmoved_of_ensure ensured ?_ ?_).shrunk
        · exact fun _ => rfl
        · exact fun _ => rfl
    | handled source => exact rings_handleEvents spaced.consistent rings spaced.framed keeps.fit
    | taken takes => exact rings_takeAnswer spaced.consistent rings takes keeps.confirms
    | forgotten peer same =>
        exact rings_of_responderPart
          (rings_of_shrunk rings (shrunk_dropStation spaced.consistent)) same
    | purged => exact rings
    | cleared => exact fun _ => .empty

end Negotiation

end TargetWakeTime
