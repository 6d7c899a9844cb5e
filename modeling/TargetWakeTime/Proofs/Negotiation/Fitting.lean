import TargetWakeTime.Proofs.Negotiation.Granting

/-!
Contract: what a responder grants fits its interval.

Owns the invariant that the agreements which flows hold, and those which waiting acceptances carry,
recur and last no longer than their interval, and its preservation by everything that can be done to
a negotiation state. Scheduling refuses what does not fit, and nothing comes into a slot or into an
acceptance that was not scheduled.
-/

namespace TargetWakeTime.Negotiation

/-- What flows hold and what waiting acceptances carry fits its interval. -/
structure Fitting (n : Negotiation) : Prop where
  distinct : n.stations.Distinct
  held : ∀ key a, n.stations.agreement? key = some a → ¬ Schedule.Unfit a
  accepted : ∀ answer ∈ n.answers.toList, ∀ a,
    answer.body = .setup .accept a → ¬ Schedule.Unfit a

variable {n : Negotiation}

theorem fitting_iff : n.Fitting ↔ n.HoldsOnly (¬ Schedule.Unfit ·) :=
  ⟨fun fitting => ⟨fitting.distinct, fitting.held, fitting.accepted⟩,
    fun holds => ⟨holds.distinct, holds.held, holds.accepted⟩⟩

/-- What is given a place fits: only the wake time of an agreement is moved when it is granted. -/
theorem grantedAs_fit (a : Agreement) : GrantedAs (¬ Schedule.Unfit ·) (¬ Schedule.Unfit ·) a := by
  intro _ _ _ _ _ _ _ granted
  obtain ⟨nonzero, inside, position, wakeTime, -, rfl, -⟩ := Schedule.schedule_ok granted
  exact not_or.mpr ⟨nonzero, UInt64.not_lt.mpr inside⟩

theorem fitting_handleEvents (fitting : n.Fitting) (source : Option MacAddress) :
    (n.handleEvents source).Fitting := by
  have all : HoldsOnly (¬ Schedule.Unfit ·) (handleAll (n.due source) (n.opened source)).1 :=
    holds_handleAll (HoldsOnly (¬ Schedule.Unfit ·))
      (fun event _ _ kept => kept.handleEvent (fun _ => id) fun a _ => grantedAs_fit a)
      ((fitting_iff.mp fitting).opened source)
  exact fitting_iff.mpr all.handleEvents

/-! ### Operations -/

theorem fitting_apply (fitting : n.Fitting) (operation : Operation) :
    (operation.apply n).Fitting :=
  fitting_iff.mpr ((fitting_iff.mp fitting).apply operation fun source _ =>
    fitting_iff.mp (fitting_handleEvents fitting source))

/-- In every state of every run, flows hold only what fits its interval. -/
theorem fitting_reached (settings : Settings) (operations : List Operation) :
    ∀ n ∈ reached (new settings) operations, n.Fitting :=
  invariant_of_apply Fitting (fun _ operation fitting => fitting_apply fitting operation)
    (fitting_iff.mpr (holdsOnly_new _ settings))

theorem Fitting.servicePeriod (fitting : n.Fitting) {key : AgreementKey} {p : ServicePeriod}
    (holds : n.stations.servicePeriod? key = some p) :
    0 < p.wakeInterval.toNat ∧ p.duration.toNat ≤ p.wakeInterval.toNat := by
  obtain ⟨a, held, rfl⟩ := Option.map_eq_some_iff.mp holds
  obtain ⟨nonzero, inside⟩ := not_or.mp (fitting.held key a held)
  exact ⟨Nat.pos_of_ne_zero fun zero => nonzero (UInt64.toNat_inj.mp zero),
    UInt64.not_lt.mp inside⟩

end TargetWakeTime.Negotiation
