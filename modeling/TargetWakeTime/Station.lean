import TargetWakeTime.Agreement.Basic
import TargetWakeTime.Agreement.State
import TargetWakeTime.Error

/-!
Contract: a station as its responder sees it, with one slot for each of the eight flows.
-/

namespace TargetWakeTime

/-- The negotiation of one flow: where it stands, and the agreement once there is one. -/
structure Slot where
  state : AgreementState := .noAgreement
  agreement : Option Agreement := none
deriving DecidableEq, Repr, Inhabited

abbrev Slots := Vector Slot 8

namespace Slots

def empty : Slots := Vector.replicate 8 {}

/-- The slot of a flow, if it is one of the eight. -/
def get? (flow : UInt8) (slots : Slots) : Option Slot := slots[flow.toNat]?

/-- The state of a flow; a flow that has no slot has no agreement. -/
def state (flow : UInt8) (slots : Slots) : AgreementState :=
  ((slots.get? flow).map (·.state)).getD .noAgreement

def agreement? (flow : UInt8) (slots : Slots) : Option Agreement :=
  (slots.get? flow).bind (·.agreement)

/-- Rewrites the slot of a flow; a flow that has no slot is left alone. -/
def modify (flow : UInt8) (f : Slot → Slot) (slots : Slots) : Slots :=
  match slots.get? flow with
  | some slot => slots.setIfInBounds flow.toNat (f slot)
  | none => slots

def setState (flow : UInt8) (state : AgreementState) (slots : Slots) : Slots :=
  slots.modify flow ({ · with state })

def setAgreement (flow : UInt8) (agreement : Option Agreement) (slots : Slots) : Slots :=
  slots.modify flow ({ · with agreement })

theorem get?_modify (flow other : UInt8) (f : Slot → Slot) (slots : Slots) :
    (slots.modify flow f).get? other =
      if other = flow then (slots.get? flow).map f else slots.get? other := by
  unfold modify
  cases found : slots.get? flow with
  | none =>
      by_cases same : other = flow
      · simp [same, found]
      · simp [same]
  | some slot =>
      by_cases same : other = flow
      · subst same
        have inBounds : other.toNat < 8 := by
          simp only [get?] at found
          exact (Vector.getElem?_eq_some_iff.mp found).1
        simp [get?, inBounds]
      · have apart : flow.toNat ≠ other.toNat := fun equal =>
          same (UInt8.toNat_inj.mp equal).symm
        simp [get?, same, apart]

end Slots

structure Station where
  address : MacAddress
  slots : Slots := .empty
  /-- Token of the action frame that was last taken up. -/
  dialogToken : UInt8 := 0
  /-- The pending request came in an action frame, so the answer leaves in one too. -/
  actionPending : Bool := false
deriving DecidableEq, Repr

namespace Station

def slot (flow : UInt8) (s : Station) : Except Error Slot :=
  match s.slots.get? flow with
  | some slot => .ok slot
  | none => .error (.invalidFlow flow)

def state (flow : UInt8) (s : Station) : AgreementState := s.slots.state flow

/-- Whether no flow has an agreement or is being negotiated. -/
def isIdle (s : Station) : Bool := s.slots.toList.all (·.state == .noAgreement)

end Station

end TargetWakeTime
