/-!
Contract: the stages of one flow's negotiation.
-/

namespace TargetWakeTime

/-- Where the negotiation of one flow stands. -/
inductive AgreementState where
  | noAgreement
  | considerRequest
  | considerSuggest
  | considerDemand
  | considerGrouping
  | agreement
deriving DecidableEq, Repr, Inhabited

namespace AgreementState

/-- Whether an answer is still owed. -/
def isConsidering : AgreementState → Bool
  | considerRequest | considerSuggest | considerDemand | considerGrouping => true
  | noAgreement | agreement => false

def name : AgreementState → String
  | noAgreement => "NO_AGREEMENT"
  | considerRequest => "CONSIDER_REQUEST"
  | considerSuggest => "CONSIDER_SUGGEST"
  | considerDemand => "CONSIDER_DEMAND"
  | considerGrouping => "CONSIDER_GROUPING"
  | agreement => "AGREEMENT"

def all : List AgreementState :=
  [noAgreement, considerRequest, considerSuggest, considerDemand, considerGrouping, agreement]

/-- The state of this name. -/
def ofName? (name : String) : Option AgreementState :=
  all.find? (·.name == name)

end AgreementState

end TargetWakeTime
