import TargetWakeTime.MacAddress

/-!
Contract: the name of an agreement, which is the station that owns it and its flow.
-/

namespace TargetWakeTime

structure AgreementKey where
  address : MacAddress
  flow : UInt8
deriving DecidableEq, Repr

/-- Address and flow, parted by a slash. -/
def AgreementKey.text (key : AgreementKey) : String :=
  s!"{key.address.text}/{key.flow}"

end TargetWakeTime
