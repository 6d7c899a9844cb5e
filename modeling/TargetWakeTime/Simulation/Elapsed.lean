/-!
Contract: the text of a span of time that is a whole number of milliseconds.

From a second on the text counts seconds, below it milliseconds; no time at all counts nanoseconds.
Decimals end with the last digit that is not zero.
-/

namespace TargetWakeTime.Simulation.Elapsed

/-- The decimals of a number of thousandths below a thousand, with the point before them. -/
def decimals (thousandths : Nat) : String :=
  let digits := [thousandths / 100 % 10, thousandths / 10 % 10, thousandths % 10]
  let kept := (digits.reverse.dropWhile (· == 0)).reverse
  if kept.isEmpty then "" else "." ++ String.join (kept.map toString)

def text (millis : Nat) : String :=
  if millis = 0 then "0ns"
  else if millis < 1000 then s!"{millis}ms"
  else s!"{millis / 1000}{decimals (millis % 1000)}s"

end TargetWakeTime.Simulation.Elapsed
