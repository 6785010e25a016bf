import GoFabric.Framework.Float64

/-!
# Gradual changes of attributes (`cluster/transition/transition.go`)

A finite `float64` is its value, and each operation rounds its result; `math.Abs`
and a change of sign are exact.
-/

namespace GF.Impl.Transition

/-! ## Cyclic values -/

def directionalDistance (current target rate minValue maxValue : ℚ) : ℚ :=
  if rate > 0 then
    if current > target then float64 (|float64 (current - maxValue)| + |float64 (maxValue - target)|)
    else |float64 (current - target)|
  else if current < target then float64 (|float64 (current - minValue)| + |float64 (minValue - target)|)
  else |float64 (current - target)|

inductive HueDirection
  | shortest
  | longest
  | up
  | down
  | unknown
deriving DecidableEq

def hueDistance (current target : ℚ) (direction : HueDirection) (maxHue : ℚ) : ℚ :=
  let distance :=
    if target > current then float64 (target - current)
    else float64 (float64 (float64 (maxHue + target) + 1) - current)
  if distance = 0 then 0
  else
    match direction with
    | .up => distance
    | .down => -float64 (maxHue - distance)
    | .shortest => if |distance| > float64 (maxHue / 2) then -float64 (maxHue - distance) else distance
    | .longest => if |distance| > float64 (maxHue / 2) then distance else -float64 (maxHue - distance)
    | .unknown => 0

/-- `addWithOverflow`, which is `AddWithOverflow`. -/
def addWithOverflow (value add minValue maxValue : ℚ) : ℚ :=
  let v := float64 (value + add)
  if v < minValue then float64 (float64 (v - minValue) + maxValue)
  else if v > maxValue then float64 (float64 (v - maxValue) + minValue)
  else v

end GF.Impl.Transition
