import GoFabric.Framework.Machine
import Mathlib.Algebra.Ring.Int.Defs

/-!
# The reception window (`transport/mrp/window.go`)

The highest counter seen is kept apart from the bitmap, whose bit `i` records
whether counter `max - (i + 1)` was received. The three constructors differ
in how a distance is folded (`Window.diff`) and in the bitmap the window
starts with when it anchors on its first counter.
-/

namespace GF.Impl.Mrp

/-- `windowSize`: how many counters below the maximum are tracked. -/
def windowSize : Int := 32

/-- `maxCounter32`: the largest 32-bit message counter. -/
def maxCounter32 : Int := 0xFFFFFFFF

/-- `maxCounterIncrease2pow31`: the half-range that splits ahead from
behind for a rolling counter. -/
def maxCounterIncrease2pow31 : Int := 2 ^ 31

/-- `Window`, without its mutex: `accept` is one critical section. -/
structure Window where
  initialBitmap : BitVec 32
  max : BitVec 32
  bitmap : BitVec 32
  primed : Bool
  rollover : Bool
  encRollover : Bool

/-- `NewWindow`: unsecured sessions. -/
def newWindow : Window :=
  { initialBitmap := 0, max := 0, bitmap := 0, primed := false, rollover := true, encRollover := false }

/-- `NewWindowNoRollover`: secure sessions. -/
def newWindowNoRollover : Window :=
  { initialBitmap := ~~~0#32, max := 0, bitmap := 0, primed := false, rollover := false,
    encRollover := false }

/-- `NewWindowEncryptedRollover`: group messages. -/
def newWindowEncryptedRollover : Window :=
  { initialBitmap := ~~~0#32, max := 0, bitmap := 0, primed := false, rollover := false,
    encRollover := true }

/-- `diff`: the signed distance between `c` and the maximum. -/
def Window.diff (w : Window) (c : BitVec 32) : Int :=
  let d : Int := (c.toNat : Int) - (w.max.toNat : Int)
  if w.encRollover then
    if d > 0 ∧ d ≥ maxCounterIncrease2pow31 then d - (maxCounter32 + 1)
    else if d < 0 ∧ d < -maxCounterIncrease2pow31 then d + (maxCounter32 + 1)
    else d
  else if !w.rollover then d
  else if d > 0 ∧ maxCounter32 - d < windowSize then d - (maxCounter32 + 1)
  else if d < -windowSize then d + (maxCounter32 + 1)
  else d

/-- `Accept`: records a received counter, and whether it is fresh. -/
def Window.accept (w : Window) (c : BitVec 32) : Bool × Window :=
  if !w.primed then (true, { w with max := c, bitmap := w.initialBitmap, primed := true })
  else if c = w.max then (false, w)
  else
    let d := w.diff c
    if d < 0 then
      if d < -windowSize then (false, w)
      else
        let bit := 1#32 <<< (-d - 1).toNat
        if w.bitmap &&& bit ≠ 0#32 then (false, w) else (true, { w with bitmap := w.bitmap ||| bit })
    else if d ≤ windowSize then
      -- a shift by the whole width is spelled out, as the source does
      let shifted := if d < windowSize then w.bitmap <<< d.toNat else 0#32
      (true, { w with bitmap := shifted ||| (1#32 <<< (d - 1).toNat), max := c })
    else (true, { w with bitmap := 0#32, max := c })

/-- The amounts of the shifts that `Accept` makes for a counter: Go takes them signed and
stops on a negative one. -/
def Window.shifts (w : Window) (c : BitVec 32) : List Int :=
  if !w.primed then []
  else if c = w.max then []
  else
    let d := w.diff c
    if d < 0 then
      if d < -windowSize then [] else [-d - 1]
    else if d ≤ windowSize then (if d < windowSize then [d] else []) ++ [d - 1]
    else []

/-- How far `Accept` of a counter moves the maximum of a window that is anchored. -/
def Window.advance (w : Window) (c : BitVec 32) : Int := if 0 < w.diff c then w.diff c else 0

/-- A jump: an accepted distance of more than the size of the window. -/
def Window.Jumps (w : Window) (c : BitVec 32) : Prop := w.primed = true ∧ windowSize < w.diff c

/-- A window as a machine: counters in, verdicts out. -/
def windowMachine : Machine Window (BitVec 32) Bool where
  step := Window.accept

/-- How far the counters move the maximum of an anchored window together. -/
def Window.travel (w : Window) : List (BitVec 32) → Int
  | [] => 0
  | c :: cs => w.advance c + travel (w.accept c).2 cs

/-- No counter of the run makes the window jump. -/
def Window.Smooth (w : Window) : List (BitVec 32) → Prop
  | [] => True
  | c :: cs => ¬ w.Jumps c ∧ Smooth (w.accept c).2 cs

end GF.Impl.Mrp
