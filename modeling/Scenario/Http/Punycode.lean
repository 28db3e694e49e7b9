/-!
# Punycode

The letters of a host name outside ASCII are written as a series of differences between their places
in ascending order of code points, in base 36 with a threshold per digit that adapts to the text.
-/

namespace Scenario

namespace Http

namespace Punycode

/-- A digit: 26 letters, then ten digits. -/
def digit (d : Nat) : Char :=
  if d < 26 then Char.ofNat (0x61 + d) else Char.ofNat (0x16 + d)

/-- The threshold of the digit at place `k`. -/
def threshold (k bias : Nat) : Nat :=
  if k ≤ bias then 1 else if bias + 26 ≤ k then 26 else k - bias

theorem one_le_threshold (k bias : Nat) : 1 ≤ threshold k bias := by
  unfold threshold
  split
  · omega
  · split <;> omega

theorem threshold_le (k bias : Nat) : threshold k bias ≤ 26 := by
  unfold threshold
  split
  · omega
  · split <;> omega

/-- Divides a difference by 35 until it is small. -/
def shrink (delta k : Nat) : Nat × Nat :=
  if 455 < delta then shrink (delta / 35) (k + 36) else (delta, k)
termination_by delta
decreasing_by exact Nat.div_lt_self (by omega) (by omega)

/-- The bias after a difference. -/
def adapt (delta count : Nat) (first : Bool) : Nat :=
  let start := if first then delta / 700 else delta / 2
  let (rest, k) := shrink (start + start / count) 0
  k + 36 * rest / (rest + 38)

/-- The digits of a difference. -/
def digits (bias k q : Nat) : List Char :=
  let t := threshold k bias
  if q < t then [digit q]
  else digit (t + (q - t) % (36 - t)) :: digits bias (k + 36) ((q - t) / (36 - t))
termination_by q
decreasing_by
  have _h₁ := one_le_threshold k bias
  have _h₂ := threshold_le k bias
  calc (q - threshold k bias) / (36 - threshold k bias)
      ≤ q - threshold k bias := Nat.div_le_self _ _
    _ < q := by omega

/-- The state between two differences. -/
structure State where
  out : List Char
  delta : Nat
  bias : Nat
  handled : Nat

/-- One character of the text while the characters with code point `point` are written. -/
def scan (basic point : Nat) (state : State) (c : Char) : State :=
  if c.toNat < point then { state with delta := state.delta + 1 }
  else if c.toNat = point then
    { out := state.out ++ digits state.bias 36 state.delta
      delta := 0
      bias := adapt state.delta (state.handled + 1) (state.handled = basic)
      handled := state.handled + 1 }
  else state

/-- The code points in ascending order, from `next` on. -/
def scanPoints (text : List Char) (basic : Nat) : List Nat → Nat → State → State
  | [], _, state => state
  | point :: rest, next, state =>
    let ready := { state with delta := state.delta + (point - next) * (state.handled + 1) }
    let done := text.foldl (scan basic point) ready
    scanPoints text basic rest (point + 1) { done with delta := done.delta + 1 }

/-- **The form of a label** that has characters outside ASCII. -/
def encode (label : List Char) : List Char :=
  let plain := label.filter fun c => c.toNat < 0x80
  let points := ((label.filter fun c => 0x80 ≤ c.toNat).map Char.toNat).mergeSort.eraseDups
  let start : State := ⟨[], 0, 72, plain.length⟩
  let done := scanPoints label plain.length points 0x80 start
  plain ++ (if plain.isEmpty then [] else ['-']) ++ done.out

end Punycode

end Http

end Scenario
