import CellGraph.Json.Double

/-!
# Numbers as written and as read

A `Numeral` is a number as it is written: digits, a fraction and an exponent. It is read as an integer where it is
written as one and is not too large, and as a floating point number otherwise. As many digits are read as make up a
number below `2 ^ 64`; the power of ten is applied last, so that the result may be off in its last place.
-/

namespace CellGraph.Json

/-- A number: an integer, or a floating point number. -/
inductive Number
  | integer (value : Int)
  | floating (value : Double)
  deriving DecidableEq, Repr

/-- A number as written. -/
structure Numeral where
  negative : Bool
  whole : List Nat
  fraction : List Nat
  exponent : Option Int
  deriving DecidableEq, Repr

namespace Numeral

/-- The greatest number that the digits of a numeral make up. -/
def maxSignificand : Nat := Nat.pow 2 64 - 1

/-- Reads digits onto a number as long as it stays in range: the number, and how many digits are left. -/
def readDigits : Nat → List Nat → Nat × Nat
  | n, [] => (n, 0)
  | n, d :: ds => if 10 * n + d > maxSignificand then (n, ds.length + 1) else readDigits (10 * n + d) ds

/-- Divides by `10 ^ 308` a number of times. -/
def shrink : Nat → Double → Double
  | 0, x => x
  | steps + 1, x =>
    if x.significand == 0 then x
    else shrink steps (((Double.ofRatio? false (Nat.pow 10 308) 1).bind x.div?).getD x)

/-- The floating point number `significand * 10 ^ exponent`, unless it is too large. -/
def scaled? (negative : Bool) (significand : Nat) (exponent : Int) : Option Double := do
  let x ← Double.ofRatio? negative significand 1
  match exponent with
  | .ofNat e =>
    if e ≤ 308 then x.mul? (← Double.ofRatio? false (Nat.pow 10 e) 1)
    else if significand == 0 then some x else none
  | .negSucc e => (shrink (e / 308) x).div? (← Double.ofRatio? false (Nat.pow 10 (e % 308 + 1)) 1)

/-- Reads a numeral, unless it is too large. -/
def number? (n : Numeral) : Option Number :=
  let (whole, left) := readDigits 0 n.whole
  if left == 0 && n.fraction.isEmpty && n.exponent.isNone && !(n.negative && (whole == 0 || whole > Nat.pow 2 63)) then
    some (.integer (if n.negative then -(whole : Int) else whole))
  else
    let (significand, skipped) := readDigits whole n.fraction
    let places : Int := (n.fraction.length : Int) - skipped
    (scaled? n.negative significand (left - places + n.exponent.getD 0)).map .floating

end Numeral

end CellGraph.Json
