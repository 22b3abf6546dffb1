/-!
# Binary floating point numbers

A `Double` is a number with a significand of at most 53 bits and a power of two. `Double.ofRatio?` rounds a quotient
to the nearest one, to an even significand where two are as near, and gives nothing for what is too large. `text`
writes a number with the fewest digits that still tell it from its neighbours, always in positional notation.
-/

namespace CellGraph.Json

/-- A quotient rounded to the nearest natural number, and to the even one of two that are as near. -/
def roundDiv (num den : Nat) : Nat :=
  let quotient := num / den
  let rest := num % den
  if 2 * rest > den || (2 * rest == den && quotient % 2 == 1) then quotient + 1 else quotient

/-- The numerator and denominator of `num / (den * 2 ^ exponent)`. -/
def scaleDown (num den : Nat) : Int → Nat × Nat
  | .ofNat e => (num, den * Nat.pow 2 e)
  | .negSucc e => (num * Nat.pow 2 (e + 1), den)

/-- A floating point number: `significand * 2 ^ exponent`, with a sign. -/
structure Double where
  negative : Bool
  significand : Nat
  exponent : Int
  deriving DecidableEq, Repr

namespace Double

/-- The least exponent of a floating point number. -/
def minExponent : Int := -1074

/-- The greatest exponent of a floating point number. -/
def maxExponent : Int := 971

/-- Zero, with a sign. -/
def zero (negative : Bool) : Double := ⟨negative, 0, minExponent⟩

/-- The floating point number nearest to `num / den`, unless that is too large. -/
def ofRatio? (negative : Bool) (num den : Nat) : Option Double :=
  if num == 0 then some (zero negative)
  else
    let guess : Int := (num.log2 : Int) - den.log2 - 52
    let (n, d) := scaleDown num den guess
    let exponent := max minExponent (if n / d < Nat.pow 2 52 then guess - 1 else guess)
    let (n, d) := scaleDown num den exponent
    let significand := roundDiv n d
    let (significand, exponent) :=
      if significand == Nat.pow 2 53 then (Nat.pow 2 52, exponent + 1) else (significand, exponent)
    if exponent > maxExponent then none else some ⟨negative, significand, exponent⟩

/-- A number as a quotient, apart from its sign. -/
def ratio (x : Double) : Nat × Nat :=
  match x.exponent with
  | .ofNat e => (x.significand * Nat.pow 2 e, 1)
  | .negSucc e => (x.significand, Nat.pow 2 (e + 1))

/-- The product of two numbers, rounded. -/
def mul? (x y : Double) : Option Double :=
  ofRatio? (x.negative != y.negative) (x.ratio.1 * y.ratio.1) (x.ratio.2 * y.ratio.2)

/-- The quotient of two numbers, rounded. -/
def div? (x y : Double) : Option Double :=
  ofRatio? (x.negative != y.negative) (x.ratio.1 * y.ratio.2) (x.ratio.2 * y.ratio.1)

/-- The decimal digits of a natural number. -/
def digits (n : Nat) : List Char := Nat.toDigits 10 n

/-- The position of the first decimal digit of a quotient, counted from the point. -/
def magnitude (num den : Nat) : Int :=
  if num ≥ den then (digits (num / den)).length else 1 - (digits (den / num)).length

/-- A decimal `c * 10 ^ k`, at most `steps` places below the place `k`, that no other number is as near to as
`num / den`, whose neighbourhood is `below / den` to `above / den`, the ends included if `closed`. -/
def shortest (num below above den : Nat) (closed : Bool) : Nat → Int → Nat × Int
  | 0, k => (0, k)
  | steps + 1, k =>
    let (unit, shift) : Nat × Nat := match k with
      | .ofNat k => (Nat.pow 10 k, 1)
      | .negSucc k => (1, Nat.pow 10 (k + 1))
    let inside (c : Nat) : Bool :=
      let x := c * unit * den
      if closed then below * shift ≤ x && x ≤ above * shift else below * shift < x && x < above * shift
    let down := num * shift / (unit * den)
    let rest := num * shift % (unit * den)
    if inside down && (2 * rest ≤ unit * den || !inside (down + 1)) then (down, k)
    else if inside (down + 1) then (down + 1, k)
    else shortest num below above den closed steps (k - 1)

/-- The decimal `c * 10 ^ k` in positional notation, with at least one digit after the point. -/
def positional (c : Nat) : Int → List Char
  | .ofNat k => digits c ++ List.replicate k '0' ++ ['.', '0']
  | .negSucc k =>
    let ds := digits c
    let ds := List.replicate (k + 2 - ds.length) '0' ++ ds
    ds.take (ds.length - (k + 1)) ++ '.' :: ds.drop (ds.length - (k + 1))

/-- A number in positional notation, with the fewest digits that tell it from its neighbours. -/
def text (x : Double) : String :=
  let written :=
    if x.significand == 0 then ['0', '.', '0']
    else
      let (num, den) := (⟨false, 4 * x.significand, x.exponent - 2⟩ : Double).ratio
      let unit := (⟨false, 1, x.exponent - 2⟩ : Double).ratio.1
      let lower := if x.significand == Nat.pow 2 52 && x.exponent > minExponent then unit else 2 * unit
      let (c, k) := shortest num (num - lower) (num + 2 * unit) den (x.significand % 2 == 0) 24 (magnitude num den)
      positional c k
  .ofList (if x.negative then '-' :: written else written)

end Double

end CellGraph.Json
