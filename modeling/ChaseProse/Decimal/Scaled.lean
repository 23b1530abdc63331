import ChaseProse.Decimal.Nearest
import ChaseProse.Decimal.Read
/-! Reading a JSON numeral the quick way: a 64-bit significand scaled by powers of ten, rounded
at each step, so at times one unit in the last place off (`1e-30` is `9.999999999999999e-31`). -/
namespace ChaseProse.Decimal

/-- The largest 64-bit unsigned integer. -/
def wordMax : Nat := Nat.pow 2 64 - 1

/-- The largest 32-bit signed integer. -/
def exponentMax : Nat := Nat.pow 2 31 - 1

/-- Whether appending the digit `d` to `n` passes `limit`. -/
def overflows (n d limit : Nat) : Bool :=
  n ≥ limit / 10 && (n > limit / 10 || d > limit % 10)

def digitValue (c : Char) : Nat := c.toNat - '0'.toNat

/-- Integer digits, folded while the significand stays within 64 bits; from the first that does
not fit, each digit raises the exponent instead. -/
def integerPart : Nat → Int → Bool → List Nat → Nat × Int
  | s, x, _, [] => (s, x)
  | s, x, spilled, d :: ds =>
    if spilled || overflows s d wordMax then integerPart s (x + 1) true ds
    else integerPart (10 * s + d) x false ds

/-- Fraction digits, each lowering the exponent as it is folded in; from the first that does not
fit, the rest are dropped. -/
def fractionPart : Nat → Int → List Nat → Nat × Int
  | s, x, [] => (s, x)
  | s, x, d :: ds => if overflows s d wordMax then (s, x) else fractionPart (10 * s + d) (x - 1) ds

/-- Exponent digits folded while they fit 31 bits; `none` once one does not. -/
def exponentValue : Nat → List Nat → Option Nat
  | e, [] => some e
  | e, d :: ds => if overflows e d exponentMax then none else exponentValue (10 * e + d) ds

/-- Clamps to the 32-bit signed range. -/
def saturate (x : Int) : Int := max (-(Nat.pow 2 31 : Int)) (min x exponentMax)

/-- The word of the nearest float to `10 ^ k`. -/
def powerWord (k : Nat) : Nat := nearestWord (Nat.pow 10 k) 1

/-- The float word `f` scaled by `10 ^ x`, one power of at most `10 ^ 308` per step, rounding
each time; `none` when a product is infinite or the exponent is past every power. After two
divisions by `10 ^ 308` every float is zero, so four steps always suffice. -/
def scaleWord (f : Nat) (x : Int) : Nat → Option Nat
  | 0 => some f
  | fuel + 1 =>
    if x.natAbs ≤ 308 then
      if 0 ≤ x then
        let g := mulWord f (powerWord x.toNat)
        if g = infinityWord then none else some g
      else some (divWord f (powerWord x.natAbs))
    else if f = 0 then some 0
    else if 0 ≤ x then none
    else scaleWord (divWord f (powerWord 308)) (x + 308) fuel

/-- The float of a numeral of the JSON grammar, read the quick way; `none` when its value is
too large for a float. -/
def scaledFloat? (text : String) : Option Float :=
  let (negative, cs) := splitSign text.toList
  let (s, x) := integerPart 0 0 false ((cs.takeWhile Char.isDigit).map digitValue)
  let rest := cs.dropWhile Char.isDigit
  let (s, x, rest) :=
    match rest with
    | '.' :: r =>
      let (s, x) := fractionPart s x ((r.takeWhile Char.isDigit).map digitValue)
      (s, x, r.dropWhile Char.isDigit)
    | r => (s, x, r)
  let word? : Option Nat :=
    match rest with
    | e :: r =>
      if e == 'e' || e == 'E' then
        let (down, ds) := splitSign r
        match exponentValue 0 (ds.map digitValue) with
        | some v => scaleWord (nearestWord s 1) (saturate (if down then x - v else x + v)) 4
        | none => if s ≠ 0 && !down then none else some 0
      else scaleWord (nearestWord s 1) x 4
    | [] => scaleWord (nearestWord s 1) x 4
  word?.map (wordFloat negative)

end ChaseProse.Decimal
