import ChaseProse.Decimal.Shortest
/-! The binary64 value nearest to a fraction, ties to the even significand, so that the product
and the quotient of two floats are their exact values rounded once. -/
namespace ChaseProse.Decimal

/-- The word of positive infinity. -/
def infinityWord : Nat := 0x7FF0000000000000

/-- The quotient and remainder of `num / (den * 2 ^ e)`, with the divisor. -/
def scaleDown (num den : Nat) (e : Int) : Nat × Nat × Nat :=
  let (n, d) := if 0 ≤ e then (num, den * Nat.pow 2 e.toNat) else (num * Nat.pow 2 e.natAbs, den)
  (n / d, n % d, d)

/-- The word of the float nearest to `num / den` for a positive `den`, ties to the even
significand. The exponent estimate from the two logarithms puts the scaled value between
`2 ^ 51` and `2 ^ 53`; one test picks the exponent that puts it at `2 ^ 52` or above. -/
def nearestWord (num den : Nat) : Nat :=
  if num = 0 then 0
  else
    let e0 : Int := (num.log2 : Int) - (den.log2 : Int) - 52
    let e1 := if (scaleDown num den e0).1 < Nat.pow 2 52 then e0 - 1 else e0
    let e := max e1 (-1074)
    let (q, r, d) := scaleDown num den e
    let q := if 2 * r > d || (2 * r = d && q % 2 = 1) then q + 1 else q
    let (q, e) := if q = Nat.pow 2 53 then (Nat.pow 2 52, e + 1) else (q, e)
    if e > 971 then infinityWord
    else if q < Nat.pow 2 52 then q
    else (e + 1075).toNat * Nat.pow 2 52 + (q - Nat.pow 2 52)

/-- The exact value of a finite word; the sign bit is ignored. -/
def wordValue (w : Nat) : Frac :=
  let x := Binary.ofBits (UInt64.ofNat w)
  if 0 ≤ x.q then ⟨x.m * Nat.pow 2 x.q.toNat, 1⟩ else ⟨x.m, Nat.pow 2 x.q.natAbs⟩

/-- The product of two finite floats, rounded once. -/
def mulWord (a b : Nat) : Nat :=
  let x := wordValue a
  let y := wordValue b
  nearestWord (x.num * y.num) (x.den * y.den)

/-- The quotient of two finite floats, the divisor nonzero, rounded once. -/
def divWord (a b : Nat) : Nat :=
  let x := wordValue a
  let y := wordValue b
  nearestWord (x.num * y.den) (x.den * y.num)

/-- The word of the float nearest to `m * 10 ^ e`. A value of `10 ^ 309` or more is infinite
and one below `10 ^ -324` is zero, so those are not computed. -/
def decimalWord (m : Nat) (e : Int) : Nat :=
  let k := e + ((Nat.toDigits 10 m).length : Int)
  if m = 0 then 0
  else if k > 309 then infinityWord
  else if k < -323 then 0
  else
    let v := Frac.decimal m e
    nearestWord v.num v.den

/-- The float of a word for a magnitude, with the sign given apart. -/
def wordFloat (negative : Bool) (w : Nat) : Float :=
  Float.ofBits (UInt64.ofNat (if negative then w + Nat.pow 2 63 else w))

end ChaseProse.Decimal
