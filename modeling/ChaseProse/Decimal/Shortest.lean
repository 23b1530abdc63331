/-! The shortest decimal form of a binary64 value: the fewest significant digits that read back
to the same float, and of two such the nearer, found by an exact search over fractions. -/
namespace ChaseProse.Decimal

/-- A nonnegative fraction `num / den`. -/
structure Frac where
  num : Nat
  den : Nat

namespace Frac

def lt (a b : Frac) : Bool := a.num * b.den < b.num * a.den

def le (a b : Frac) : Bool := a.num * b.den ≤ b.num * a.den

/-- The fraction `t * 10 ^ j`. -/
def decimal (t : Nat) (j : Int) : Frac :=
  if 0 ≤ j then ⟨t * Nat.pow 10 j.toNat, 1⟩ else ⟨t, Nat.pow 10 j.natAbs⟩

/-- The floor `⌊a / b⌋` for a positive `b`. -/
def floorDiv (a b : Frac) : Nat := (a.num * b.den) / (a.den * b.num)

end Frac

/-- A finite float without its sign, as significand `m` and binary exponent `q`
(value `m * 2 ^ q`), with the flag telling that the gap below is half the gap above. -/
structure Binary where
  m : Nat
  q : Int
  narrowBelow : Bool

/-- Splits the bits of a finite float. -/
def Binary.ofBits (bits : UInt64) : Binary :=
  let b := bits.toNat
  let f : Nat := b % Nat.pow 2 52
  let e : Nat := (b / Nat.pow 2 52) % Nat.pow 2 11
  if e = 0 then ⟨f, -1074, false⟩ else ⟨f + Nat.pow 2 52, (e : Int) - 1075, f == 0 && e > 1⟩

/-- The value, and the ends of the interval of reals that round to it, over one denominator. -/
def Binary.bounds (x : Binary) : Frac × Frac × Frac :=
  let den := if 0 ≤ x.q then 4 else 4 * Nat.pow 2 x.q.natAbs
  let s := if 0 ≤ x.q then Nat.pow 2 x.q.toNat else 1
  (⟨4 * x.m * s, den⟩, ⟨(if x.narrowBelow then 4 * x.m - 1 else 4 * x.m - 2) * s, den⟩,
    ⟨(4 * x.m + 2) * s, den⟩)

/-- The exponent `k` with `10 ^ k ≤ v < 10 ^ (k + 1)`, from an estimate that is off by at
most a few steps. -/
def decimalExponent (v : Frac) (est : Int) : Nat → Int
  | 0 => est
  | fuel + 1 =>
    if (Frac.decimal 1 (est + 1)).le v then decimalExponent v (est + 1) fuel
    else if v.lt (Frac.decimal 1 est) then decimalExponent v (est - 1) fuel
    else est

/-- Removes trailing zero digits, raising the exponent for each. -/
def stripZeros (t : Nat) (j : Int) : Nat → Nat × Int
  | 0 => (t, j)
  | fuel + 1 => if t ≠ 0 ∧ t % 10 = 0 then stripZeros (t / 10) (j + 1) fuel else (t, j)

/-- Digits `t` and exponent `j` (value `t * 10 ^ j`) of the shortest decimal that reads back
to the positive finite value `x`: for `n = 1, 2, …` the two neighbours of the value on the grid
of `n` significant digits are tried, the nearer first. When the value lies halfway between two
that both read back, `tiesUp` takes the upper one; otherwise the one with the even last digit
is taken. -/
def Binary.shortest (x : Binary) (tiesUp : Bool) : Nat × Int :=
  let (v, lo, hi) := x.bounds
  let inside (c : Frac) : Bool :=
    if x.m % 2 = 0 then lo.le c && c.le hi else lo.lt c && c.lt hi
  let est : Int := ((Nat.log2 x.m : Int) + x.q) * 30103 / 100000
  let e := decimalExponent v est 8
  let atDigits (n : Nat) : Option (Nat × Int) :=
    let j := e - n + 1
    let t := Frac.floorDiv v (Frac.decimal 1 j)
    let down := inside (Frac.decimal t j)
    let up := inside (Frac.decimal (t + 1) j)
    -- twice the value against the midpoint of the two neighbours
    let twice : Frac := ⟨2 * v.num, v.den⟩
    let mid := Frac.decimal (2 * t + 1) j
    if down && up then
      if twice.lt mid then some (t, j)
      else if mid.lt twice then some (t + 1, j)
      else if !tiesUp && t % 2 = 0 then some (t, j) else some (t + 1, j)
    else if down then some (t, j)
    else if up then some (t + 1, j)
    else none
  let (t, j) :=
    match (List.range 17).findSome? (fun i => atDigits (i + 1)) with
    | some r => r
    | none => (Frac.floorDiv v (Frac.decimal 1 (e - 16)), e - 16)
  stripZeros t j 20

/-- Digits of a natural number, most significant first. -/
def digitChars (n : Nat) : List Char := (Nat.toDigits 10 n)

end ChaseProse.Decimal
