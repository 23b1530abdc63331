import ChaseProse.Decimal.Nearest
/-! Reading decimal numerals: signed 64-bit integers, and binary64 floats rounded to nearest,
ties to even. The float syntax takes an optional sign, then `inf`, `infinity` or `nan` in any
case, or digits with an optional point and an optional exponent (`5.`, `.5`, `1e-3`). -/
namespace ChaseProse.Decimal

/-- The value of a list of decimal digits. -/
def digitsValue (ds : List Char) : Nat :=
  ds.foldl (fun acc d => 10 * acc + (d.toNat - '0'.toNat)) 0

/-- A decimal number as written: a sign, a natural significand and a power of ten. -/
structure Scientific where
  negative : Bool
  significand : Nat
  exponent : Int

/-- The nearest binary64 value, ties to even; the sign applies to zero as well. -/
def Scientific.toFloat (d : Scientific) : Float :=
  wordFloat d.negative (decimalWord d.significand d.exponent)

/-- Splits an optional leading `+` or `-`; the flag is set for `-`. -/
def splitSign : List Char → Bool × List Char
  | '-' :: cs => (true, cs)
  | '+' :: cs => (false, cs)
  | cs => (false, cs)

/-- Digits, an optional point with digits, and an optional exponent, with at least one digit
before the exponent; the numeral must end there. -/
def readUnsigned? (cs : List Char) : Option (Nat × Int) :=
  let whole := cs.takeWhile Char.isDigit
  let rest := cs.dropWhile Char.isDigit
  let (frac, rest) :=
    match rest with
    | '.' :: r => (r.takeWhile Char.isDigit, r.dropWhile Char.isDigit)
    | r => ([], r)
  if whole.isEmpty && frac.isEmpty then none
  else
    let exp? : Option Int :=
      match rest with
      | [] => some 0
      | e :: r =>
        if e == 'e' || e == 'E' then
          let (neg, ds) := splitSign r
          if ds.isEmpty || !ds.all Char.isDigit then none
          else some (if neg then -(digitsValue ds : Int) else digitsValue ds)
        else none
    exp?.map fun x => (digitsValue (whole ++ frac), x - frac.length)

/-- Reads a float numeral; `none` when the text is not one. -/
def readFloat? (s : String) : Option Float :=
  let (neg, cs) := splitSign s.toList
  let word := String.ofList (cs.map Char.toLower)
  if word == "inf" || word == "infinity" then
    some (if neg then -(1.0 / 0.0) else 1.0 / 0.0)
  else if word == "nan" then some (0.0 / 0.0)
  else (readUnsigned? cs).map fun (m, e) => Scientific.toFloat ⟨neg, m, e⟩

/-- Reads a signed 64-bit integer numeral: an optional sign and ASCII digits, in range. -/
def readInt64? (s : String) : Option Int :=
  let (neg, ds) := splitSign s.toList
  if ds.isEmpty || !ds.all Char.isDigit then none
  else
    let v : Int := if neg then -(digitsValue ds : Int) else digitsValue ds
    if -Int.pow 2 63 ≤ v && v < Int.pow 2 63 then some v else none

end ChaseProse.Decimal
