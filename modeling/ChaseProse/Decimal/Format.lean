import ChaseProse.Decimal.Shortest
/-! Float text from the shortest digits, as documents write it (`.0` on whole values, an exponent
outside `1e-5 ≤ |x| < 1e16`) and as messages write it (positional digits). -/
namespace ChaseProse.Decimal

/-- How finite values are written: the range of the decimal point position `k`
(`10 ^ (k - 1) ≤ |x| < 10 ^ k`) written positionally, the ending of whole values, and whether a
tie between two shortest forms goes to the upper one. -/
structure Style where
  positional : Int → Bool
  wholeSuffix : String
  tiesUp : Bool

/-- Document numbers: positional for `-5 < k ≤ 16`, `.0` after whole values, ties to even. -/
def documentStyle : Style := ⟨fun k => -5 < k && k ≤ 16, ".0", false⟩

/-- Message numbers: always positional, whole values bare, ties up. -/
def messageStyle : Style := ⟨fun _ => true, "", true⟩

def zeros (n : Nat) : String := String.ofList (List.replicate n '0')

/-- Digits `ds` of the value `0.ds * 10 ^ k` written out by `style`. -/
def layout (style : Style) (ds : List Char) (k : Int) : String :=
  let n := ds.length
  if style.positional k then
    if n ≤ k then String.ofList ds ++ zeros (k.toNat - n) ++ style.wholeSuffix
    else if 0 < k then
      String.ofList (ds.take k.toNat) ++ "." ++ String.ofList (ds.drop k.toNat)
    else "0." ++ zeros k.natAbs ++ String.ofList ds
  else
    let mark := if k - 1 < 0 then "e-" else "e"
    let expText := mark ++ toString (k - 1).natAbs
    match ds with
    | [d] => String.ofList [d] ++ expText
    | d :: rest => String.ofList [d] ++ "." ++ String.ofList rest ++ expText
    | [] => "0" ++ expText

/-- The text of a finite float in `style`, with `-` for a set sign bit (so `-0.0` keeps it). -/
def finiteText (style : Style) (x : Float) : String :=
  let bits := x.toBits
  let sign := if bits.toNat ≥ Nat.pow 2 63 then "-" else ""
  let b := Binary.ofBits bits
  if b.m = 0 then sign ++ "0" ++ style.wholeSuffix
  else
    let (t, j) := b.shortest style.tiesUp
    let ds := Nat.toDigits 10 t
    sign ++ layout style ds (j + ds.length)

/-- Message text of any float: `NaN`, `inf` and `-inf` for the non-finite ones. -/
def messageText (x : Float) : String :=
  if x.isNaN then "NaN"
  else if x.isInf then (if x < 0 then "-inf" else "inf")
  else finiteText messageStyle x

end ChaseProse.Decimal
