import ChaseProse.Json.Value
import ChaseProse.Decimal.Scaled
import ChaseProse.Decimal.Format
/-! How typed fields read a document number. A numeral without point or exponent is an integer
when it fits 64 bits (unsigned, or signed when negative); anything else, `-0` included, is a
float. -/
namespace ChaseProse.Json

inductive NumberKind where
  | unsigned (n : Nat)
  | negative (n : Int)
  | float
  deriving DecidableEq, Repr

def numberKind (text : String) : NumberKind :=
  let cs := text.toList
  if cs.any (fun c => c == '.' || c == 'e' || c == 'E') then .float
  else
    match cs with
    | '-' :: ds =>
      let v := Decimal.digitsValue ds
      if v = 0 || v > Nat.pow 2 63 then .float else .negative (-(v : Int))
    | ds =>
      let v := Decimal.digitsValue ds
      if v < Nat.pow 2 64 then .unsigned v else .float

/-- A signed 64-bit integer field. -/
def Value.int64? : Value → Option Int
  | .num t =>
    match numberKind t with
    | .unsigned n => if n < Nat.pow 2 63 then some n else none
    | .negative n => some n
    | .float => none
  | _ => none

/-- A float field: every number is read the quick way of documents. -/
def Value.float? : Value → Option Float
  | .num t => Decimal.scaledFloat? t
  | _ => none

/-- A number as a document reader keeps it: an integer of 64 bits as written, any other number
as the text of its float read the quick way. -/
def numberAsRead (t : String) : String :=
  match numberKind t with
  | .float => ((Decimal.scaledFloat? t).map (Decimal.finiteText Decimal.documentStyle)).getD t
  | _ => t

mutual
/-- The value a document reader keeps, every number as `numberAsRead` has it. -/
def Value.asRead : Value → Value
  | .num t => .num (numberAsRead t)
  | .arr xs => .arr (asReadItems xs)
  | .obj fs => .obj (asReadFields fs)
  | v => v
def asReadItems : List Value → List Value
  | [] => []
  | x :: xs => x.asRead :: asReadItems xs
def asReadFields : List (String × Value) → List (String × Value)
  | [] => []
  | (k, v) :: fs => (k, v.asRead) :: asReadFields fs
end

end ChaseProse.Json
