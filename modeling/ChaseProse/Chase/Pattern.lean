import ChaseProse.Chase.Error
import ChaseProse.Text.Blank
import ChaseProse.Decimal.Read
/-! Null patterns `(1,-2,…)`: a marker per argument, negative for an existential null. -/
namespace ChaseProse.Chase
open ChaseProse.Text

structure Pattern where
  markers : List Int
  deriving DecidableEq, Repr

namespace Pattern

/-- Reads `(m1,…,mn)`: blanks around the text and the markers are allowed, each marker is a
signed 64-bit integer, and a blank inside gives the empty pattern. -/
def parse (text : String) : Except ChaseError Pattern :=
  let t := trimList text.toList
  match t.head?, t.getLast? with
  | some '(', some ')' =>
    if t.length < 2 then .error (.malformedPattern text)
    else
      let inner := (t.drop 1).dropLast
      if (trimList inner).isEmpty then .ok ⟨[]⟩
      else
        match (splitWhen (· == ',') inner).mapM
            (fun p => Decimal.readInt64? (String.ofList (trimList p))) with
        | some ms => .ok ⟨ms⟩
        | none => .error (.malformedPattern text)
  | _, _ => .error (.malformedPattern text)

def render (p : Pattern) : String := "(" ++ ",".intercalate (p.markers.map toString) ++ ")"

def arity (p : Pattern) : Nat := p.markers.length

/-- Whether the argument at `i` is a null; a position past the end is not. -/
def isNull (p : Pattern) (i : Nat) : Bool := (p.markers[i]?.map (fun m => decide (m < 0))).getD false

/-- Every position a constant. -/
def constants (n : Nat) : Pattern := ⟨List.replicate n 0⟩

end Pattern

end ChaseProse.Chase
