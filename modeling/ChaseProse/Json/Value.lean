/-! JSON documents. A number keeps the text it was written with: readers of a field decide
what kind of number it must be. -/
namespace ChaseProse.Json

inductive Value where
  | null
  | bool (b : Bool)
  | num (text : String)
  | str (s : String)
  | arr (items : List Value)
  | obj (fields : List (String × Value))
  deriving Inhabited

namespace Value

/-- The value of the last field named `key`, as a later duplicate overrides an earlier one. -/
def field? (v : Value) (key : String) : Option Value :=
  match v with
  | .obj fs => (fs.reverse.find? (·.1 == key)).map (·.2)
  | _ => none

def str? : Value → Option String
  | .str s => some s
  | _ => none

def arr? : Value → Option (List Value)
  | .arr xs => some xs
  | _ => none

/-- A natural number as a document number. -/
def ofNat (n : Nat) : Value := .num (toString n)

/-- A list of texts as an array of strings. -/
def ofStrings (xs : List String) : Value := .arr (xs.map .str)

end Value

end ChaseProse.Json
