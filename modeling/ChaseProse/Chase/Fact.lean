import ChaseProse.Chase.Text
import ChaseProse.Chase.Error
import ChaseProse.Text.Alnum
import ChaseProse.Decimal.Read
/-! Facts as the trace writes them, `pred(a1,…,an)`, or a bare `pred` for arity zero.
Main statement to come: the compact form parses back to the same fact. -/
namespace ChaseProse.Chase
open ChaseProse.Text

/-- A ground fact: a predicate name and argument texts as written. -/
structure Fact where
  predicate : String
  args : List String
  deriving DecidableEq, Repr

/-- Predicate names: letters, digits, `_`, `:` and `-`. -/
def isSymbolChar (c : Char) : Bool := isAlnum c || c == '_' || c == ':' || c == '-'

def isSymbol (cs : List Char) : Bool := cs.all isSymbolChar

namespace Fact

/-- Reads a fact text. The predicate stands before the first `(` and the text must end with
`)`; the arguments are the top-level pieces in between, none when that part is blank. -/
def parse (text : String) : Except ChaseError Fact :=
  let t := trimList text.toList
  let shown := String.ofList t
  if t.contains '(' then
    let pred := trimList (t.takeWhile (· != '('))
    let inner := ((t.dropWhile (· != '(')).drop 1).dropLast
    if pred.isEmpty || !isSymbol pred then .error (.malformedFact shown .missingPredicate)
    else if t.getLast? != some ')' then .error (.malformedFact shown .unterminated)
    else
      let args := if (trimList inner).isEmpty then [] else splitTopLevel (String.ofList inner)
      .ok ⟨String.ofList pred, args⟩
  else if t.isEmpty || !isSymbol t then .error (.malformedFact shown .missingPredicate)
  else .ok ⟨shown, []⟩

/-- The compact form `pred(a1,…,an)`, with `pred()` for arity zero. -/
def render (f : Fact) : String := f.predicate ++ "(" ++ ",".intercalate f.args ++ ")"

def arity (f : Fact) : Nat := f.args.length

def arg? (f : Fact) (i : Nat) : Option String := f.args[i]?

/-- The argument at `i` read as a float after dropping its quotes and blanks. -/
def numericArg? (f : Fact) (i : Nat) : Option Float :=
  (f.arg? i).bind fun a => Decimal.readFloat? (trim (unquote a))

end Fact

end ChaseProse.Chase
