import ChaseProse.Prose.Dictionary
import ChaseProse.Chase.Pattern
import ChaseProse.Config
/-! Filling a template: a placeholder word becomes the fact's argument, and a null is introduced by
the null phrase the first time a sentence meets it. -/
namespace ChaseProse.Prose
open ChaseProse.Chase

def isWordChar (c : Char) : Bool := Text.isAlnum c || c == '_'

/-- A description cut into words and single other characters. -/
inductive Piece where
  | word (w : String)
  | other (c : Char)

def piecesOf : List Char → List Piece
  | [] => []
  | c :: cs =>
    if isWordChar c then
      match piecesOf cs with
      | .word w :: rest => .word (String.ofList [c] ++ w) :: rest
      | rest => .word (String.ofList [c]) :: rest
    else .other c :: piecesOf cs

/-- The nulls a sentence has introduced so far. -/
abbrev NullTracker := List String

/-- The text for the word `w`, or `none` when it is no placeholder; introduces a null. -/
def fillWord (cfg : Config) (t : Template) (f : Fact) (p : Pattern) (seen : NullTracker)
    (w : String) : Option (String × NullTracker) := do
  let pos ← t.positionOf? w
  let value := unquote (← f.arg? pos)
  if p.isNull pos && !seen.contains value then
    return (cfg.nullPhraseFor value, seen ++ [value])
  match t.kind pos with
  | .entity => return ("\"" ++ value ++ "\"", seen)
  | .value => return (value, seen)

def fill (cfg : Config) (t : Template) (f : Fact) (p : Pattern) :
    List Piece → NullTracker → String × NullTracker
  | [], seen => ("", seen)
  | .other c :: rest, seen =>
    let (s, seen) := fill cfg t f p rest seen
    (String.ofList [c] ++ s, seen)
  | .word w :: rest, seen =>
    let (text, seen) := (fillWord cfg t f p seen w).getD (w, seen)
    let (s, seen) := fill cfg t f p rest seen
    (text ++ s, seen)

/-- The sentence for a fact, or `none` without a template for its predicate and arity. -/
def describe (cfg : Config) (d : Dictionary) (f : Fact) (p : Pattern) (seen : NullTracker) :
    Option (String × NullTracker) :=
  (d.lookup? f.predicate f.arity).map fun t => fill cfg t f p (piecesOf t.description.toList) seen

/-- The sentence for a fact, or its compact text without a template. -/
def describeOrLiteral (cfg : Config) (d : Dictionary) (f : Fact) (p : Pattern)
    (seen : NullTracker) : String × NullTracker :=
  (describe cfg d f p seen).getD (f.render, seen)

end ChaseProse.Prose
