import ChaseProse.Text.Blank
/-! The text rules of trace entries: commas split only at the top level (outside quotes and
brackets), one pair of surrounding quotes may be dropped, and a predicate is the part before
the first parenthesis. -/
namespace ChaseProse.Chase
open ChaseProse.Text

/-- Scanner state before a character: bracket depth and whether a quote is open. -/
structure Scan where
  depth : Nat
  quoted : Bool
  deriving DecidableEq

/-- A quote toggles the quote state; outside quotes `(` and `[` open a level and `)` and `]`
close one, never below zero. -/
def Scan.step (s : Scan) (c : Char) : Scan :=
  if c == '"' then { s with quoted := !s.quoted }
  else if s.quoted then s
  else if c == '(' || c == '[' then { s with depth := s.depth + 1 }
  else if c == ')' || c == ']' then { s with depth := s.depth - 1 }
  else s

/-- A comma splits when it stands outside quotes at depth zero. -/
def Scan.splits (s : Scan) (c : Char) : Bool := c == ',' && !s.quoted && s.depth == 0

def Scan.start : Scan := ⟨0, false⟩

/-- The pieces between the splitting commas, untrimmed. -/
def pieces (s : Scan) : List Char → List (List Char)
  | [] => [[]]
  | c :: cs =>
    if s.splits c then [] :: pieces s cs
    else
      match pieces (s.step c) cs with
      | [] => [[c]]
      | p :: ps => (c :: p) :: ps

/-- The trimmed pieces between the top-level commas; the empty text gives one empty piece. -/
def splitTopLevel (text : String) : List String :=
  (pieces Scan.start text.toList).map fun p => String.ofList (trimList p)

/-- Drops one pair of surrounding double quotes from the trimmed text. -/
def unquoteList (cs : List Char) : List Char :=
  let t := trimList cs
  if 2 ≤ t.length && t.head? == some '"' && t.getLast? == some '"' then (t.drop 1).dropLast
  else t

def unquote (text : String) : String := String.ofList (unquoteList text.toList)

/-- The trimmed text before the first `(`, or the whole trimmed text. -/
def predicateOf (text : String) : String :=
  let t := trimList text.toList
  if t.contains '(' then String.ofList (trimList (t.takeWhile (· != '('))) else String.ofList t

end ChaseProse.Chase
