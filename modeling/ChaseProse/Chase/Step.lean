import ChaseProse.Chase.Fact
import ChaseProse.Chase.Pattern
import ChaseProse.Chase.Provenance
/-! Steps of a trace and their labels. A step is one derivation: the fact, its null pattern,
its provenance and the rule that fired, with the labels that place it in the derivation forest
and, once aggregate resolution rewrote its provenance, the provenance it was recorded with. -/
namespace ChaseProse.Chase
open ChaseProse.Text

/-- The labels of a step, or the mark that keeps it out of the explanation. -/
inductive Labelling where
  | excluded
  | labels (ls : List String)
  deriving DecidableEq, Repr, Inhabited

namespace Labelling

def empty : Labelling := .labels []

def toList : Labelling → List String
  | .excluded => []
  | .labels ls => ls

def isExcluded : Labelling → Bool
  | .excluded => true
  | .labels _ => false

/-- No label yet (and not excluded). -/
def isUnset : Labelling → Bool
  | .labels [] => true
  | _ => false

/-- Adds a label unless present; an excluded step gets this one label. -/
def push (n : Labelling) (l : String) : Labelling :=
  match n with
  | .excluded => .labels [l]
  | .labels ls => if ls.contains l then .labels ls else .labels (ls ++ [l])

end Labelling

structure Step where
  name : String
  pattern : Pattern
  provenance : Provenance := ⟨[]⟩
  rule : String := ""
  labelling : Labelling := .empty
  priorProvenance : Option Provenance := none
  deriving DecidableEq, Repr

namespace Step

/-- Builds a step from the written pattern and provenance; the fact is not checked. -/
def ofTexts (name pattern provenance rule : String) : Except ChaseError Step := do
  return { name, pattern := ← Pattern.parse pattern, provenance := Provenance.parse provenance,
           rule }

def fact (s : Step) : Except ChaseError Fact := Fact.parse s.name

/-- An input fact: nothing justifies it. -/
def isGround (s : Step) : Bool := s.provenance.isEmpty

/-- A rule fired to produce it. -/
def hasRule (s : Step) : Bool := !(trimList s.rule.toList).isEmpty

/-- The provenance as the reasoner recorded it, before any repair. -/
def recordedProvenance (s : Step) : Provenance := s.priorProvenance.getD s.provenance

end Step

end ChaseProse.Chase
