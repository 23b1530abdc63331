import ChaseProse.Rule.Syntax
import ChaseProse.Chase.Fact
import ChaseProse.Notice
/-! The contributors of a running sum: the first set of one or two provenance facts whose values
explain the sum, or every candidate when there is none. -/
namespace ChaseProse.Aggregate
open ChaseProse.Chase ChaseProse.Rule

/-- The sum recorded on the head fact, at the first head position of the sum's target. -/
def target? (rule : Rule) (head : Fact) : Option Float := do
  let a ← rule.sumAggregate?
  let pos ← rule.head.positionOf? a.target
  head.numericArg? pos

/-- The first positive body atom holding the summed variable, with its first position there. -/
def summedAtom? (rule : Rule) : Option (Atom × Nat) := do
  let v ← (← rule.sumAggregate?).inputVariable?
  rule.positiveAtoms.findSome? fun a => (a.positionOf? v).map (a, ·)

/-- Two values agree when they differ by at most the tolerance. -/
def within (tol v t : Float) : Bool := (v - t).abs ≤ tol

/-- The candidates that are facts of the summed atom's predicate and arity with a number at the
summed position, with that number, in order. -/
def contributions (atom : Atom) (pos : Nat) (candidates : List String) : List (String × Float) :=
  candidates.filterMap fun e =>
    match Fact.parse e with
    | .ok f =>
      if f.predicate == atom.predicate && f.arity == atom.arity then (f.numericArg? pos).map (e, ·)
      else none
    | .error _ => none

/-- The first pair `i < j`, in lexicographic order, whose values add up to `t`. -/
def firstPair (tol t : Float) : List (String × Float) → Option (String × String)
  | [] => none
  | (e, a) :: rest =>
    match rest.find? (fun (_, b) => within tol (a + b) t) with
    | some (e', _) => some (e, e')
    | none => firstPair tol t rest

def contributors (candidates : List String) (rule : Rule) (head : Fact) (tol : Float) :
    Resolution :=
  match target? rule head, summedAtom? rule with
  | some t, some (atom, pos) =>
    let values := contributions atom pos candidates
    match values.find? (fun (_, v) => within tol v t) with
    | some (e, _) => .single e
    | none =>
      match firstPair tol t values with
      | some (a, b) => .pair a b
      | none => .fallback candidates
  | _, _ => .fallback candidates

end ChaseProse.Aggregate
