import ChaseProse.Prose.Bindings
import ChaseProse.Prose.Describe
/-! Clauses of an explanation sentence for the parts of a rule beyond its positive atoms:
conditions, definitions and negated atoms, each with the compact atom it adds to the record.
Variables without a value are written by name and listed as unresolved. -/
namespace ChaseProse.Prose
open ChaseProse.Rule ChaseProse.Chase

structure Clause where
  text : String
  atom : String
  deriving DecidableEq, Repr

/-- Adds the free variables of `e` not yet listed, left to right. -/
def noteFree (b : Bindings) (e : Expr) (unresolved : List String) : List String :=
  e.vars.foldl (fun acc v =>
    if (b.get? v).isNone && !acc.contains v then acc ++ [v] else acc) unresolved

def renderBound (b : Bindings) (e : Expr) : String := e.render fun v => (b.get? v).map (·.value)

/-- The clause `left is over right`, or `there is text` for an equality with a string literal. -/
def conditionClause (b : Bindings) (c : Condition) (unresolved : List String) :
    Clause × List String :=
  match c.op, c.right.text? with
  | .eq, some s => (⟨"there is " ++ s, s⟩, unresolved)
  | _, _ =>
    let unresolved := noteFree b c.right (noteFree b c.left unresolved)
    let l := renderBound b c.left
    let r := renderBound b c.right
    (⟨l ++ " " ++ c.op.phrase ++ " " ++ r, l ++ c.op.symbol ++ r⟩, unresolved)

/-- The clause `with value given by source`: the source of an aggregate is named by its noun. A free
target is listed every time. -/
def assignmentClause (b : Bindings) (a : Assignment) (unresolved : List String) :
    Clause × List String :=
  let (target, unresolved) := match b.get? a.target with
    | some x => (x.value, unresolved)
    | none => (a.target, unresolved ++ [a.target])
  let (source, unresolved) := match a.aggregateFn? with
    | some fn => ("the " ++ fn.noun ++ " over all the contributors", unresolved)
    | none => (renderBound b a.expr, noteFree b a.expr unresolved)
  (⟨"with " ++ target ++ " given by " ++ source, a.render⟩, unresolved)

/-- The clause `it is not true that …`, the negated atom built from the bindings. -/
def negationClause (cfg : Config) (d : Dictionary) (b : Bindings) (a : Atom) (seen : NullTracker)
    (unresolved : List String) : Clause × NullTracker × List String :=
  let (g, free) := instantiate b a
  let (text, seen) := describeOrLiteral cfg d g.fact g.pattern seen
  (⟨"it is not true that " ++ text, g.fact.render⟩, seen, unresolved ++ free)

end ChaseProse.Prose
