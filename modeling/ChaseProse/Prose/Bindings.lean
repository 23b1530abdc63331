import ChaseProse.Rule.Syntax
import ChaseProse.Chase.Fact
import ChaseProse.Chase.Pattern
/-! Variable bindings of a fired rule: the first choice of facts that matches every positive atom,
or else each atom's first consistent fact; free head variables are read off the derived fact. -/
namespace ChaseProse.Prose
open ChaseProse.Chase ChaseProse.Rule

/-- A fact with its null markers. -/
structure Grounded where
  fact : Fact
  pattern : Pattern
  deriving DecidableEq, Repr

structure Binding where
  value : String
  isNull : Bool
  deriving DecidableEq, Repr

/-- Variable bindings, each variable at most once. -/
abbrev Bindings := List (String × Binding)

def Bindings.get? (b : Bindings) (v : String) : Option Binding := b.lookup v

/-- Extends `b` by matching the argument at `pos` against one term of the atom. -/
def matchTerm (g : Grounded) (b : Bindings) (pos : Nat) (t : Term) : Option Bindings := do
  let arg ← g.fact.arg? pos
  match t with
  | .anon => some b
  | .var v =>
    match b.get? v with
    | some bound => if bound.value == arg then some b else none
    | none => some (b ++ [(v, ⟨arg, g.pattern.isNull pos⟩)])
  | c =>
    let expected ← c.constantText?
    if unquote expected == unquote arg then some b else none

/-- Extends `b` by matching the atom against the fact: same predicate and arity, each variable
bound once, constants equal up to their quotes, `_` matching anything. -/
def tryMatch (b : Bindings) (a : Atom) (g : Grounded) : Option Bindings :=
  if g.fact.predicate != a.predicate || g.fact.arity != a.arity then none
  else a.terms.zipIdx.foldlM (fun b (t, pos) => matchTerm g b pos t) b

/-- The first choice of candidates, in order, that matches every atom. -/
def solve (facts : List Grounded) : List Atom → Bindings → Option Bindings
  | [], b => some b
  | a :: rest, b => facts.findSome? fun g => (tryMatch b a g).bind (solve facts rest)

/-- Each atom in turn takes its first consistent candidate; atoms without one are skipped. -/
def greedy (facts : List Grounded) (atoms : List Atom) : Bindings :=
  atoms.foldl (fun b a => (facts.findSome? (tryMatch b a)).getD b) []

def unify (atoms : List Atom) (facts : List Grounded) : Bindings :=
  (solve facts atoms []).getD (greedy facts atoms)

/-- Binds the head variables still free from the derived fact. -/
def bindHead (b : Bindings) (head : Atom) (derived : Grounded) : Bindings :=
  head.terms.zipIdx.foldl (fun b (t, pos) =>
    match t.var?, derived.fact.arg? pos with
    | some v, some arg =>
      if (b.get? v).isSome then b else b ++ [(v, ⟨arg, derived.pattern.isNull pos⟩)]
    | _, _ => b) b

/-- The atom with its variables replaced by their values, a null marked `-1`. Free variables
keep their name and are listed, once per occurrence. -/
def instantiate (b : Bindings) (a : Atom) : Grounded × List String :=
  let parts := a.terms.map fun t =>
    match t with
    | .var v =>
      match b.get? v with
      | some x => (x.value, if x.isNull then (-1 : Int) else 0, ([] : List String))
      | none => (v, 0, [v])
    | .anon => ("_", 0, [])
    | c => (c.render, 0, [])
  (⟨⟨a.predicate, parts.map (·.1)⟩, ⟨parts.map (·.2.1)⟩⟩, parts.flatMap (·.2.2))

end ChaseProse.Prose
