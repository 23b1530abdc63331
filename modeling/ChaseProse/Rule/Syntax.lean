/-! Rules: `head :- literal, …, condition, …, Var = expr.` and their compact text, which has
no blanks inside atoms, conditions or arithmetic and keeps groups as written. -/
namespace ChaseProse.Rule

inductive Term where
  | var (name : String)
  | anon
  | num (text : String)
  | text (s : String)
  | sym (s : String)
  deriving DecidableEq, Repr, Inhabited

namespace Term

def var? : Term → Option String
  | .var n => some n
  | _ => none

def render : Term → String
  | .var n | .num n | .sym n => n
  | .anon => "_"
  | .text s => "\"" ++ s ++ "\""

/-- A constant as it appears among fact arguments. -/
def constantText? : Term → Option String
  | .num n | .sym n => some n
  | .text s => some ("\"" ++ s ++ "\"")
  | .var _ | .anon => none

end Term

structure Atom where
  predicate : String
  terms : List Term
  deriving DecidableEq, Repr, Inhabited

namespace Atom

def arity (a : Atom) : Nat := a.terms.length

/-- Variables in argument order, with repeats. -/
def vars (a : Atom) : List String := a.terms.filterMap Term.var?

/-- The first position holding the variable `v`. -/
def positionOf? (a : Atom) (v : String) : Option Nat := a.terms.findIdx? (·.var? == some v)

def render (a : Atom) : String := a.predicate ++ "(" ++ ",".intercalate (a.terms.map Term.render) ++ ")"

end Atom

inductive Literal where
  | pos (a : Atom)
  | neg (a : Atom)
  deriving DecidableEq, Repr

namespace Literal

def atom : Literal → Atom
  | .pos a | .neg a => a

def render : Literal → String
  | .pos a => a.render
  | .neg a => "not " ++ a.render

end Literal

inductive ArithOp where
  | add | sub | mul | div
  deriving DecidableEq, Repr

def ArithOp.symbol : ArithOp → String
  | .add => "+" | .sub => "-" | .mul => "*" | .div => "/"

inductive CompareOp where
  | ge | le | ne | ltgt | gt | lt | eq
  deriving DecidableEq, Repr

namespace CompareOp

def symbol : CompareOp → String
  | .ge => ">=" | .le => "<=" | .ne => "!=" | .ltgt => "<>" | .gt => ">" | .lt => "<" | .eq => "="

/-- The words put between the two sides in a sentence. -/
def phrase : CompareOp → String
  | .ge => "is equal to or over"
  | .le => "is equal to or under"
  | .ne | .ltgt => "is not"
  | .gt => "is over"
  | .lt => "is under"
  | .eq => "is equal to"

end CompareOp

inductive AggregateFn where
  | sum | product | count | min | max
  deriving DecidableEq, Repr

namespace AggregateFn

def ofName? : String → Option AggregateFn
  | "msum" => some .sum
  | "mprod" => some .product
  | "mcount" => some .count
  | "mmin" => some .min
  | "mmax" => some .max
  | _ => none

def name : AggregateFn → String
  | .sum => "msum" | .product => "mprod" | .count => "mcount" | .min => "mmin" | .max => "mmax"

/-- The noun used in "the … over all the contributors". -/
def noun : AggregateFn → String
  | .sum => "sum" | .product => "product" | .count => "count" | .min => "minimum"
  | .max => "maximum"

end AggregateFn

inductive Expr where
  | term (t : Term)
  | neg (e : Expr)
  | binary (op : ArithOp) (lhs rhs : Expr)
  | group (e : Expr)
  | aggregate (fn : AggregateFn) (input : Expr) (contributors : List Term)
  deriving DecidableEq, Repr, Inhabited

namespace Expr

def var? : Expr → Option String
  | .term t => t.var?
  | _ => none

/-- The contents of a bare string literal. -/
def text? : Expr → Option String
  | .term (.text s) => some s
  | _ => none

def isAggregate : Expr → Bool
  | .aggregate .. => true
  | _ => false

/-- Variable names from left to right, contributors after the aggregated input. -/
def vars : Expr → List String
  | .term t => t.var?.toList
  | .neg e | .group e => e.vars
  | .binary _ l r => l.vars ++ r.vars
  | .aggregate _ i cs => i.vars ++ cs.filterMap Term.var?

/-- Compact text with variables replaced through `resolve`; unknown ones keep their name. -/
def render (resolve : String → Option String) : Expr → String
  | .term (.var n) => (resolve n).getD n
  | .term t => t.render
  | .neg e => "-" ++ e.render resolve
  | .binary op l r => l.render resolve ++ op.symbol ++ r.render resolve
  | .group e => "(" ++ e.render resolve ++ ")"
  | .aggregate fn i cs =>
    fn.name ++ "(" ++ i.render resolve ++
      (if cs.isEmpty then "" else ",<" ++ ",".intercalate (cs.map Term.render) ++ ">") ++ ")"

def compact (e : Expr) : String := e.render fun _ => none

end Expr

structure Condition where
  left : Expr
  op : CompareOp
  right : Expr
  deriving DecidableEq, Repr

def Condition.render (c : Condition) : String := c.left.compact ++ c.op.symbol ++ c.right.compact

structure Assignment where
  target : String
  expr : Expr
  deriving DecidableEq, Repr

namespace Assignment

def render (a : Assignment) : String := a.target ++ "=" ++ a.expr.compact

/-- The aggregate function when the expression is an aggregate. -/
def aggregateFn? (a : Assignment) : Option AggregateFn :=
  match a.expr with
  | .aggregate fn .. => some fn
  | _ => none

def isSum (a : Assignment) : Bool := a.aggregateFn? == some .sum

/-- The aggregated variable, when the aggregate's input is a bare variable. -/
def inputVariable? (a : Assignment) : Option String :=
  match a.expr with
  | .aggregate _ i _ => i.var?
  | _ => none

end Assignment

end ChaseProse.Rule

namespace ChaseProse

/-- A rule `head :- literal, …, condition, …, V = e.`; the syntax of its parts lives in the
namespace `Rule`. -/
structure Rule where
  head : Rule.Atom
  body : List Rule.Literal
  conditions : List Rule.Condition
  assignments : List Rule.Assignment
  deriving DecidableEq, Repr

end ChaseProse

namespace ChaseProse.Rule

def positiveAtoms (r : Rule) : List Atom :=
  r.body.filterMap fun | .pos a => some a | .neg _ => none

def negatedAtoms (r : Rule) : List Atom :=
  r.body.filterMap fun | .neg a => some a | .pos _ => none

/-- The first `msum` assignment. -/
def sumAggregate? (r : Rule) : Option Assignment := r.assignments.find? Assignment.isSum

/-- The text `head :- items.`, or `head.` without items. -/
def renderWith (head : Atom) (items : List String) : String :=
  if items.isEmpty then head.render ++ "." else head.render ++ " :- " ++ ", ".intercalate items ++ "."

/-- The compact rule: literals, then conditions, then assignments. -/
def render (r : Rule) : String :=
  renderWith r.head
    (r.body.map Literal.render ++ r.conditions.map Condition.render ++
      r.assignments.map Assignment.render)

/-- The head and the literals only. -/
def bodyOnly (r : Rule) : String := renderWith r.head (r.body.map Literal.render)

/-- Every variable the rule names, in the head, the literals, the conditions and the
assignments, each once. -/
def vars (r : Rule) : List String :=
  (r.head.vars ++ r.body.flatMap (·.atom.vars) ++
    r.conditions.flatMap (fun c => c.left.vars ++ c.right.vars) ++
    r.assignments.flatMap (fun a => a.target :: a.expr.vars)).eraseDups

end ChaseProse.Rule
