import ChaseProse.Rule.Token
import ChaseProse.Rule.Syntax
/-! Reading a rule by recursive descent, with fuel set from the number of tokens. -/
namespace ChaseProse.Rule

def unexpected (l : Lexeme) (what : String) : RuleError := .unexpectedToken l.offset l.text what

/-- Consumes the next lexeme when it is `t`. -/
def eat (t : Token) : List Lexeme → Bool × List Lexeme
  | l :: ls => if l.token == t then (true, ls) else (false, l :: ls)
  | [] => (false, [])

def expect (t : Token) (what : String) : List Lexeme → Except RuleError (Lexeme × List Lexeme)
  | l :: ls => if l.token == t then .ok (l, ls) else .error (unexpected l what)
  | [] => .error (.unexpectedEnd what)

def peek? (ls : List Lexeme) : Option Token := ls.head?.map (·.token)

/-- A name is anonymous as `_`, a variable when it starts with `_` or an upper-case letter,
and a symbol otherwise. -/
def nameTerm (s : String) : Term :=
  if s == "_" then .anon
  else
    match s.toList.head? with
    | some c => if c == '_' || (c.isUpper && c.toNat < 128) then .var s else .sym s
    | none => .sym s

/-- A string literal without its quotes (all leading and trailing quotes go). -/
def stripQuotes (s : String) : String :=
  String.ofList (((s.toList.dropWhile (· == '"')).reverse.dropWhile (· == '"')).reverse)

/-- A term: a number (a minus sign before it allowed), a string or a name. -/
def term (ls : List Lexeme) : Except RuleError (Term × List Lexeme) :=
  let (negative, ls) := eat .minus ls
  match ls with
  | [] => .error (.unexpectedEnd "term")
  | l :: rest =>
    match l.token with
    | .number => .ok (.num (if negative then "-" ++ l.text else l.text), rest)
    | .str => if negative then .error (unexpected l "term") else .ok (.text (stripQuotes l.text), rest)
    | .ident => if negative then .error (unexpected l "term") else .ok (nameTerm l.text, rest)
    | _ => .error (unexpected l "term")

/-- Terms separated by commas up to the closing token `close`. -/
def termList (close : Token) (what : String) : Nat → List Lexeme → List Term → Except RuleError (List Term × List Lexeme)
  | 0, _, _ => .error (.unexpectedEnd what)
  | fuel + 1, ls, acc => do
    let (t, ls) ← term ls
    let (closed, ls) := eat close ls
    if closed then return ((t :: acc).reverse, ls)
    let (_, ls) ← expect .comma what ls
    termList close what fuel ls (t :: acc)

def atom (fuel : Nat) (ls : List Lexeme) : Except RuleError (Atom × List Lexeme) := do
  let (name, ls) ← expect .ident "predicate name" ls
  let (opened, ls) := eat .lparen ls
  if !opened then return (⟨name.text, []⟩, ls)
  let (closed, ls) := eat .rparen ls
  if closed then return (⟨name.text, []⟩, ls)
  let (terms, ls) ← termList .rparen "',' or ')'" fuel ls []
  return (⟨name.text, terms⟩, ls)

mutual
def expr : Nat → List Lexeme → Except RuleError (Expr × List Lexeme)
  | 0, _ => .error (.unexpectedEnd "expression")
  | fuel + 1, ls => do
    let (lhs, ls) ← termExpr fuel ls
    sumRest fuel lhs ls
def sumRest : Nat → Expr → List Lexeme → Except RuleError (Expr × List Lexeme)
  | 0, _, _ => .error (.unexpectedEnd "expression")
  | fuel + 1, lhs, ls =>
    match peek? ls with
    | some .plus => do
      let (rhs, ls') ← termExpr fuel ls.tail
      sumRest fuel (.binary .add lhs rhs) ls'
    | some .minus => do
      let (rhs, ls') ← termExpr fuel ls.tail
      sumRest fuel (.binary .sub lhs rhs) ls'
    | _ => .ok (lhs, ls)
def termExpr : Nat → List Lexeme → Except RuleError (Expr × List Lexeme)
  | 0, _ => .error (.unexpectedEnd "expression")
  | fuel + 1, ls => do
    let (lhs, ls) ← unary fuel ls
    productRest fuel lhs ls
def productRest : Nat → Expr → List Lexeme → Except RuleError (Expr × List Lexeme)
  | 0, _, _ => .error (.unexpectedEnd "expression")
  | fuel + 1, lhs, ls =>
    match peek? ls with
    | some .star => do
      let (rhs, ls') ← unary fuel ls.tail
      productRest fuel (.binary .mul lhs rhs) ls'
    | some .slash => do
      let (rhs, ls') ← unary fuel ls.tail
      productRest fuel (.binary .div lhs rhs) ls'
    | _ => .ok (lhs, ls)
def unary : Nat → List Lexeme → Except RuleError (Expr × List Lexeme)
  | 0, _ => .error (.unexpectedEnd "expression")
  | fuel + 1, ls =>
    let (negative, ls) := eat .minus ls
    if negative then do
      let (e, ls) ← unary fuel ls
      return (.neg e, ls)
    else primary fuel ls
def primary : Nat → List Lexeme → Except RuleError (Expr × List Lexeme)
  | 0, _ => .error (.unexpectedEnd "expression")
  | fuel + 1, ls =>
    match ls with
    | [] => .error (.unexpectedEnd "expression")
    | l :: rest =>
      match l.token with
      | .lparen => do
        let (inner, ls) ← expr fuel rest
        let (_, ls) ← expect .rparen "')'" ls
        return (.group inner, ls)
      | .ident =>
        if peek? rest == some .lparen then
          match AggregateFn.ofName? l.text with
          | some fn => aggregateArgs fuel fn rest.tail
          | none => .error (unexpected l "aggregate function")
        else do
          let (t, ls) ← term ls
          return (.term t, ls)
      | .number | .str => do
        let (t, ls) ← term ls
        return (.term t, ls)
      | _ => .error (unexpected l "expression")
/-- After `fn(`: the aggregated expression, then any number of `, <c1,…>` or `, term`,
then `)`. -/
def aggregateArgs : Nat → AggregateFn → List Lexeme → Except RuleError (Expr × List Lexeme)
  | 0, _, _ => .error (.unexpectedEnd "expression")
  | fuel + 1, fn, ls => do
    let (input, ls) ← expr fuel ls
    contributorList fuel fn input [] ls
def contributorList :
    Nat → AggregateFn → Expr → List Term → List Lexeme → Except RuleError (Expr × List Lexeme)
  | 0, _, _, _, _ => .error (.unexpectedEnd "')'")
  | fuel + 1, fn, input, acc, ls =>
    let (more, ls) := eat .comma ls
    if more then
      let (bracket, ls) := eat .lt ls
      if bracket then do
        let (ts, ls) ← termList .gt "',' or '>'" fuel ls []
        contributorList fuel fn input (acc ++ ts) ls
      else do
        let (t, ls) ← term ls
        contributorList fuel fn input (acc ++ [t]) ls
    else do
      let (_, ls) ← expect .rparen "')'" ls
      return (.aggregate fn input acc, ls)
end

def compareOp (ls : List Lexeme) : Except RuleError (CompareOp × List Lexeme) :=
  match ls with
  | [] => .error (.unexpectedEnd "comparison operator")
  | l :: rest =>
    match l.token with
    | .ge => .ok (.ge, rest)
    | .le => .ok (.le, rest)
    | .ne => .ok (.ne, rest)
    | .ltgt => .ok (.ltgt, rest)
    | .gt => .ok (.gt, rest)
    | .lt => .ok (.lt, rest)
    | .eq => .ok (.eq, rest)
    | _ => .error (unexpected l "comparison operator")

/-- A body item: a negated atom, an atom, or a comparison. -/
inductive Item where
  | literal (l : Literal)
  | comparison (c : Condition)

/-- An atom starts here: a name beginning with a lower-case ASCII letter, not an aggregate
function, followed by `(`, `,`, `.` or the end. -/
def atAtom (ls : List Lexeme) : Bool :=
  match ls with
  | l :: rest =>
    l.token == .ident && (l.text.toList.head?.any fun c => c.isLower && c.toNat < 128) &&
      (AggregateFn.ofName? l.text).isNone &&
      match peek? rest with
      | some .lparen | some .comma | some .dot | none => true
      | _ => false
  | [] => false

def item (fuel : Nat) (ls : List Lexeme) : Except RuleError (Item × List Lexeme) := do
  let (negated, ls) := eat .not ls
  if negated then
    let (a, ls) ← atom fuel ls
    return (.literal (.neg a), ls)
  if atAtom ls then
    let (a, ls) ← atom fuel ls
    return (.literal (.pos a), ls)
  let (left, ls) ← expr fuel ls
  let (op, ls) ← compareOp ls
  let (right, ls) ← expr fuel ls
  return (.comparison ⟨left, op, right⟩, ls)

/-- Items separated by commas. -/
def items : Nat → List Lexeme → List Item → Except RuleError (List Item × List Lexeme)
  | 0, ls, acc => .ok (acc.reverse, ls)
  | fuel + 1, ls, acc => do
    let (i, ls) ← item fuel ls
    let (more, ls) := eat .comma ls
    if more then items fuel ls (i :: acc) else return ((i :: acc).reverse, ls)

/-- Sorts comparisons into conditions and definitions, in order. -/
def classify (bound : List String) : List Condition → List Condition × List Assignment
  | [] => ([], [])
  | c :: cs =>
    match c.op, c.left.var? with
    | .eq, some v =>
      if c.right.isAggregate || (!bound.contains v && c.right.text?.isNone) then
        let (conds, defs) := classify (v :: bound) cs
        (conds, ⟨v, c.right⟩ :: defs)
      else
        let (conds, defs) := classify bound cs
        (c :: conds, defs)
    | _, _ =>
      let (conds, defs) := classify bound cs
      (c :: conds, defs)

def ofItems (head : Atom) (its : List Item) : Rule :=
  let body := its.filterMap fun | .literal l => some l | .comparison _ => none
  let comparisons := its.filterMap fun | .comparison c => some c | .literal _ => none
  let bound := body.flatMap fun | .pos a => a.vars | .neg _ => []
  let (conditions, assignments) := classify bound comparisons
  { head, body, conditions, assignments }

/-- Reads a rule from its lexemes. Each call of the descent spends one unit of fuel and a token is
consumed at least every fourth call, so the fuel never runs out. -/
def parseTokens (ls : List Lexeme) : Except RuleError Rule := do
  if ls.isEmpty then throw .empty
  let fuel := 4 * ls.length + 4
  let (head, ls) ← atom fuel ls
  let (implied, ls) := eat .implies ls
  let (its, ls) ← if implied then items fuel ls [] else pure ([], ls)
  let (_, ls) := eat .dot ls
  match ls with
  | l :: _ => throw (unexpected l "',' or end of rule")
  | [] => return Rule.ofItems head its

/-- Reads a rule:

    rule      := atom [ ":-" item { "," item } ] [ "." ]
    item      := "not" atom | atom | expr cmp expr
    expr      := term_expr { ("+" | "-") term_expr }
    term_expr := unary { ("*" | "/") unary }
    unary     := "-" unary | primary
    primary   := "(" expr ")" | aggregate "(" expr { "," contributors } ")" | term

A comparison `V = rhs` defines `V` when `rhs` is an aggregate, or when `V` is bound neither by a
positive atom nor by an earlier definition and `rhs` is not a string literal; every other
comparison is a condition. -/
def parse (text : String) : Except RuleError Rule := tokenize text >>= parseTokens

end ChaseProse.Rule
