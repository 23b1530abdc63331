import ChaseProse.Rule.Error
/-! The tokens of the rule language and the longest-match lexer; a number backs off to its longest
complete prefix (`3.` is the number `3` and a dot). -/
namespace ChaseProse.Rule

inductive Token where
  | implies | not | lparen | rparen | comma | dot
  | ge | le | ltgt | ne | gt | lt | eq
  | plus | minus | star | slash
  | number | str | ident
  deriving DecidableEq, Repr, Inhabited

def Token.name : Token → String
  | .implies => "Implies" | .not => "Not" | .lparen => "LParen" | .rparen => "RParen"
  | .comma => "Comma" | .dot => "Dot" | .ge => "Ge" | .le => "Le" | .ltgt => "LtGt"
  | .ne => "Ne" | .gt => "Gt" | .lt => "Lt" | .eq => "Eq" | .plus => "Plus"
  | .minus => "Minus" | .star => "Star" | .slash => "Slash" | .number => "Number"
  | .str => "Str" | .ident => "Ident"

/-- A token with its text and the byte offset where it starts. -/
structure Lexeme where
  token : Token
  text : String
  offset : Nat
  deriving DecidableEq, Repr, Inhabited

def isSkipped (c : Char) : Bool :=
  c == ' ' || c == '\t' || c == '\r' || c == '\n' || c == '\x0c'

def isNameStart (c : Char) : Bool := (c.isAlpha && c.toNat < 128) || c == '_'

def isNameChar (c : Char) : Bool := isNameStart c || c.isDigit

/-- The outcome of matching at one point: a token of `n` characters, or no token after walking
`n` characters (at least one). -/
inductive Scan where
  | token (t : Token) (n : Nat)
  | stuck (n : Nat)

/-- Digits, then `.digits`, then an exponent, each part kept only when complete. -/
def numberLength (cs : List Char) : Nat :=
  let whole := (cs.takeWhile Char.isDigit).length
  let rest := cs.drop whole
  let frac := match rest with
    | '.' :: r => let k := (r.takeWhile Char.isDigit).length; if k = 0 then 0 else k + 1
    | _ => 0
  let rest := rest.drop frac
  let expo := match rest with
    | e :: r =>
      if e == 'e' || e == 'E' then
        let (s, r) := match r with
          | '+' :: x => (1, x)
          | '-' :: x => (1, x)
          | x => (0, x)
        let k := (r.takeWhile Char.isDigit).length
        if k = 0 then 0 else 1 + s + k
      else 0
    | [] => 0
  whole + frac + expo

/-- Length of a string literal from its opening quote: characters other than a quote or a
backslash, or a backslash and any character but a line feed, then the closing quote. Without a
closing quote, the characters accepted before the lexer stopped: a backslash that escapes
nothing is not among them. -/
def stringLength (n : Nat) : List Char → Scan
  | [] => .stuck n
  | '"' :: _ => .token .str (n + 1)
  | '\\' :: c :: rest => if c == '\n' then .stuck n else stringLength (n + 2) rest
  | ['\\'] => .stuck n
  | _ :: rest => stringLength (n + 1) rest

def scan : List Char → Scan
  | ':' :: '-' :: _ => .token .implies 2
  | '>' :: '=' :: _ => .token .ge 2
  | '<' :: '=' :: _ => .token .le 2
  | '<' :: '>' :: _ => .token .ltgt 2
  | '!' :: '=' :: _ => .token .ne 2
  | '=' :: '=' :: _ => .token .eq 2
  | '(' :: _ => .token .lparen 1
  | ')' :: _ => .token .rparen 1
  | ',' :: _ => .token .comma 1
  | '.' :: _ => .token .dot 1
  | '>' :: _ => .token .gt 1
  | '<' :: _ => .token .lt 1
  | '=' :: _ => .token .eq 1
  | '+' :: _ => .token .plus 1
  | '-' :: _ => .token .minus 1
  | '*' :: _ => .token .star 1
  | '/' :: _ => .token .slash 1
  | '"' :: rest => stringLength 1 rest
  | c :: rest =>
    if c.isDigit then .token .number (numberLength (c :: rest))
    else if isNameStart c then
      let n := 1 + (rest.takeWhile isNameChar).length
      if (c :: rest).take n == ['n', 'o', 't'] then .token .not 3 else .token .ident n
    else .stuck 1
  | [] => .stuck 0

def byteLength (cs : List Char) : Nat := cs.foldl (fun n c => n + c.utf8Size) 0

/-- The lexemes of `cs`, whose first character sits at byte `offset`. -/
def lexFrom (offset : Nat) : (cs : List Char) → Except RuleError (List Lexeme)
  | [] => .ok []
  | c :: rest =>
    if isSkipped c then lexFrom (offset + 1) rest
    else
      match scan (c :: rest) with
      | .token t n =>
        let n := max n 1
        let piece := (c :: rest).take n
        match lexFrom (offset + byteLength piece) ((c :: rest).drop n) with
        | .ok ls => .ok (⟨t, String.ofList piece, offset⟩ :: ls)
        | .error e => .error e
      | .stuck n => .error (.unexpectedChar offset (String.ofList ((c :: rest).take (max n 1))))
termination_by cs => cs.length
decreasing_by
  · simp
  · simp only [List.length_drop, List.length_cons]; omega

def tokenize (text : String) : Except RuleError (List Lexeme) := lexFrom 0 text.toList

end ChaseProse.Rule
