import ChaseProse.Json.Value
/-! Writing JSON: the compact form (no blanks) and the pretty form (two-space indent, a field
per line). Strings escape the quote, the backslash and the control characters only. -/
namespace ChaseProse.Json

def hexDigit (n : Nat) : Char := (Nat.toDigits 16 n).headD '0'

/-- The escaped form of one character inside a string. -/
def escapeChar (c : Char) : List Char :=
  match c with
  | '"' => ['\\', '"']
  | '\\' => ['\\', '\\']
  | '\n' => ['\\', 'n']
  | '\r' => ['\\', 'r']
  | '\t' => ['\\', 't']
  | '\x08' => ['\\', 'b']
  | '\x0c' => ['\\', 'f']
  | c =>
    if c.toNat < 0x20 then ['\\', 'u', '0', '0', hexDigit (c.toNat / 16), hexDigit (c.toNat % 16)]
    else [c]

/-- A string literal. -/
def quote (s : String) : String := String.ofList ('"' :: s.toList.flatMap escapeChar ++ ['"'])

mutual
def Value.compact : Value → String
  | .null => "null"
  | .bool b => if b then "true" else "false"
  | .num t => t
  | .str s => quote s
  | .arr xs => "[" ++ compactItems xs ++ "]"
  | .obj fs => "\x7b" ++ compactFields fs ++ "\x7d"
def compactItems : List Value → String
  | [] => ""
  | [x] => x.compact
  | x :: xs => x.compact ++ "," ++ compactItems xs
def compactFields : List (String × Value) → String
  | [] => ""
  | [(k, v)] => quote k ++ ":" ++ v.compact
  | (k, v) :: fs => quote k ++ ":" ++ v.compact ++ "," ++ compactFields fs
end

def indent (n : Nat) : String := String.ofList (List.replicate (2 * n) ' ')

mutual
/-- Pretty form at nesting level `n`: the first line is not indented, the rest are. -/
def Value.pretty (n : Nat) : Value → String
  | .arr [] => "[]"
  | .obj [] => "\x7b\x7d"
  | .arr xs => "[\n" ++ prettyItems (n + 1) xs ++ "\n" ++ indent n ++ "]"
  | .obj fs => "\x7b\n" ++ prettyFields (n + 1) fs ++ "\n" ++ indent n ++ "\x7d"
  | v => v.compact
def prettyItems (n : Nat) : List Value → String
  | [] => ""
  | [x] => indent n ++ x.pretty n
  | x :: xs => indent n ++ x.pretty n ++ ",\n" ++ prettyItems n xs
def prettyFields (n : Nat) : List (String × Value) → String
  | [] => ""
  | [(k, v)] => indent n ++ quote k ++ ": " ++ v.pretty n
  | (k, v) :: fs => indent n ++ quote k ++ ": " ++ v.pretty n ++ ",\n" ++ prettyFields n fs
end

end ChaseProse.Json
