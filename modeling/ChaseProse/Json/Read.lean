import ChaseProse.Json.Value
import ChaseProse.Decimal.Scaled
/-! Reading JSON text. The grammar is RFC 8259; a dialect fixes the points where readers
differ: the words `NaN` and `Infinity`, numbers too large for a float, and the nesting limit. -/
namespace ChaseProse.Json

/-- Where readers of JSON differ. -/
structure Dialect where
  /-- Whether `NaN`, `Infinity` and `-Infinity` are numbers. -/
  nonFinite : Bool
  /-- A number too large for a float, read the quick way, is refused. -/
  finiteOnly : Bool
  /-- Arrays and objects nest at most this deep. -/
  maxDepth : Nat

/-- The reader of documents: standard JSON, finite numbers, nesting below 128. -/
def Dialect.document : Dialect := ⟨false, true, 127⟩

/-- A lenient reader: also the non-finite words, any magnitude. -/
def Dialect.lenient : Dialect := ⟨true, false, 1000⟩

def isSpace (c : Char) : Bool := c == ' ' || c == '\t' || c == '\n' || c == '\r'

def skipSpace (cs : List Char) : List Char := cs.dropWhile isSpace

def hexValue? (c : Char) : Option Nat :=
  if c.isDigit then some (c.toNat - '0'.toNat)
  else if 'a' ≤ c && c ≤ 'f' then some (c.toNat - 'a'.toNat + 10)
  else if 'A' ≤ c && c ≤ 'F' then some (c.toNat - 'A'.toNat + 10)
  else none

def hex4? (a b c d : Char) : Option Nat := do
  return (← hexValue? a) * 4096 + (← hexValue? b) * 256 + (← hexValue? c) * 16 + (← hexValue? d)

def simpleEscape? : Char → Option Char
  | '"' => some '"'
  | '\\' => some '\\'
  | '/' => some '/'
  | 'b' => some '\x08'
  | 'f' => some '\x0c'
  | 'n' => some '\n'
  | 'r' => some '\r'
  | 't' => some '\t'
  | _ => none

/-- The characters of a string literal after its opening quote, and the text after its closing
quote. A high surrogate escape must be followed by a low one. -/
def readChars : List Char → List Char → Option (List Char × List Char)
  | _, [] => none
  | acc, '"' :: rest => some (acc.reverse, rest)
  | acc, '\\' :: 'u' :: a :: b :: c :: d :: rest =>
    match hex4? a b c d with
    | none => none
    | some h =>
      if 0xD800 ≤ h && h < 0xDC00 then
        match rest with
        | '\\' :: 'u' :: e :: f :: g :: k :: rest' =>
          match hex4? e f g k with
          | some l =>
            if 0xDC00 ≤ l && l < 0xE000 then
              readChars (Char.ofNat (0x10000 + (h - 0xD800) * 0x400 + (l - 0xDC00)) :: acc) rest'
            else none
          | none => none
        | _ => none
      else if 0xDC00 ≤ h && h < 0xE000 then none
      else readChars (Char.ofNat h :: acc) rest
  | acc, '\\' :: e :: rest =>
    match simpleEscape? e with
    | some c => readChars (c :: acc) rest
    | none => none
  | acc, c :: rest => if c.toNat < 0x20 then none else readChars (c :: acc) rest

/-- The digits of a number: `0` alone or a nonzero digit and more digits. -/
def intDigits : List Char → Option (List Char × List Char)
  | '0' :: rest => some (['0'], rest)
  | c :: rest =>
    if c.isDigit then some (c :: rest.takeWhile Char.isDigit, rest.dropWhile Char.isDigit)
    else none
  | [] => none

/-- A number lexeme and the text after it. -/
def readNumber (d : Dialect) (cs : List Char) : Option (String × List Char) :=
  let (sign, body) := match cs with
    | '-' :: r => (['-'], r)
    | r => ([], r)
  if d.nonFinite && body.take 8 == "Infinity".toList then
    some (String.ofList (sign ++ "Infinity".toList), body.drop 8)
  else if d.nonFinite && sign.isEmpty && body.take 3 == "NaN".toList then
    some ("NaN", body.drop 3)
  else do
    let (whole, r) ← intDigits body
    let (frac, r) ← match r with
      | '.' :: r' =>
        let ds := r'.takeWhile Char.isDigit
        if ds.isEmpty then none else some ('.' :: ds, r'.dropWhile Char.isDigit)
      | r' => some ([], r')
    let (expo, r) ← match r with
      | e :: r' =>
        if e == 'e' || e == 'E' then
          let (s, r'') := match r' with
            | '+' :: x => (['+'], x)
            | '-' :: x => (['-'], x)
            | x => ([], x)
          let ds := r''.takeWhile Char.isDigit
          if ds.isEmpty then none else some (e :: s ++ ds, r''.dropWhile Char.isDigit)
        else some ([], r)
      | [] => some ([], [])
    let text := String.ofList (sign ++ whole ++ frac ++ expo)
    if d.finiteOnly && (Decimal.scaledFloat? text).isNone then none
    else some (text, r)

mutual
/-- A value at nesting depth `depth`, with fuel bounding the calls. -/
def readValue (d : Dialect) (depth : Nat) : Nat → List Char → Option (Value × List Char)
  | 0, _ => none
  | fuel + 1, cs =>
    match skipSpace cs with
    | 'n' :: 'u' :: 'l' :: 'l' :: r => some (.null, r)
    | 't' :: 'r' :: 'u' :: 'e' :: r => some (.bool true, r)
    | 'f' :: 'a' :: 'l' :: 's' :: 'e' :: r => some (.bool false, r)
    | '"' :: r => (readChars [] r).map fun (s, r') => (.str (String.ofList s), r')
    | '[' :: r =>
      if d.maxDepth ≤ depth then none
      else
        match skipSpace r with
        | ']' :: r' => some (.arr [], r')
        | _ => (readItems d (depth + 1) fuel r []).map fun (xs, r') => (.arr xs, r')
    | '\x7b' :: r =>
      if d.maxDepth ≤ depth then none
      else
        match skipSpace r with
        | '\x7d' :: r' => some (.obj [], r')
        | _ => (readFields d (depth + 1) fuel r []).map fun (fs, r') => (.obj fs, r')
    | r => (readNumber d r).map fun (t, r') => (.num t, r')
def readItems (d : Dialect) (depth : Nat) :
    Nat → List Char → List Value → Option (List Value × List Char)
  | 0, _, _ => none
  | fuel + 1, cs, acc =>
    match readValue d depth fuel cs with
    | none => none
    | some (v, r) =>
      match skipSpace r with
      | ',' :: r' => readItems d depth fuel r' (v :: acc)
      | ']' :: r' => some ((v :: acc).reverse, r')
      | _ => none
def readFields (d : Dialect) (depth : Nat) :
    Nat → List Char → List (String × Value) → Option (List (String × Value) × List Char)
  | 0, _, _ => none
  | fuel + 1, cs, acc =>
    match skipSpace cs with
    | '"' :: r =>
      match readChars [] r with
      | none => none
      | some (k, r) =>
        match skipSpace r with
        | ':' :: r =>
          match readValue d depth fuel r with
          | none => none
          | some (v, r) =>
            match skipSpace r with
            | ',' :: r' => readFields d depth fuel r' ((String.ofList k, v) :: acc)
            | '\x7d' :: r' => some (((String.ofList k, v) :: acc).reverse, r')
            | _ => none
        | _ => none
    | _ => none
end

/-- Reads a whole text as one value, blanks allowed around it. -/
def read? (d : Dialect) (s : String) : Option Value :=
  let cs := s.toList
  match readValue d 0 (2 * cs.length + 4) cs with
  | some (v, r) => if (skipSpace r).isEmpty then some v else none
  | none => none

end ChaseProse.Json
