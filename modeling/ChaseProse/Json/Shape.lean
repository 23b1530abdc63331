import ChaseProse.Json.Read
/-! Reading a document for a record type: the fields a `Shape` names are read strictly, the others
are skipped after a check of their syntax only. -/
namespace ChaseProse.Json

/-- What a decoder reads: a whole value, a list of one shape, or a record whose known fields
have shapes of their own. -/
inductive Shape where
  | value
  | list (item : Shape)
  | record (fields : List (String × Shape))

/-- The text after a string literal whose opening quote is read; escapes need only be well
formed. -/
def skipChars : List Char → Option (List Char)
  | [] => none
  | '"' :: rest => some rest
  | '\\' :: 'u' :: a :: b :: c :: d :: rest => (hex4? a b c d).bind fun _ => skipChars rest
  | '\\' :: e :: rest => (simpleEscape? e).bind fun _ => skipChars rest
  | c :: rest => if c.toNat < 0x20 then none else skipChars rest

/-- Numbers checked for syntax only, of any magnitude. -/
def Dialect.syntaxOnly : Dialect := ⟨false, false, 0⟩

mutual
/-- The text after one value, checked for syntax only, with fuel bounding the calls. -/
def skipValue : Nat → List Char → Option (List Char)
  | 0, _ => none
  | fuel + 1, cs =>
    match skipSpace cs with
    | 'n' :: 'u' :: 'l' :: 'l' :: r => some r
    | 't' :: 'r' :: 'u' :: 'e' :: r => some r
    | 'f' :: 'a' :: 'l' :: 's' :: 'e' :: r => some r
    | '"' :: r => skipChars r
    | '[' :: r =>
      match skipSpace r with
      | ']' :: r' => some r'
      | _ => skipItems fuel r
    | '\x7b' :: r =>
      match skipSpace r with
      | '\x7d' :: r' => some r'
      | _ => skipFields fuel r
    | r => (readNumber .syntaxOnly r).map (·.2)
def skipItems : Nat → List Char → Option (List Char)
  | 0, _ => none
  | fuel + 1, cs =>
    match (skipValue fuel cs).map skipSpace with
    | some (',' :: r) => skipItems fuel r
    | some (']' :: r) => some r
    | _ => none
def skipFields : Nat → List Char → Option (List Char)
  | 0, _ => none
  | fuel + 1, cs =>
    match skipSpace cs with
    | '"' :: r =>
      match (skipChars r).map skipSpace with
      | some (':' :: r) =>
        match (skipValue fuel r).map skipSpace with
        | some (',' :: r) => skipFields fuel r
        | some ('\x7d' :: r) => some r
        | _ => none
      | _ => none
    | _ => none
end

mutual
/-- A value read for `shape` at nesting depth `depth`. A record may also be written as the
array of its fields in order. What is not of the expected kind is read strictly as it is, for
the decoder to refuse. -/
def readShaped (depth : Nat) : Shape → Nat → List Char → Option (Value × List Char)
  | _, 0, _ => none
  | .value, fuel + 1, cs => readValue .document depth fuel cs
  | .list item, fuel + 1, cs =>
    match skipSpace cs with
    | '[' :: r =>
      if Dialect.document.maxDepth ≤ depth then none
      else
        match skipSpace r with
        | ']' :: r' => some (.arr [], r')
        | _ => (readShapedItems (depth + 1) (fun _ => item) 0 fuel r []).map
            fun (xs, r') => (.arr xs, r')
    | _ => readValue .document depth fuel cs
  | .record fields, fuel + 1, cs =>
    match skipSpace cs with
    | '\x7b' :: r =>
      if Dialect.document.maxDepth ≤ depth then none
      else
        match skipSpace r with
        | '\x7d' :: r' => some (.obj [], r')
        | _ => (readShapedFields (depth + 1) fields fuel r []).map fun (fs, r') => (.obj fs, r')
    | '[' :: r =>
      if Dialect.document.maxDepth ≤ depth then none
      else
        match skipSpace r with
        | ']' :: r' => some (.arr [], r')
        | _ => (readShapedItems (depth + 1) (fun i => (fields[i]?.map (·.2)).getD .value) 0 fuel r
            []).map fun (xs, r') => (.arr xs, r')
    | _ => readValue .document depth fuel cs
/-- Array items from the `i`-th on, each read for its shape. -/
def readShapedItems (depth : Nat) (shapeAt : Nat → Shape) (i : Nat) :
    Nat → List Char → List Value → Option (List Value × List Char)
  | 0, _, _ => none
  | fuel + 1, cs, acc =>
    match readShaped depth (shapeAt i) fuel cs with
    | none => none
    | some (v, r) =>
      match skipSpace r with
      | ',' :: r' => readShapedItems depth shapeAt (i + 1) fuel r' (v :: acc)
      | ']' :: r' => some ((v :: acc).reverse, r')
      | _ => none
/-- Object fields: the known ones read for their shapes, the others skipped and dropped. Every
key is read strictly. -/
def readShapedFields (depth : Nat) (fields : List (String × Shape)) :
    Nat → List Char → List (String × Value) → Option (List (String × Value) × List Char)
  | 0, _, _ => none
  | fuel + 1, cs, acc =>
    match skipSpace cs with
    | '"' :: r =>
      match readChars [] r with
      | none => none
      | some (k, r) =>
        match skipSpace r with
        | ':' :: r =>
          let key := String.ofList k
          let field? : Option (Option Value × List Char) :=
            match fields.lookup key with
            | some s => (readShaped depth s fuel r).map fun (v, r) => (some v, r)
            | none => (skipValue fuel r).map fun r => (none, r)
          match field? with
          | none => none
          | some (v?, r) =>
            let acc := match v? with
              | some v => (key, v) :: acc
              | none => acc
            match skipSpace r with
            | ',' :: r' => readShapedFields depth fields fuel r' acc
            | '\x7d' :: r' => some (acc.reverse, r')
            | _ => none
        | _ => none
    | _ => none
end

/-- Reads a whole text for a shape, blanks allowed around it. -/
def readAs? (shape : Shape) (s : String) : Option Value :=
  let cs := s.toList
  match readShaped 0 shape (2 * cs.length + 4) cs with
  | some (v, r) => if (skipSpace r).isEmpty then some v else none
  | none => none

end ChaseProse.Json
