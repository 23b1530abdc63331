import ChaseProse.Json.Read
import ChaseProse.Json.Write
/-! Reading back what the compact writer wrote: texts, the number `-1`, and lists and objects of
such values below the nesting limit read back as themselves (`read?_compact`). -/
namespace ChaseProse.Json

theorem hexValue?_hexDigit {n : Nat} (h : n < 16) : hexValue? (hexDigit n) = some n := by
  revert n; decide

/-- Reading an escaped character gives it back, whichever escape the writer chose. -/
theorem readChars_escapeChar (acc rest : List Char) (c : Char) :
    readChars acc (escapeChar c ++ rest) = readChars (c :: acc) rest := by
  unfold escapeChar
  split
  case h_8 hq hb _ _ _ _ _ =>
    split
    · next hc =>
      -- a control character without a short escape goes as `\u00XY`
      have h16 : c.toNat / 16 < 16 := by omega
      have h0 : hexValue? '0' = some 0 := by decide
      have hhex : hex4? '0' '0' (hexDigit (c.toNat / 16)) (hexDigit (c.toNat % 16)) =
          some c.toNat := by
        simp [hex4?, h0, hexValue?_hexDigit h16, hexValue?_hexDigit (Nat.mod_lt _ (by decide : 16 > 0))]
        omega
      rw [List.cons_append, List.cons_append, List.cons_append, List.cons_append, List.cons_append,
        List.singleton_append, readChars.eq_3, hhex]
      simp only
      rw [if_neg (by simp; omega), if_neg (by simp; omega), Char.ofNat_toNat]
    · next hc =>
      rw [List.singleton_append,
        readChars.eq_5 _ _ _ hq (fun _ _ _ _ _ h _ => hb h) (fun _ _ h _ => hb h)]
      simp [hc]
  -- the two-character escapes
  all_goals simp [readChars.eq_4, simpleEscape?]

theorem readChars_escaped (acc cs rest : List Char) :
    readChars acc (cs.flatMap escapeChar ++ '"' :: rest) = some (acc.reverse ++ cs, rest) := by
  induction cs generalizing acc with
  | nil => simp [readChars.eq_2]
  | cons c cs ih => rw [List.flatMap_cons, List.append_assoc, readChars_escapeChar, ih]; simp

@[simp] theorem toList_quote (s : String) :
    (quote s).toList = '"' :: (s.toList.flatMap escapeChar ++ ['"']) := by
  simp [quote]

theorem two_le_length_quote (s : String) : 2 ≤ (quote s).length := by
  rw [← String.length_toList, toList_quote]; simp

theorem skipSpace_cons (c : Char) (cs : List Char) (h : isSpace c = false) :
    skipSpace (c :: cs) = c :: cs := by
  simp [skipSpace, h]

/-- What may follow a value inside a document: a comma, a closing bracket or brace, or nothing. -/
def Closes (rest : List Char) : Prop := ∀ c ∈ rest.head?, c = ',' ∨ c = ']' ∨ c = '}'

/-- A value whose compact text reads back at nesting depth `depth`, given fuel at least its length
and whatever may follow it. The text starts with neither a blank nor a closer, so a list or an
object that holds the value does not end there. -/
structure ReadsBack (d : Dialect) (depth : Nat) (v : Value) : Prop where
  opens : ∃ c t, v.compact.toList = c :: t ∧ isSpace c = false ∧ c ≠ ']' ∧ c ≠ '\x7d'
  read : ∀ fuel rest, v.compact.length ≤ fuel → Closes rest →
    readValue d depth fuel (v.compact.toList ++ rest) = some (v, rest)

theorem readsBack_str (d : Dialect) (depth : Nat) (s : String) : ReadsBack d depth (.str s) := by
  refine ⟨⟨'"', s.toList.flatMap escapeChar ++ ['"'], by simp [Value.compact], by decide, by decide,
    by decide⟩, ?_⟩
  intro fuel rest hf _
  have hq := two_le_length_quote s
  simp only [Value.compact] at hf ⊢
  obtain ⟨f, rfl⟩ : ∃ f, fuel = f + 1 := ⟨fuel - 1, by omega⟩
  rw [toList_quote, List.cons_append, readValue.eq_2, skipSpace_cons '"' _ (by decide)]
  simp [List.append_assoc, readChars_escaped]

theorem readNumber_minusOne (d : Dialect) {rest : List Char} (hr : Closes rest) :
    readNumber d ('-' :: '1' :: rest) = some ("-1", rest) := by
  have hfin : Decimal.scaledFloat? "-1" ≠ none := Option.isSome_iff_ne_none.mp (by decide)
  -- the digits stop at once, with no fraction and no exponent
  rcases rest with _ | ⟨c, r⟩
  · simp [readNumber, intDigits, hfin]
  · rcases hr c rfl with rfl | rfl | rfl <;> simp [readNumber, intDigits, hfin]

theorem readsBack_minusOne (d : Dialect) (depth : Nat) : ReadsBack d depth (.num "-1") := by
  have hl : "-1".length = 2 := rfl
  have ht : "-1".toList = ['-', '1'] := rfl
  refine ⟨⟨'-', ['1'], by simp [Value.compact, ht], by decide, by decide, by decide⟩, ?_⟩
  intro fuel rest hf hr
  simp only [Value.compact, hl, ht] at hf ⊢
  obtain ⟨f, rfl⟩ : ∃ f, fuel = f + 1 := ⟨fuel - 1, by omega⟩
  rw [List.cons_append, List.cons_append, List.nil_append, readValue.eq_2,
    skipSpace_cons '-' _ (by decide)]
  simp [readNumber_minusOne d hr]

/-- The items of a list, each of which reads back, read back up to the closing bracket. -/
theorem readItems_of {d : Dialect} {depth : Nat} {xs : List Value}
    (hxs : ∀ x ∈ xs, ReadsBack d depth x) (hne : xs ≠ []) (rest : List Char) (acc : List Value)
    (fuel : Nat) (hf : (compactItems xs).length < fuel) :
    readItems d depth fuel ((compactItems xs).toList ++ ']' :: rest) acc =
      some (acc.reverse ++ xs, rest) := by
  induction xs generalizing acc fuel with
  | nil => exact absurd rfl hne
  | cons x xs ih =>
    have hx := (hxs x (by simp)).read
    cases xs with
    | nil =>
      simp only [compactItems] at hf ⊢
      obtain ⟨f, rfl⟩ : ∃ f, fuel = f + 1 := ⟨fuel - 1, by omega⟩
      rw [readItems.eq_2, hx f (']' :: rest) (by omega) (by simp [Closes])]
      simp only
      rw [skipSpace_cons ']' _ (by decide)]
      simp
    | cons y ys =>
      have hc : ",".toList = [','] := rfl
      have hl : ",".length = 1 := rfl
      rw [compactItems.eq_3 _ _ (by simp)] at hf ⊢
      simp only [String.length_append, hl] at hf
      obtain ⟨f, rfl⟩ : ∃ f, fuel = f + 1 := ⟨fuel - 1, by omega⟩
      have htail := ih (fun z hz => hxs z (by simp_all)) (by simp) (x :: acc) f (by omega)
      simp only [String.toList_append, hc, List.append_assoc, List.cons_append, List.nil_append]
      rw [readItems.eq_2, hx f _ (by omega) (by simp [Closes])]
      simp only
      rw [skipSpace_cons ',' _ (by decide)]
      simp [htail]

theorem readsBack_arr {d : Dialect} {depth : Nat} (hd : depth < d.maxDepth) {xs : List Value}
    (hxs : ∀ x ∈ xs, ReadsBack d (depth + 1) x) : ReadsBack d depth (.arr xs) := by
  have hb : "[".length = 1 := rfl
  have hb' : "]".length = 1 := rfl
  have ho : "[".toList = ['['] := rfl
  have hc : "]".toList = [']'] := rfl
  refine ⟨⟨'[', (compactItems xs).toList ++ [']'], by simp [Value.compact, ho], by decide, by decide,
    by decide⟩, ?_⟩
  intro fuel rest hf _
  simp only [Value.compact, String.length_append, hb, hb'] at hf ⊢
  obtain ⟨f, rfl⟩ : ∃ f, fuel = f + 1 := ⟨fuel - 1, by omega⟩
  simp only [String.toList_append, ho, hc, List.append_assoc, List.cons_append, List.nil_append]
  rw [readValue.eq_2, skipSpace_cons '[' _ (by decide)]
  simp only [if_neg (Nat.not_le.mpr hd)]
  cases xs with
  | nil =>
    simp only [compactItems]
    rw [String.toList_empty, List.nil_append, skipSpace_cons ']' _ (by decide)]
    simp
  | cons x xs =>
    obtain ⟨c, t, hct, hsp, hc1, -⟩ := (hxs x (by simp)).opens
    have hitems := readItems_of hxs (by simp) rest [] f (by omega)
    -- the first item starts with neither a blank nor `]`, so the list is not empty
    obtain ⟨u, hu⟩ : ∃ u, (compactItems (x :: xs)).toList = c :: u := by
      cases xs with
      | nil => exact ⟨t, by simp [compactItems, hct]⟩
      | cons y ys =>
        refine ⟨t ++ ',' :: (compactItems (y :: ys)).toList, ?_⟩
        rw [compactItems.eq_3 _ _ (by simp)]
        simp [hct]
    rw [hu, List.cons_append, skipSpace_cons c _ hsp]
    split
    · next r' h => exact absurd (List.cons.inj h).1 hc1
    · rw [← List.cons_append, ← hu, hitems]
      simp

/-- One field `"k":v` read: what follows the value decides whether more fields come. -/
theorem readFields_field {d : Dialect} {depth f : Nat} {v : Value} (hv : ReadsBack d depth v)
    (hf : v.compact.length ≤ f) (k : String) {r : List Char} (hr : Closes r)
    (acc : List (String × Value)) :
    readFields d depth (f + 1) ((quote k).toList ++ ':' :: (v.compact.toList ++ r)) acc =
      match skipSpace r with
      | ',' :: r' => readFields d depth f r' ((k, v) :: acc)
      | '\x7d' :: r' => some (((k, v) :: acc).reverse, r')
      | _ => none := by
  rw [readFields.eq_2, toList_quote, List.cons_append, skipSpace_cons '"' _ (by decide)]
  simp only [List.append_assoc, List.cons_append]
  rw [readChars_escaped]
  simp only [List.reverse_nil, List.nil_append, String.ofList_toList]
  rw [skipSpace_cons ':' _ (by decide)]
  simp only
  exact (hv.read f r hf hr) ▸ rfl

/-- The fields of an object, each value of which reads back, read back up to the closing brace. -/
theorem readFields_of {d : Dialect} {depth : Nat} {fs : List (String × Value)}
    (hfs : ∀ kv ∈ fs, ReadsBack d depth kv.2) (hne : fs ≠ []) (rest : List Char)
    (acc : List (String × Value)) (fuel : Nat) (hf : (compactFields fs).length < fuel) :
    readFields d depth fuel ((compactFields fs).toList ++ '\x7d' :: rest) acc =
      some (acc.reverse ++ fs, rest) := by
  induction fs generalizing acc fuel with
  | nil => exact absurd rfl hne
  | cons kv fs ih =>
    obtain ⟨k, v⟩ := kv
    have hv : ReadsBack d depth v := hfs (k, v) (by simp)
    have hcolon : ":".toList = [':'] := rfl
    have hl : ":".length = 1 := rfl
    cases fs with
    | nil =>
      simp only [compactFields, String.length_append, hl] at hf ⊢
      obtain ⟨f, rfl⟩ : ∃ f, fuel = f + 1 := ⟨fuel - 1, by omega⟩
      simp only [String.toList_append, hcolon, List.append_assoc, List.cons_append,
        List.nil_append]
      rw [readFields_field hv (by omega) k (by simp [Closes]), skipSpace_cons '\x7d' _ (by decide)]
      simp
    | cons g gs =>
      have hcomma : ",".toList = [','] := rfl
      have hl' : ",".length = 1 := rfl
      rw [compactFields.eq_3 _ _ _ (by simp)] at hf ⊢
      simp only [String.length_append, hl, hl'] at hf
      obtain ⟨f, rfl⟩ : ∃ f, fuel = f + 1 := ⟨fuel - 1, by omega⟩
      have htail := ih (fun kv h => hfs kv (by simp [h])) (by simp) ((k, v) :: acc) f (by omega)
      simp only [String.toList_append, hcolon, hcomma, List.append_assoc, List.cons_append,
        List.nil_append]
      rw [readFields_field hv (by omega) k (by simp [Closes]), skipSpace_cons ',' _ (by decide)]
      simp [htail]

theorem readsBack_obj {d : Dialect} {depth : Nat} (hd : depth < d.maxDepth)
    {fs : List (String × Value)} (hfs : ∀ kv ∈ fs, ReadsBack d (depth + 1) kv.2) :
    ReadsBack d depth (.obj fs) := by
  have hb : "\x7b".length = 1 := rfl
  have hb' : "\x7d".length = 1 := rfl
  have ho : "\x7b".toList = ['\x7b'] := rfl
  have hc : "\x7d".toList = ['\x7d'] := rfl
  refine ⟨⟨'\x7b', (compactFields fs).toList ++ ['\x7d'], by simp [Value.compact, ho], by decide,
    by decide, by decide⟩, ?_⟩
  intro fuel rest hf _
  simp only [Value.compact, String.length_append, hb, hb'] at hf ⊢
  obtain ⟨f, rfl⟩ : ∃ f, fuel = f + 1 := ⟨fuel - 1, by omega⟩
  simp only [String.toList_append, ho, hc, List.append_assoc, List.cons_append, List.nil_append]
  rw [readValue.eq_2, skipSpace_cons '\x7b' _ (by decide)]
  simp only [if_neg (Nat.not_le.mpr hd)]
  cases fs with
  | nil =>
    simp only [compactFields]
    rw [String.toList_empty, List.nil_append, skipSpace_cons '\x7d' _ (by decide)]
    simp
  | cons kv fs =>
    have hfields := readFields_of hfs (by simp) rest [] f (by omega)
    -- the first key is a string, so the object is not empty
    obtain ⟨u, hu⟩ : ∃ u, (compactFields (kv :: fs)).toList = '"' :: u := by
      obtain ⟨k, v⟩ := kv
      cases fs with
      | nil => exact ⟨k.toList.flatMap escapeChar ++ '"' :: (":" ++ v.compact).toList, by
          simp [compactFields]⟩
      | cons g gs =>
        refine ⟨k.toList.flatMap escapeChar ++ '"' ::
          (":" ++ v.compact ++ "," ++ compactFields (g :: gs)).toList, ?_⟩
        rw [compactFields.eq_3 _ _ _ (by simp)]
        simp
    rw [hu, List.cons_append, skipSpace_cons '"' _ (by decide)]
    split
    · next r' h => exact absurd (List.cons.inj h).1 (by decide)
    · rw [← List.cons_append, ← hu, hfields]
      simp

/-- A document holding a value that reads back at the top level is read as that value. -/
theorem read?_compact {d : Dialect} {v : Value} (hv : ReadsBack d 0 v) :
    read? d v.compact = some v := by
  have hlen : v.compact.length ≤ 2 * v.compact.toList.length + 4 := by
    rw [String.length_toList]; omega
  simp only [read?]
  rw [show v.compact.toList = v.compact.toList ++ [] by simp, hv.read _ [] (by simpa using hlen) (by simp [Closes])]
  simp [skipSpace]

end ChaseProse.Json
