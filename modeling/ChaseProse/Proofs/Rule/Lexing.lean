import Mathlib
import ChaseProse.Rule.Token
/-! The lexer, one token at a time: a token at the head of a text is scanned whole whatever
follows, and every lexeme the lexer returns is sound. -/
namespace ChaseProse.Rule

theorem take_length_takeWhile {α : Type} (p : α → Bool) (l : List α) :
    l.take (l.takeWhile p).length = l.takeWhile p :=
  (List.prefix_iff_eq_take.mp (List.takeWhile_prefix p)).symm

theorem takeWhile_append_of_stop {α : Type} {p : α → Bool} {xs ys : List α} (hx : ∀ x ∈ xs, p x)
    (hy : ∀ y ∈ ys.head?, p y = false) : (xs ++ ys).takeWhile p = xs := by
  rw [List.takeWhile_append_of_pos hx]
  cases ys with
  | nil => simp
  | cons y ys => simp [hy y rfl]

/-- A lexeme without its offset: all the parser reads of it. -/
def Lexeme.kind (l : Lexeme) : Token × String := (l.token, l.text)

/-- The text `cs` lexes, from any offset, to lexemes of kinds `ks`. -/
def Lexes (cs : List Char) (ks : List (Token × String)) : Prop :=
  ∀ offset, ∃ ls, lexFrom offset cs = .ok ls ∧ ls.map Lexeme.kind = ks

theorem Lexes.nil : Lexes [] [] := fun _ => ⟨[], by rw [lexFrom], rfl⟩

theorem Lexes.blank {c : Char} {cs : List Char} {ks : List (Token × String)} (hc : isSkipped c)
    (h : Lexes cs ks) : Lexes (c :: cs) ks := fun o => by
  rw [lexFrom, if_pos hc]
  exact h (o + 1)

/-- A token scanned at the head of the text, then the lexemes of the rest. -/
theorem Lexes.token {c : Char} {cs rest : List Char} {t : Token} {ks : List (Token × String)}
    (hc : isSkipped c = false) (hs : scan (c :: cs ++ rest) = .token t (cs.length + 1))
    (h : Lexes rest ks) : Lexes (c :: cs ++ rest) ((t, String.ofList (c :: cs)) :: ks) := fun o => by
  obtain ⟨ls, hl, hk⟩ := h (o + byteLength (c :: cs))
  refine ⟨⟨t, String.ofList (c :: cs), o⟩ :: ls, ?_, by simp [hk, Lexeme.kind]⟩
  rw [List.cons_append, lexFrom, if_neg (by simp [hc]), ← List.cons_append, hs]
  have htake : (c :: cs ++ rest).take (max (cs.length + 1) 1) = c :: cs := by
    rw [Nat.max_eq_left (by omega), ← List.length_cons, List.take_left]
  have hdrop : (c :: cs ++ rest).drop (max (cs.length + 1) 1) = rest := by
    rw [Nat.max_eq_left (by omega), ← List.length_cons, List.drop_left]
  simp only [htake, hdrop, hl]

/-! ### Character classes -/

theorem isDigit_of_isNameStart {c : Char} (hc : isNameStart c) : c.isDigit = false := by
  simp only [isNameStart, Bool.or_eq_true, Bool.and_eq_true, beq_iff_eq] at hc
  rcases hc with ⟨ha, -⟩ | rfl
  · simp only [Char.isAlpha, Char.isUpper, Char.isLower, Bool.or_eq_true, Bool.and_eq_true,
      decide_eq_true_eq, UInt32.le_iff_toNat_le] at ha
    rw [Bool.eq_false_iff, ne_eq, Char.isDigit_iff_toNat]
    simp only [Char.toNat] at *
    have : 'A'.val.toNat = 65 := rfl
    have : 'Z'.val.toNat = 90 := rfl
    have : 'a'.val.toNat = 97 := rfl
    have : 'z'.val.toNat = 122 := rfl
    have : '0'.val.toNat = 48 := rfl
    have : '9'.val.toNat = 57 := rfl
    omega
  · decide

theorem isNameChar_of_isDigit {c : Char} (hc : c.isDigit) : isNameChar c := by
  simp [isNameChar, hc]

theorem isSkipped_of_isNameChar {c : Char} (hc : isNameChar c) : isSkipped c = false := by
  rw [Bool.eq_false_iff]
  intro hs
  simp only [isSkipped, Bool.or_eq_true, beq_iff_eq] at hs
  rcases hs with (((rfl | rfl) | rfl) | rfl) | rfl <;> simp [isNameChar, isNameStart] at hc

/-! ### Names -/

theorem scan_of_isNameStart {c : Char} (rest : List Char) (hc : isNameStart c) :
    scan (c :: rest) =
      let n := 1 + (rest.takeWhile isNameChar).length
      if (c :: rest).take n == ['n', 'o', 't'] then .token .not 3 else .token .ident n := by
  have hd := isDigit_of_isNameStart hc
  revert hc hd
  unfold scan
  split <;> intro hc hd <;> simp_all [isNameStart]

/-- A name: a letter or an underscore, then letters, digits and underscores. -/
def IsName (cs : List Char) : Prop :=
  ∃ c cs', cs = c :: cs' ∧ isNameStart c ∧ ∀ x ∈ cs', isNameChar x

/-- A name is scanned whole when no name character follows it; the name `not` is the keyword. -/
theorem scan_name {cs rest : List Char} (hn : IsName cs)
    (hr : ∀ x ∈ rest.head?, isNameChar x = false) :
    scan (cs ++ rest) = if cs = ['n', 'o', 't'] then .token .not 3 else .token .ident cs.length := by
  obtain ⟨c, cs, rfl, hc, hcs⟩ := hn
  have ht : (c :: cs ++ rest).take (cs.length + 1) = c :: cs := List.take_left' rfl
  rw [List.cons_append, scan_of_isNameStart _ hc, takeWhile_append_of_stop hcs hr,
    ← List.cons_append]
  simp only [Nat.add_comm 1, ht, beq_iff_eq, List.length_cons]

/-! ### Numerals -/

def fracLength : List Char → Nat
  | '.' :: r => let k := (r.takeWhile Char.isDigit).length; if k = 0 then 0 else k + 1
  | _ => 0

def expoSign : List Char → Nat × List Char
  | '+' :: x => (1, x)
  | '-' :: x => (1, x)
  | x => (0, x)

def expoLength : List Char → Nat
  | e :: r =>
    if e == 'e' || e == 'E' then
      let k := ((expoSign r).2.takeWhile Char.isDigit).length
      if k = 0 then 0 else 1 + (expoSign r).1 + k
    else 0
  | [] => 0

theorem numberLength_eq (cs : List Char) : numberLength cs =
    (cs.takeWhile Char.isDigit).length +
      fracLength (cs.drop (cs.takeWhile Char.isDigit).length) +
      expoLength ((cs.drop (cs.takeWhile Char.isDigit).length).drop
        (fracLength (cs.drop (cs.takeWhile Char.isDigit).length))) := rfl

/-- What may follow a number without joining it: no digit or exponent mark, and no point
before a digit. -/
def NumberStop (rest : List Char) : Prop :=
  (∀ c ∈ rest.head?, c.isDigit = false ∧ c ≠ 'e' ∧ c ≠ 'E') ∧
    ∀ r, rest = '.' :: r → ∀ c ∈ r.head?, c.isDigit = false

@[simp] theorem fracLength_nil : fracLength [] = 0 := rfl

theorem fracLength_dot (r : List Char) : fracLength ('.' :: r) =
    if (r.takeWhile Char.isDigit).length = 0 then 0 else (r.takeWhile Char.isDigit).length + 1 :=
  rfl

theorem fracLength_cons_of_ne {c : Char} (r : List Char) (h : c ≠ '.') : fracLength (c :: r) = 0 := by
  unfold fracLength; split <;> simp_all

theorem fracLength_of_stop {z : List Char}
    (hz : ∀ r, z = '.' :: r → ∀ c ∈ r.head?, c.isDigit = false) : fracLength z = 0 := by
  rcases z with _ | ⟨c, r⟩
  · rfl
  · by_cases hc : c = '.'
    · subst hc
      rcases r with _ | ⟨d, r⟩
      · rfl
      · simp [fracLength_dot, hz _ rfl d rfl]
    · exact fracLength_cons_of_ne r hc

theorem fracLength_le (R : List Char) : fracLength R ≤ R.length := by
  rcases R with _ | ⟨c, r⟩
  · exact Nat.zero_le _
  · by_cases hc : c = '.'
    · subst hc
      have : (r.takeWhile Char.isDigit).length ≤ r.length := (List.takeWhile_sublist _).length_le
      rw [fracLength_dot]; split <;> simp; omega
    · simp [fracLength_cons_of_ne r hc]

theorem head_of_fracLength_pos {R : List Char} (h : 0 < fracLength R) : R.head? = some '.' := by
  rcases R with _ | ⟨c, r⟩
  · exact absurd h (by decide)
  · by_cases hc : c = '.'
    · rw [hc]; rfl
    · simp [fracLength_cons_of_ne r hc] at h

/-- The fraction is read again when a stop follows it. -/
theorem fracLength_take_append (R : List Char) {Z : List Char}
    (hz : ∀ c ∈ Z.head?, c.isDigit = false)
    (hz' : ∀ r, Z = '.' :: r → ∀ c ∈ r.head?, c.isDigit = false) :
    fracLength (R.take (fracLength R) ++ Z) = fracLength R := by
  rcases R with _ | ⟨c, r⟩
  · simpa using fracLength_of_stop hz'
  · by_cases hc : c = '.'
    · subst hc
      rw [fracLength_dot]
      by_cases hk : (r.takeWhile Char.isDigit).length = 0
      · rw [if_pos hk]; simpa using fracLength_of_stop hz'
      · rw [if_neg hk, List.take_succ_cons, take_length_takeWhile, List.cons_append, fracLength_dot,
          takeWhile_append_of_stop (fun x hx => List.mem_takeWhile_imp hx) hz, if_neg hk]
    · rw [fracLength_cons_of_ne r hc]; simpa using fracLength_of_stop hz'

theorem expoSign_of_isDigit {c : Char} (r : List Char) (h : c.isDigit) :
    expoSign (c :: r) = (0, c :: r) := by
  unfold expoSign; split <;> simp_all

theorem expoSign_split (r : List Char) :
    r.take (expoSign r).1 ++ (expoSign r).2 = r ∧
      (expoSign r).1 + (expoSign r).2.length = r.length := by
  unfold expoSign; split <;> simp <;> omega

theorem expoSign_of_digits {y : List Char} (hy : ∀ c ∈ y.head?, c.isDigit) :
    expoSign y = (0, y) := by
  rcases y with _ | ⟨c, y⟩
  · rfl
  · exact expoSign_of_isDigit y (hy c rfl)

/-- A sign is read again before digits. -/
theorem expoSign_take_append (r : List Char) {y : List Char} (hy : ∀ c ∈ y.head?, c.isDigit) :
    expoSign (r.take (expoSign r).1 ++ y) = ((expoSign r).1, y) := by
  rcases r with _ | ⟨c, x⟩
  · rw [List.take_nil, List.nil_append]
    exact expoSign_of_digits hy
  · by_cases h1 : c = '+'
    · subst h1; rfl
    by_cases h2 : c = '-'
    · subst h2; rfl
    have hc : expoSign (c :: x) = (0, c :: x) := by unfold expoSign; split <;> simp_all
    simpa [hc] using expoSign_of_digits hy

@[simp] theorem expoLength_nil : expoLength [] = 0 := rfl

theorem expoLength_of_stop {z : List Char} (hz : ∀ c ∈ z.head?, c ≠ 'e' ∧ c ≠ 'E') :
    expoLength z = 0 := by
  rcases z with _ | ⟨c, r⟩
  · rfl
  · have := hz c rfl
    simp [expoLength, this.1, this.2]

theorem expoLength_cons (m : Char) (r : List Char) (hm : m = 'e' ∨ m = 'E') :
    expoLength (m :: r) =
      if ((expoSign r).2.takeWhile Char.isDigit).length = 0 then 0
      else 1 + (expoSign r).1 + ((expoSign r).2.takeWhile Char.isDigit).length := by
  rcases hm with rfl | rfl <;> rfl

theorem expoLength_cons_of_not {m : Char} (r : List Char) (hm : ¬(m = 'e' ∨ m = 'E')) :
    expoLength (m :: r) = 0 :=
  expoLength_of_stop fun c hc => by
    simp only [List.head?_cons, Option.mem_def, Option.some.injEq] at hc
    subst hc
    exact not_or.mp hm

theorem head_of_expoLength_pos {R : List Char} (h : 0 < expoLength R) :
    ∃ m r, R = m :: r ∧ (m = 'e' ∨ m = 'E') := by
  rcases R with _ | ⟨m, r⟩
  · exact absurd h (by decide)
  · by_cases hm : m = 'e' ∨ m = 'E'
    · exact ⟨m, r, rfl, hm⟩
    · rw [expoLength_cons_of_not r hm] at h
      exact absurd h (by decide)

theorem expoLength_le (R : List Char) : expoLength R ≤ R.length := by
  rcases R with _ | ⟨m, r⟩
  · exact Nat.zero_le _
  · by_cases hm : m = 'e' ∨ m = 'E'
    · have : ((expoSign r).2.takeWhile Char.isDigit).length ≤ (expoSign r).2.length :=
        (List.takeWhile_sublist _).length_le
      have := (expoSign_split r).2
      rw [expoLength_cons m r hm]
      split
      · exact Nat.zero_le _
      · simp only [List.length_cons]; omega
    · rw [expoLength_cons_of_not r hm]
      exact Nat.zero_le _

/-- The exponent is read again when a stop follows it. -/
theorem expoLength_take_append (R : List Char) {rest : List Char} (hr : NumberStop rest) :
    expoLength (R.take (expoLength R) ++ rest) = expoLength R := by
  have hstop : expoLength rest = 0 := expoLength_of_stop fun c hc => (hr.1 c hc).2
  rcases R with _ | ⟨m, r⟩
  · simpa using hstop
  · by_cases hm : m = 'e' ∨ m = 'E'
    · rw [expoLength_cons m r hm]
      split
      · simpa using hstop
      · next hk =>
        -- the mark, the sign and the digits `ds` come back in front of the stop
        obtain ⟨hsplit, hlen⟩ := expoSign_split r
        set s := (expoSign r).1
        set ds := (expoSign r).2.takeWhile Char.isDigit
        have htake : (m :: r).take (1 + s + ds.length) = m :: (r.take s ++ ds) := by
          have hs : (r.take s).length = s := by simp; omega
          rw [show 1 + s + ds.length = (s + ds.length) + 1 by omega, List.take_succ_cons]
          congr 1
          conv => lhs; rw [← hsplit]
          rw [List.take_append, List.take_of_length_le (by omega), hs,
            Nat.add_sub_cancel_left, take_length_takeWhile]
        have hhead : ∀ c ∈ (ds ++ rest).head?, c.isDigit := by
          obtain ⟨d, ds', hd⟩ :=
            List.exists_cons_of_ne_nil (List.ne_nil_of_length_pos (Nat.pos_of_ne_zero hk))
          intro c hc
          rw [hd, List.cons_append, List.head?_cons, Option.mem_def, Option.some.injEq] at hc
          subst hc
          exact List.mem_takeWhile_imp (hd ▸ List.mem_cons_self)
        rw [htake, List.cons_append, List.append_assoc, expoLength_cons m _ hm,
          expoSign_take_append r hhead,
          takeWhile_append_of_stop (fun c hc => List.mem_takeWhile_imp hc) (fun c hc => (hr.1 c hc).1),
          if_neg hk]
    · rw [expoLength_cons_of_not r hm]
      simpa using hstop


theorem numberLength_split (cs : List Char) :
    let W := cs.takeWhile Char.isDigit
    let R := cs.drop W.length
    cs = W ++ R ∧ numberLength cs = W.length + fracLength R + expoLength (R.drop (fracLength R)) := by
  refine ⟨?_, numberLength_eq cs⟩
  conv => lhs; rw [← List.take_append_drop (cs.takeWhile Char.isDigit).length cs]
  rw [take_length_takeWhile]

theorem numberLength_le (cs : List Char) : numberLength cs ≤ cs.length := by
  obtain ⟨hcs, hn⟩ := numberLength_split cs
  have hf := fracLength_le (cs.drop (cs.takeWhile Char.isDigit).length)
  have hx := expoLength_le ((cs.drop (cs.takeWhile Char.isDigit).length).drop
    (fracLength (cs.drop (cs.takeWhile Char.isDigit).length)))
  have hW : (cs.takeWhile Char.isDigit).length ≤ cs.length := (List.takeWhile_sublist _).length_le
  rw [hn]
  simp only [List.length_drop] at hf hx
  omega

/-- After a run of digits that something else ends, a number is those digits, a fraction and an
exponent. -/
theorem numberLength_digits_append {W Y : List Char} (hW : ∀ c ∈ W, c.isDigit)
    (hY : ∀ c ∈ Y.head?, c.isDigit = false) :
    numberLength (W ++ Y) = W.length + fracLength Y + expoLength (Y.drop (fracLength Y)) := by
  rw [numberLength_eq, takeWhile_append_of_stop hW hY, List.drop_left]

/-- A number cut from a text is read whole again in front of any stop. -/
theorem numberLength_take_append (cs : List Char) {rest : List Char} (hr : NumberStop rest) :
    numberLength (cs.take (numberLength cs) ++ rest) = numberLength cs := by
  -- the number is its digits `W`, a fraction of `f` characters and an exponent of `x`
  obtain ⟨hcs, hn⟩ := numberLength_split cs
  set W := cs.takeWhile Char.isDigit
  set R := cs.drop W.length
  set f := fracLength R
  set x := expoLength (R.drop f)
  have hf := fracLength_le R
  have htake : cs.take (W.length + f + x) = W ++ (R.take f ++ (R.drop f).take x) := by
    conv => lhs; rw [hcs]
    rw [List.take_append, List.take_of_length_le (by omega), Nat.add_assoc, Nat.add_sub_cancel_left,
      List.take_add]
  -- after the fraction: the exponent, then the stop
  set Z := (R.drop f).take x ++ rest
  have hZ : (∀ c ∈ Z.head?, c.isDigit = false) ∧
      ∀ r, Z = '.' :: r → ∀ c ∈ r.head?, c.isDigit = false := by
    by_cases hx : x = 0
    · simp only [Z, hx, List.take_zero, List.nil_append]
      exact ⟨fun c hc => (hr.1 c hc).1, hr.2⟩
    · obtain ⟨m, r', hR, hm⟩ := head_of_expoLength_pos (Nat.pos_of_ne_zero hx)
      have hZm : Z = m :: (r'.take (x - 1) ++ rest) := by
        simp only [Z, hR]
        rw [show x = (x - 1) + 1 by omega, List.take_succ_cons, List.cons_append,
          Nat.add_sub_cancel]
      rw [hZm]
      rcases hm with rfl | rfl <;> exact ⟨by simp, by simp⟩
  -- after the digits: the fraction, then the rest
  have hY : ∀ c ∈ (R.take f ++ Z).head?, c.isDigit = false := by
    by_cases hf0 : f = 0
    · simpa [hf0] using hZ.1
    · obtain ⟨r', hR⟩ := List.head?_eq_some_iff.mp (head_of_fracLength_pos (Nat.pos_of_ne_zero hf0))
      rw [hR, show f = (f - 1) + 1 by omega, List.take_succ_cons, List.cons_append]
      simp
  have hlen : (R.take f).length = f := by simp; omega
  rw [hn, htake, List.append_assoc, List.append_assoc,
    numberLength_digits_append (fun c hc => List.mem_takeWhile_imp hc) hY,
    fracLength_take_append R hZ.1 hZ.2, List.drop_left' hlen, expoLength_take_append _ hr]


/-- A numeral: a digit first, and read whole as one number in front of any stop. -/
def Numeral (cs : List Char) : Prop :=
  (∃ c cs', cs = c :: cs' ∧ c.isDigit) ∧
    ∀ rest, NumberStop rest → numberLength (cs ++ rest) = cs.length

theorem one_le_numberLength {c : Char} (cs : List Char) (hc : c.isDigit) :
    1 ≤ numberLength (c :: cs) := by
  rw [numberLength_eq, List.takeWhile_cons_of_pos hc, List.length_cons]
  omega

/-- The number the lexer cuts from a text is a numeral. -/
theorem numeral_take {c : Char} (cs : List Char) (hc : c.isDigit) :
    Numeral ((c :: cs).take (numberLength (c :: cs))) := by
  have h1 := one_le_numberLength cs hc
  have hle := numberLength_le (c :: cs)
  refine ⟨⟨c, cs.take (numberLength (c :: cs) - 1), ?_, hc⟩, fun rest hr => ?_⟩
  · rw [show numberLength (c :: cs) = (numberLength (c :: cs) - 1) + 1 by omega, List.take_succ_cons,
      Nat.add_sub_cancel]
  · rw [numberLength_take_append _ hr, List.length_take, Nat.min_eq_left hle]

theorem scan_of_isDigit {c : Char} (rest : List Char) (hc : c.isDigit) :
    scan (c :: rest) = .token .number (numberLength (c :: rest)) := by
  revert hc
  unfold scan
  split <;> intro hc <;> simp_all

theorem scan_numeral {cs rest : List Char} (hn : Numeral cs) (hr : NumberStop rest) :
    scan (cs ++ rest) = .token .number cs.length := by
  obtain ⟨⟨c, cs', rfl, hc⟩, hlen⟩ := hn
  rw [List.cons_append, scan_of_isDigit _ hc, ← List.cons_append, hlen rest hr]

/-! ### String literals -/

/-- Text that stands between the quotes of one string literal: a backslash escapes the character
after it, a line feed excepted, and a quote stands only escaped. -/
def isStringBody : List Char → Bool
  | [] => true
  | '\\' :: c :: cs => c != '\n' && isStringBody cs
  | c :: cs => c != '"' && c != '\\' && isStringBody cs

theorem stringLength_cons_plain {c : Char} (n : Nat) (cs : List Char) (h1 : c ≠ '"')
    (h2 : c ≠ '\\') : stringLength n (c :: cs) = stringLength (n + 1) cs := by
  conv => lhs; unfold stringLength
  split <;> simp_all

theorem stringLength_body {s : List Char} (h : isStringBody s) (n : Nat) (rest : List Char) :
    stringLength n (s ++ '"' :: rest) = .token .str (n + s.length + 1) := by
  fun_induction isStringBody s generalizing n with
  | case1 => simp [stringLength]
  | case2 c cs ih =>
    simp only [Bool.and_eq_true, bne_iff_ne, ne_eq] at h
    simp [stringLength, h.1, ih h.2]
    omega
  | case3 c cs hne ih =>
    simp only [Bool.and_eq_true, bne_iff_ne, ne_eq] at h
    rw [List.cons_append, stringLength_cons_plain _ _ h.1.1 h.1.2, ih h.2, List.length_cons]
    congr 1
    omega

theorem scan_quoted {s : List Char} (h : isStringBody s) (rest : List Char) :
    scan ('"' :: s ++ '"' :: rest) = .token .str (s.length + 2) := by
  rw [List.cons_append]
  change stringLength 1 (s ++ '"' :: rest) = _
  rw [stringLength_body h, Nat.add_comm 1, Nat.add_assoc]

theorem stringLength_token {n : Nat} {cs : List Char} {t : Token} {m : Nat}
    (h : stringLength n cs = .token t m) : t = .str := by
  fun_induction stringLength n cs <;> simp_all


/-! ### Sound lexemes -/

/-- What a scan that finds a name or a number has read. -/
theorem scan_sound {cs : List Char} {t : Token} {n : Nat} (h : scan cs = .token t n) :
    (t = .ident → 0 < n ∧ IsName (cs.take n) ∧ cs.take n ≠ ['n', 'o', 't']) ∧
      (t = .number → 0 < n ∧ Numeral (cs.take n)) := by
  unfold scan at h
  split at h
  case h_18 rest => obtain rfl := stringLength_token h; simp
  case h_19 =>
    rename_i _ c rest _ _ _ _ _ _ _ _ _ _ _ _ _ _ _ _ _ _
    split_ifs at h with hd hn
    · cases h
      exact ⟨by simp, fun _ => ⟨one_le_numberLength rest hd, numeral_take rest hd⟩⟩
    · dsimp only at h
      split at h
      · cases h; simp
      · next hnot =>
        cases h
        have ht : (c :: rest).take (1 + (rest.takeWhile isNameChar).length) =
            c :: rest.takeWhile isNameChar := by
          rw [Nat.add_comm, List.take_succ_cons, take_length_takeWhile]
        refine ⟨fun _ => ⟨by omega, ?_, ?_⟩, by simp⟩
        · rw [ht]
          exact ⟨c, _, rfl, hn, fun x hx => List.mem_takeWhile_imp hx⟩
        · simpa using hnot
  all_goals first | (cases h; simp) | cases h


/-- A sound lexeme: a name token holds a name other than the keyword, and a number token holds
a numeral. -/
structure Lexeme.Sound (l : Lexeme) : Prop where
  ident : l.token = .ident → IsName l.text.toList ∧ l.text ≠ "not"
  number : l.token = .number → Numeral l.text.toList

theorem sound_of_lexFrom {offset : Nat} {cs : List Char} {ls : List Lexeme}
    (h : lexFrom offset cs = .ok ls) : ∀ l ∈ ls, l.Sound := by
  fun_induction lexFrom offset cs generalizing ls with
  | case1 => cases h; simp
  | case2 _ _ _ _ ih => exact ih h
  | case3 o c rest _ t n hs m piece ls' hrest =>
    rename_i ih
    cases h
    intro l hl
    rcases List.mem_cons.mp hl with rfl | hl
    · -- a name or a number is at least one character long, so the lexer cut it as scanned
      have hpiece : 0 < n → piece = (c :: rest).take n := fun hpos => by
        simp only [piece, m, Nat.max_eq_left hpos]
      obtain ⟨hid, hnum⟩ := scan_sound hs
      constructor
      · intro ht
        obtain ⟨hpos, hname, hne⟩ := hid ht
        refine ⟨by simpa [hpiece hpos] using hname, fun hnot => hne ?_⟩
        simpa [hpiece hpos] using congrArg String.toList hnot
      · intro ht
        obtain ⟨hpos, hnum⟩ := hnum ht
        simpa [hpiece hpos] using hnum
    · exact ih hrest l hl
  | case4 => cases h
  | case5 => cases h

end ChaseProse.Rule
