import Mathlib
import ChaseProse.Chase.Pattern
import ChaseProse.Chase.Provenance
import ChaseProse.Proofs.Basic
/-! The text forms of patterns and provenances read back, for every pattern and provenance read
from text; the top-level splitter cuts where entries were joined (`Scan.Cuts`). -/

namespace ChaseProse.Text

/-! ## Trimming -/

theorem dropBlanks_cons {c : Char} (cs : List Char) (h : isBlank c = false) :
    dropBlanks (c :: cs) = c :: cs := by
  simp [dropBlanks, h]

theorem trimList_eq_rdropWhile (cs : List Char) :
    trimList cs = (dropBlanks cs).rdropWhile isBlank := rfl

/-- The blanks that trimming removes stand before and after what it keeps. -/
theorem eq_append_trimList (cs : List Char) :
    ∃ a b, cs = a ++ trimList cs ++ b ∧ (∀ c ∈ a, isBlank c) ∧ ∀ c ∈ b, isBlank c := by
  refine ⟨cs.takeWhile isBlank, (dropBlanks cs).rtakeWhile isBlank, ?_, ?_, ?_⟩
  · rw [trimList_eq_rdropWhile, List.append_assoc, List.rdropWhile_append_rtakeWhile, dropBlanks,
      List.takeWhile_append_dropWhile]
  · exact List.all_eq_true.mp List.all_takeWhile
  · exact fun c hc => List.mem_rtakeWhile_imp hc

theorem trimList_trimList (cs : List Char) : trimList (trimList cs) = trimList cs := by
  -- what is left after the leading blanks starts with a non-blank, and so does its prefix
  have hd : dropBlanks (trimList cs) = trimList cs := by
    cases h : trimList cs with
    | nil => rfl
    | cons x xs =>
      apply dropBlanks_cons
      have hpre : (trimList cs) <+: dropBlanks cs := List.rdropWhile_prefix isBlank _
      rw [h] at hpre
      obtain ⟨t, ht⟩ := hpre
      have hhead := List.head?_dropWhile_not isBlank cs
      rw [← dropBlanks, ← ht] at hhead
      exact hhead
  rw [trimList_eq_rdropWhile (trimList cs), hd, trimList_eq_rdropWhile, List.rdropWhile_idempotent]

theorem trimList_eq_self {cs : List Char} (hh : ∀ c ∈ cs.head?, isBlank c = false)
    (hl : ∀ c ∈ cs.getLast?, isBlank c = false) : trimList cs = cs := by
  have hd : dropBlanks cs = cs := by
    cases cs with
    | nil => rfl
    | cons c cs => exact dropBlanks_cons cs (hh c rfl)
  have hr : dropBlanks cs.reverse = cs.reverse := by
    cases h : cs.reverse with
    | nil => rfl
    | cons c cs' =>
      apply dropBlanks_cons
      apply hl
      rw [← List.head?_reverse, h]; rfl
  rw [trimList, hd, hr, List.reverse_reverse]

theorem trimList_eq_nil_iff {cs : List Char} : trimList cs = [] ↔ ∀ c ∈ cs, isBlank c := by
  rw [trimList_eq_rdropWhile, List.rdropWhile_eq_nil_iff]
  constructor
  · intro h
    apply List.dropWhile_eq_nil_iff.mp
    cases hd : dropBlanks cs with
    | nil => exact hd
    | cons x xs =>
      have hx := List.head?_dropWhile_not isBlank cs
      rw [← dropBlanks, hd] at hx
      have hb := h x (by simp [hd])
      simp_all
  · intro h c hc
    exact h c ((List.dropWhile_suffix isBlank).subset hc)

theorem trimList_cons_of_isBlank {c : Char} (cs : List Char) (h : isBlank c) :
    trimList (c :: cs) = trimList cs := by
  simp [trimList, dropBlanks, h]

theorem trimList_blanks_append {b : List Char} (hb : ∀ c ∈ b, isBlank c) (cs : List Char) :
    trimList (b ++ cs) = trimList cs := by
  induction b with
  | nil => rfl
  | cons c b ih =>
    rw [List.cons_append, trimList_cons_of_isBlank _ (hb c (by simp)),
      ih fun x hx => hb x (by simp [hx])]

/-- Digits are not blanks. -/
theorem not_isBlank_of_isDigit {c : Char} (h : c.isDigit) : isBlank c = false := by
  have hc : 48 ≤ c.toNat ∧ c.toNat ≤ 57 := by
    simp only [Char.isDigit, Bool.and_eq_true, decide_eq_true_eq] at h
    simp only [Char.toNat, UInt32.le_iff_toNat_le] at h ⊢
    simpa using h
  simp only [isBlank]
  simp only [Bool.or_eq_false_iff, Bool.and_eq_false_iff, decide_eq_false_iff_not, beq_eq_false_iff_ne]
  omega

/-- A run without separators joins the first piece of what follows it. -/
theorem splitWhen_append {p : Char → Bool} {a : List Char} (ha : ∀ c ∈ a, p c = false)
    {rest w : List Char} {ws : List (List Char)} (h : splitWhen p rest = w :: ws) :
    splitWhen p (a ++ rest) = (a ++ w) :: ws := by
  induction a with
  | nil => exact h
  | cons c a ih =>
    rw [List.cons_append, splitWhen, if_neg (by simp [ha c (by simp)]),
      ih (fun x hx => ha x (by simp [hx]))]
    rfl

/-- Pieces without separators, joined by one, are cut apart again. -/
theorem splitWhen_intercalate {p : Char → Bool} {sep : Char} (hs : p sep)
    {x : List Char} {xs : List (List Char)} (hx : ∀ y ∈ x :: xs, ∀ c ∈ y, p c = false) :
    splitWhen p ([sep].intercalate (x :: xs)) = x :: xs := by
  induction xs generalizing x with
  | nil => simpa using @splitWhen_append p x (hx x (by simp)) [] [] [] (by simp [splitWhen])
  | cons y ys ih =>
    have hsep : splitWhen p (sep :: [sep].intercalate (y :: ys)) = [] :: y :: ys := by
      rw [splitWhen, if_pos hs, ih (fun z hz => hx z (by simp_all))]
    rw [List.intercalate_cons_cons, List.append_assoc]
    simpa using splitWhen_append (hx x (by simp)) hsep

end ChaseProse.Text

namespace ChaseProse.Decimal

theorem splitSign_of_isDigit {c : Char} (cs : List Char) (h : c.isDigit) :
    splitSign (c :: cs) = (false, c :: cs) := by
  unfold splitSign
  split
  · next hc => exact absurd h (by simp_all)
  · next hc => exact absurd h (by simp_all)
  · rfl

theorem digitsValue_toDigits (n : Nat) : digitsValue (Nat.toDigits 10 n) = n :=
  Nat.ofDigitChars_ten_toDigits

/-- A signed 64-bit integer reads back from its decimal numeral. -/
theorem readInt64?_toString {m : Int} (hlo : -2 ^ 63 ≤ m) (hhi : m < 2 ^ 63) :
    readInt64? (toString m) = some m := by
  have hdigits : ∀ n : Nat, (Nat.toDigits 10 n).all Char.isDigit :=
    fun n => List.all_eq_true.mpr fun c hc => Nat.isDigit_of_mem_toDigits (by decide) (by decide) hc
  rw [Int.toString_eq_repr, Int.repr_eq_if]
  split
  · next hm =>
    obtain ⟨c, cs, hcs⟩ := List.exists_cons_of_ne_nil (@Nat.toDigits_ne_nil m.toNat 10)
    have hc : c.isDigit := List.all_eq_true.mp (hdigits m.toNat) c (by simp [hcs])
    simp only [readInt64?, Nat.repr_eq_ofList_toDigits, String.toList_ofList, hcs,
      splitSign_of_isDigit cs hc]
    rw [← hcs]
    simp [hdigits, Nat.toDigits_ne_nil, digitsValue_toDigits]
    omega
  · next hm =>
    have hminus : "-".toList = ['-'] := rfl
    simp only [readInt64?, Nat.repr_eq_ofList_toDigits, String.toList_append, String.toList_ofList,
      hminus, List.singleton_append, splitSign]
    simp [hdigits, Nat.toDigits_ne_nil, digitsValue_toDigits]
    omega

theorem bounds_of_readInt64? {s : String} {v : Int} (h : readInt64? s = some v) :
    -2 ^ 63 ≤ v ∧ v < 2 ^ 63 := by
  have hpow : Int.pow 2 63 = 2 ^ 63 := rfl
  unfold readInt64? at h
  generalize splitSign s.toList = x at h
  obtain ⟨neg, ds⟩ := x
  dsimp only at h
  generalize (if neg = true then -(digitsValue ds : Int) else digitsValue ds) = w at h
  split_ifs at h with hds hw
  cases h
  simpa [hpow] using hw

end ChaseProse.Decimal

namespace ChaseProse.Chase
open ChaseProse.Text

/-! ## The top-level scanner -/

/-- The scanner state after a run of characters. -/
def Scan.run (s : Scan) (cs : List Char) : Scan := cs.foldl Scan.step s

/-- Whether a run of characters, scanned from `s`, meets no splitting comma. -/
def Scan.quiet : Scan → List Char → Bool
  | _, [] => true
  | s, c :: cs => !s.splits c && Scan.quiet (s.step c) cs

/-- Pieces as the splitter cuts them from state `s`: no piece meets a splitting comma, the first
is scanned from `s` and each later one from the top level, where the piece before it ends. -/
def Scan.Cuts : Scan → List (List Char) → Prop
  | _, [] => True
  | s, p :: ps => s.quiet p = true ∧ (ps ≠ [] → s.run p = Scan.start) ∧ Scan.Cuts Scan.start ps

namespace Scan

@[simp] theorem run_nil (s : Scan) : s.run [] = s := rfl

@[simp] theorem run_cons (s : Scan) (c : Char) (cs : List Char) :
    s.run (c :: cs) = (s.step c).run cs := rfl

@[simp] theorem run_append (s : Scan) (a b : List Char) : s.run (a ++ b) = (s.run a).run b := by
  simp [run, List.foldl_append]

@[simp] theorem quiet_nil (s : Scan) : s.quiet [] = true := rfl

@[simp] theorem quiet_cons (s : Scan) (c : Char) (cs : List Char) :
    s.quiet (c :: cs) = (!s.splits c && (s.step c).quiet cs) := rfl

theorem quiet_append (s : Scan) (a b : List Char) :
    s.quiet (a ++ b) = (s.quiet a && (s.run a).quiet b) := by
  induction a generalizing s with
  | nil => simp
  | cons c a ih => simp [ih, Bool.and_assoc]

/-- Only a comma at the top level splits. -/
theorem eq_start_of_splits {s : Scan} {c : Char} (h : s.splits c) : s = start ∧ c = ',' := by
  obtain ⟨depth, quoted⟩ := s
  simp only [splits, Bool.and_eq_true, beq_iff_eq, Bool.not_eq_true'] at h
  obtain ⟨⟨rfl, rfl⟩, rfl⟩ := h
  exact ⟨rfl, rfl⟩

theorem splits_start_comma : start.splits ',' = true := rfl

/-- Blanks neither split nor move the scanner. -/
theorem step_of_isBlank {c : Char} (h : isBlank c) (s : Scan) : s.step c = s := by
  have hq : c ≠ '"' := by rintro rfl; exact absurd h (by decide)
  have ho : c ≠ '(' := by rintro rfl; exact absurd h (by decide)
  have hs : c ≠ '[' := by rintro rfl; exact absurd h (by decide)
  have hc : c ≠ ')' := by rintro rfl; exact absurd h (by decide)
  have he : c ≠ ']' := by rintro rfl; exact absurd h (by decide)
  simp [step, hq, ho, hs, hc, he]

theorem splits_of_isBlank {c : Char} (h : isBlank c) (s : Scan) : s.splits c = false := by
  have hc : c ≠ ',' := by rintro rfl; exact absurd h (by decide)
  simp [splits, hc]

theorem run_of_blanks {a : List Char} (h : ∀ c ∈ a, isBlank c) (s : Scan) : s.run a = s := by
  induction a with
  | nil => rfl
  | cons c a ih =>
    rw [run_cons, step_of_isBlank (h c (by simp)), ih (fun x hx => h x (by simp [hx]))]

theorem quiet_of_blanks {a : List Char} (h : ∀ c ∈ a, isBlank c) (s : Scan) : s.quiet a := by
  induction a with
  | nil => rfl
  | cons c a ih =>
    simp only [quiet_cons, splits_of_isBlank (h c (by simp)), step_of_isBlank (h c (by simp)),
      Bool.not_false, Bool.true_and]
    exact ih (fun x hx => h x (by simp [hx]))

@[simp] theorem run_trimList (s : Scan) (cs : List Char) : s.run (trimList cs) = s.run cs := by
  obtain ⟨a, b, hcs, ha, hb⟩ := eq_append_trimList cs
  conv => rhs; rw [hcs]
  rw [run_append, run_append, run_of_blanks ha, run_of_blanks hb]

@[simp] theorem quiet_trimList (s : Scan) (cs : List Char) : s.quiet (trimList cs) = s.quiet cs := by
  obtain ⟨a, b, hcs, ha, hb⟩ := eq_append_trimList cs
  conv => rhs; rw [hcs]
  rw [quiet_append, quiet_append, quiet_of_blanks ha, run_of_blanks ha, quiet_of_blanks hb]
  simp

end Scan

/-! ## Pieces -/

theorem pieces_ne_nil (s : Scan) (cs : List Char) : pieces s cs ≠ [] := by
  cases cs with
  | nil => simp [pieces]
  | cons c cs =>
    unfold pieces
    split
    · simp
    · split <;> simp

/-- A run without a splitting comma joins the first piece of what follows it. -/
theorem pieces_append {s : Scan} {a : List Char} (hq : s.quiet a) {rest p : List Char}
    {ps : List (List Char)} (h : pieces (s.run a) rest = p :: ps) :
    pieces s (a ++ rest) = (a ++ p) :: ps := by
  induction a generalizing s with
  | nil => exact h
  | cons c a ih =>
    simp only [Scan.quiet_cons, Bool.and_eq_true, Bool.not_eq_true'] at hq
    rw [List.cons_append, pieces, if_neg (by simp [hq.1]), ih hq.2 h]
    rfl

theorem pieces_of_quiet {s : Scan} {a : List Char} (hq : s.quiet a) : pieces s a = [a] := by
  simpa using @pieces_append s a hq [] [] [] rfl

/-- A piece that ends at the top level is cut off by the comma after it. -/
theorem pieces_comma {a : List Char} (hq : Scan.start.quiet a) (hr : Scan.start.run a = Scan.start)
    (rest : List Char) : pieces Scan.start (a ++ ',' :: rest) = a :: pieces Scan.start rest := by
  have h : pieces (Scan.start.run a) (',' :: rest) = [] :: pieces Scan.start rest := by
    rw [hr, pieces, if_pos Scan.splits_start_comma]
  simpa using pieces_append hq h

/-- Pieces joined by a comma and blanks `b`, where the splitter cuts them, are cut apart again,
each after the first with the blanks before it. -/
theorem pieces_intercalate_sep (b : List Char) (hb : ∀ c ∈ b, isBlank c) {p : List Char}
    {ps : List (List Char)} (h : Scan.start.Cuts (p :: ps)) :
    pieces Scan.start ((',' :: b).intercalate (p :: ps)) = p :: ps.map (b ++ ·) := by
  induction ps generalizing p with
  | nil => simpa using pieces_of_quiet h.1
  | cons q ps ih =>
    obtain ⟨hq, hr, hrest⟩ := h
    -- the blanks after the comma join the next piece, as the scanner stands still on them
    have hblanks : pieces Scan.start (b ++ (',' :: b).intercalate (q :: ps)) =
        (b ++ q) :: ps.map (b ++ ·) :=
      pieces_append (Scan.quiet_of_blanks hb _) (by rw [Scan.run_of_blanks hb]; exact ih hrest)
    rw [List.intercalate_cons_cons, List.append_assoc, List.cons_append,
      pieces_comma hq (hr (by simp)), hblanks, List.map_cons]

/-- What the splitter cuts. -/
theorem cuts_pieces (s : Scan) (cs : List Char) : s.Cuts (pieces s cs) := by
  induction cs generalizing s with
  | nil => simp [pieces, Scan.Cuts]
  | cons c cs ih =>
    unfold pieces
    split
    · next hs =>
      obtain ⟨rfl, -⟩ := Scan.eq_start_of_splits hs
      exact ⟨rfl, fun _ => rfl, ih Scan.start⟩
    · next hs =>
      have h := ih (s.step c)
      split
      · next hp => exact absurd hp (pieces_ne_nil _ _)
      · next p ps hp =>
        rw [hp] at h
        obtain ⟨hq, hr, hrest⟩ := h
        exact ⟨by simp [hs, hq], hr, hrest⟩

theorem Scan.Cuts.tail {s : Scan} {p : List Char} {ps : List (List Char)} (h : s.Cuts (p :: ps)) :
    Scan.start.Cuts ps := h.2.2

/-- Cuts from the top level survive dropping pieces. -/
theorem Scan.Cuts.sublist {l₁ l₂ : List (List Char)} (h : Scan.start.Cuts l₂) (hs : l₁.Sublist l₂) :
    Scan.start.Cuts l₁ := by
  induction hs with
  | slnil => trivial
  | cons a _ ih => exact ih h.tail
  | cons_cons a hsub ih =>
    obtain ⟨hq, hr, hrest⟩ := h
    exact ⟨hq, fun hne => hr (fun h2 => hne (List.eq_nil_of_sublist_nil (h2 ▸ hsub))), ih hrest⟩

theorem Scan.Cuts.map_trimList {s : Scan} {ps : List (List Char)} (h : s.Cuts ps) :
    s.Cuts (ps.map trimList) := by
  induction ps generalizing s with
  | nil => trivial
  | cons p ps ih =>
    obtain ⟨hq, hr, hrest⟩ := h
    exact ⟨by simpa using hq, fun hne => by simpa using hr (by simpa using hne), ih hrest⟩

theorem splitTopLevel_ofList (t : List Char) :
    splitTopLevel (String.ofList t) = (pieces Scan.start t).map fun p => String.ofList (trimList p) := by
  simp [splitTopLevel]

/-- Trimmed texts that the splitter cuts apart, joined by a comma and blanks, split into
themselves again. -/
theorem splitTopLevel_intercalate (b : List Char) (hb : ∀ c ∈ b, isBlank c) (sep : String)
    (hsep : sep.toList = ',' :: b) {es : List String} (hne : es ≠ [])
    (htrim : ∀ e ∈ es, trim e = e) (hcuts : Scan.start.Cuts (es.map String.toList)) :
    splitTopLevel (sep.intercalate es) = es := by
  obtain ⟨e, es, rfl⟩ := List.exists_cons_of_ne_nil hne
  rw [List.map_cons] at hcuts
  rw [splitTopLevel, String.toList_intercalate, hsep, List.map_cons,
    pieces_intercalate_sep b hb hcuts]
  conv => rhs; rw [← List.map_id (e :: es)]
  -- every piece but the first has the blanks `b` in front, which trimming drops
  simp only [List.map_cons, List.map_map]
  refine congrArg₂ List.cons (htrim e (by simp)) (List.map_congr_left fun x hx => ?_)
  rw [Function.comp_apply, Function.comp_apply, trimList_blanks_append hb]
  exact htrim x (by simp [hx])

namespace Provenance

/-- A provenance that its text form carries: entries that are not empty, have no surrounding
blanks, and that the splitter cuts apart where the text form joins them. -/
structure Rereadable (p : Provenance) : Prop where
  ne_empty : ∀ e ∈ p.entries, e ≠ ""
  trimmed : ∀ e ∈ p.entries, trim e = e
  cuts : Scan.start.Cuts (p.entries.map String.toList)

/-- The text form of a provenance it carries reads back as that provenance. -/
theorem parse_render {p : Provenance} (h : p.Rereadable) : Provenance.parse p.render = p := by
  obtain ⟨es⟩ := p
  have htext : (render ⟨es⟩).toList = '[' :: ((", ".intercalate es).toList ++ [']']) := by
    simp [render]
  -- trimming keeps the brackets, and stripping them leaves the joined entries
  have htrim : trimList ('[' :: ((", ".intercalate es).toList ++ [']'])) =
      '[' :: ((", ".intercalate es).toList ++ [']']) :=
    trimList_eq_self (by simp; decide) (by
      rw [← List.cons_append, List.getLast?_concat]
      intro c hc
      cases hc
      decide)
  have hstrip : Provenance.parse (render ⟨es⟩) =
      if (trimList (", ".intercalate es).toList).isEmpty then ⟨[]⟩
      else ⟨(splitTopLevel (String.ofList (", ".intercalate es).toList)).filter (· != "")⟩ := by
    simp only [Provenance.parse, htext, htrim, List.getLast?_concat, beq_self_eq_true, if_true,
      List.dropLast_concat]
  rw [hstrip]
  cases es with
  | nil => simp [trimList, dropBlanks]
  | cons e es =>
    -- the first entry is not blank, so neither is the joined text
    have hfirst : ∃ c ∈ e.toList, isBlank c = false := by
      by_contra hall
      simp only [not_exists, not_and, Bool.not_eq_false] at hall
      apply h.ne_empty e (by simp)
      rw [← h.trimmed e (by simp), trim, trimList_eq_nil_iff.mpr hall]
    have hjoined : (trimList (", ".intercalate (e :: es)).toList).isEmpty = false := by
      obtain ⟨c, hc, hb⟩ := hfirst
      have hmem : c ∈ (", ".intercalate (e :: es)).toList := by
        cases es with
        | nil => simpa using hc
        | cons f es => simp [String.intercalate_cons_cons, hc]
      have hne : trimList (", ".intercalate (e :: es)).toList ≠ [] := fun hnil => by
        simpa [hb] using trimList_eq_nil_iff.mp hnil c hmem
      simpa using hne
    have hsplit := splitTopLevel_intercalate [' '] (List.forall_mem_singleton.mpr (by decide))
      ", " rfl (List.cons_ne_nil e es) h.trimmed h.cuts
    rw [if_neg (by rw [hjoined]; exact Bool.false_ne_true), String.ofList_toList, hsplit,
      List.filter_eq_self.mpr]
    intro x hx
    simpa using h.ne_empty x hx

/-- Every provenance read from text is carried by its text form. -/
theorem rereadable_parse (text : String) : (Provenance.parse text).Rereadable := by
  obtain ⟨t, ht⟩ : ∃ t, Provenance.parse text = if (trimList t).isEmpty then ⟨[]⟩
      else ⟨(splitTopLevel (String.ofList t)).filter (· != "")⟩ := ⟨_, rfl⟩
  rw [ht]
  split
  · exact ⟨by simp, by simp, trivial⟩
  · rw [splitTopLevel_ofList]
    refine ⟨fun e he => by simpa using (List.mem_filter.mp he).2, fun e he => ?_, ?_⟩
    · obtain ⟨p, -, rfl⟩ := List.mem_map.mp (List.mem_filter.mp he).1
      simp [trim, trimList_trimList]
    · have heq : ((pieces Scan.start t).map fun p => String.ofList (trimList p)).map String.toList =
          (pieces Scan.start t).map trimList := by
        simp [Function.comp_def]
      exact (cuts_pieces Scan.start t).map_trimList.sublist (heq ▸ List.filter_sublist.map String.toList)

end Provenance

namespace Pattern

theorem toList_toString_int_ne_nil (m : Int) : (toString m).toList ≠ [] := by
  rw [Int.toString_eq_repr, Int.repr_eq_if]
  split <;> simp [Nat.repr_eq_ofList_toDigits, Nat.toDigits_ne_nil]

/-- A marker is written as a sign and decimal digits. -/
theorem mem_toString_int {m : Int} {c : Char} (h : c ∈ (toString m).toList) :
    c = '-' ∨ c.isDigit := by
  rw [Int.toString_eq_repr, Int.repr_eq_if] at h
  split at h
  · exact .inr (Nat.isDigit_of_mem_toDigits (by decide : 0 < 10) (by decide : 10 ≤ 10)
      (by simpa [Nat.repr_eq_ofList_toDigits] using h))
  · simp only [Nat.repr_eq_ofList_toDigits, String.toList_append, String.toList_ofList,
      List.mem_append] at h
    rcases h with h | h
    · exact .inl (by simpa using h)
    · exact .inr (Nat.isDigit_of_mem_toDigits (by decide : 0 < 10) (by decide : 10 ≤ 10) h)

theorem isBlank_of_mem_toString_int {m : Int} {c : Char} (h : c ∈ (toString m).toList) :
    isBlank c = false := by
  rcases mem_toString_int h with rfl | hd
  · decide
  · exact not_isBlank_of_isDigit hd

theorem trimList_toString_int (m : Int) : trimList (toString m).toList = (toString m).toList :=
  trimList_eq_self (fun _ hc => isBlank_of_mem_toString_int (List.mem_of_mem_head? hc))
    (fun _ hc => isBlank_of_mem_toString_int (List.mem_of_mem_getLast? hc))

/-- The text form of a pattern whose markers are signed 64-bit integers reads back as it. -/
theorem parse_render {p : Pattern} (h : ∀ m ∈ p.markers, -2 ^ 63 ≤ m ∧ m < 2 ^ 63) :
    Pattern.parse p.render = .ok p := by
  obtain ⟨ms⟩ := p
  have htext : (render ⟨ms⟩).toList =
      '(' :: ((",".intercalate (ms.map toString)).toList ++ [')']) := by
    simp [render]
  have htrim : trimList ('(' :: ((",".intercalate (ms.map toString)).toList ++ [')'])) =
      '(' :: ((",".intercalate (ms.map toString)).toList ++ [')']) :=
    trimList_eq_self (by simp; decide) (by
      rw [← List.cons_append, List.getLast?_concat]
      intro c hc
      cases hc
      decide)
  simp only [Pattern.parse, htext, htrim]
  split
  · rw [if_neg (by simp), List.drop_one, List.tail_cons, List.dropLast_concat]
    cases ms with
    | nil => simp [trimList, dropBlanks]
    | cons m ms =>
      have hpieces : ∀ y ∈ (m :: ms).map (String.toList ∘ toString), ∀ c ∈ y,
          (c == ',') = false := by
        intro y hy c hc
        obtain ⟨n, -, rfl⟩ := List.mem_map.mp hy
        rcases mem_toString_int hc with rfl | hd
        · decide
        · have hne : c ≠ ',' := by rintro rfl; exact absurd hd (by decide)
          simpa using hne
      -- the first marker is not blank, so neither is the joined text
      have hjoined : (trimList (",".intercalate ((m :: ms).map toString)).toList).isEmpty = false := by
        obtain ⟨c, hc⟩ := List.exists_mem_of_ne_nil _ (toList_toString_int_ne_nil m)
        have hmem : c ∈ (",".intercalate ((m :: ms).map toString)).toList := by
          cases ms with
          | nil => simpa using hc
          | cons n ns =>
            rw [List.map_cons, List.map_cons, String.intercalate_cons_cons, String.toList_append,
              String.toList_append]
            exact List.mem_append_left _ (List.mem_append_left _ hc)
        have hne : trimList (",".intercalate ((m :: ms).map toString)).toList ≠ [] := fun hnil => by
          simpa [isBlank_of_mem_toString_int hc] using trimList_eq_nil_iff.mp hnil c hmem
        simpa using hne
      have hread : ((m :: ms).map (String.toList ∘ toString)).mapM
          (fun p => Decimal.readInt64? (String.ofList (trimList p))) = some (m :: ms) := by
        rw [List.mapM_map]
        refine mapM_eq_some_self fun n hn => ?_
        simp only [Function.comp_apply]
        rw [trimList_toString_int, String.ofList_toList,
          Decimal.readInt64?_toString (h n hn).1 (h n hn).2]
      have hcomma : ",".toList = [','] := rfl
      rw [if_neg (by rw [hjoined]; exact Bool.false_ne_true), String.toList_intercalate,
        List.map_map, hcomma, List.map_cons,
        @splitWhen_intercalate (· == ',') ',' rfl _ _ hpieces, ← List.map_cons, hread]
  · next hn => exact (hn rfl (by rw [← List.cons_append, List.getLast?_concat])).elim

/-- A pattern read from text has markers of signed 64 bits. -/
theorem bounded_of_parse {text : String} {p : Pattern} (h : Pattern.parse text = .ok p) :
    ∀ m ∈ p.markers, -2 ^ 63 ≤ m ∧ m < 2 ^ 63 := by
  intro m hm
  dsimp only [Pattern.parse] at h
  split at h
  · split at h
    · cases h
    · split at h
      · cases h
        simp at hm
      · split at h
        · next ms hms =>
          cases h
          obtain ⟨x, -, hx⟩ := exists_of_mem_mapM hms hm
          exact Decimal.bounds_of_readInt64? hx
        · cases h
  · cases h

end Pattern

end ChaseProse.Chase
