import Mathlib
import ChaseProse.Proofs.Chase.FactText
/-! The top-level splitter cuts a text exactly at the commas the scanner meets outside quotes
at depth zero, and joining its pieces again with `","` or `", "` gives them back. -/

namespace ChaseProse.Chase
open ChaseProse.Text

/-! ## Where the scanner splits -/

/-- Position `i` of `cs` holds a character at which the scanner, started in state `s`, splits. -/
def SplitsAt (s : Scan) (cs : List Char) (i : Nat) : Prop :=
  ∃ c, cs[i]? = some c ∧ (s.run (cs.take i)).splits c

/-- Position `i` of `cs` holds a comma that the scanner, run from the start of `cs`, meets
outside quotes at depth zero. -/
def TopComma (cs : List Char) (i : Nat) : Prop :=
  cs[i]? = some ',' ∧ (Scan.start.run (cs.take i)).depth = 0 ∧
    (Scan.start.run (cs.take i)).quoted = false

/-- The positions of the commas that `[','].intercalate` puts between the pieces. -/
def joints : List (List Char) → List Nat
  | [] | [_] => []
  | p :: q :: ps => p.length :: (joints (q :: ps)).map (· + (p.length + 1))

theorem topComma_iff_splitsAt {cs : List Char} {i : Nat} :
    TopComma cs i ↔ SplitsAt Scan.start cs i := by
  constructor
  · rintro ⟨hc, hd, hq⟩
    exact ⟨',', hc, by simp [Scan.splits, hd, hq]⟩
  · rintro ⟨c, hc, hs⟩
    simp only [Scan.splits, Bool.and_eq_true, beq_iff_eq, Bool.not_eq_true'] at hs
    obtain ⟨⟨rfl, hq⟩, hd⟩ := hs
    exact ⟨hc, hd, hq⟩

@[simp] theorem not_splitsAt_nil (s : Scan) (i : Nat) : ¬ SplitsAt s [] i := by
  simp [SplitsAt]

@[simp] theorem splitsAt_cons_zero (s : Scan) (c : Char) (cs : List Char) :
    SplitsAt s (c :: cs) 0 ↔ s.splits c = true := by
  simp [SplitsAt]

@[simp] theorem splitsAt_cons_succ (s : Scan) (c : Char) (cs : List Char) (i : Nat) :
    SplitsAt s (c :: cs) (i + 1) ↔ SplitsAt (s.step c) cs i := by
  simp [SplitsAt]

theorem lt_length_of_splitsAt {s : Scan} {cs : List Char} {i : Nat} (h : SplitsAt s cs i) :
    i < cs.length := by
  obtain ⟨c, hc, -⟩ := h
  exact (List.getElem?_eq_some_iff.mp hc).1

/-- A run meets no splitting comma exactly when the scanner splits at none of its positions. -/
theorem quiet_iff_forall_not_splitsAt (s : Scan) (a : List Char) :
    s.quiet a = true ↔ ∀ i, ¬ SplitsAt s a i := by
  induction a generalizing s with
  | nil => simp
  | cons c a ih =>
    rw [Scan.quiet_cons, Bool.and_eq_true, Bool.not_eq_true', ih]
    constructor
    · rintro ⟨hc, ha⟩ (_ | i)
      · simp [hc]
      · simpa using ha i
    · intro h
      exact ⟨by simpa using h 0, fun i => by simpa using h (i + 1)⟩

/-- Past the end of `a` the scanner goes on over `b` from where `a` left it. -/
theorem splitsAt_append (s : Scan) (a b : List Char) (i : Nat) :
    SplitsAt s (a ++ b) i ↔
      SplitsAt s a i ∨ (a.length ≤ i ∧ SplitsAt (s.run a) b (i - a.length)) := by
  by_cases hi : i < a.length
  · have hb : ¬ a.length ≤ i := by omega
    simp only [SplitsAt, List.getElem?_append_left hi, List.take_append_of_le_length hi.le, hb,
      false_and, or_false]
  · have hle : a.length ≤ i := by omega
    have ha : ¬ SplitsAt s a i := fun h => hi (lt_length_of_splitsAt h)
    rw [or_iff_right ha, and_iff_right hle]
    simp only [SplitsAt, List.getElem?_append_right hle, List.take_append,
      List.take_of_length_le hle, Scan.run_append]

/-! ## Pieces and their joints -/

section Joined

variable {p rest : List Char}

/-- In `p ++ ',' :: rest`, with `p` ending at the top level: inside `p` the scanner splits where
it splits `p` alone, it splits at the comma, and it reads `rest` as if from the start. -/
theorem splitsAt_joined_lt (hr : Scan.start.run p = Scan.start) {i : Nat} (hi : i < p.length) :
    SplitsAt Scan.start (p ++ ',' :: rest) i ↔ SplitsAt Scan.start p i := by
  rw [splitsAt_append, hr]
  constructor
  · rintro (h | ⟨hle, -⟩)
    · exact h
    · omega
  · exact Or.inl

theorem splitsAt_joined_length (hr : Scan.start.run p = Scan.start) :
    SplitsAt Scan.start (p ++ ',' :: rest) p.length := by
  rw [splitsAt_append, hr, Nat.sub_self]
  exact Or.inr ⟨le_rfl, (splitsAt_cons_zero _ _ _).mpr Scan.splits_start_comma⟩

theorem splitsAt_joined_add (hr : Scan.start.run p = Scan.start) (j : Nat) :
    SplitsAt Scan.start (p ++ ',' :: rest) (j + (p.length + 1)) ↔ SplitsAt Scan.start rest j := by
  have hj : j + (p.length + 1) - p.length = j + 1 := by omega
  have ha : ¬ SplitsAt Scan.start p (j + (p.length + 1)) := fun h => by
    have := lt_length_of_splitsAt h
    omega
  rw [splitsAt_append, hr, hj, splitsAt_cons_succ]
  simp only [ha, false_or, show p.length ≤ j + (p.length + 1) by omega, true_and]
  rfl

end Joined

theorem not_mem_joints_of_lt {p q : List Char} {qs : List (List Char)} {i : Nat}
    (hi : i < p.length) : i ∉ joints (p :: q :: qs) := by
  simp only [joints, List.mem_cons, List.mem_map, not_or, not_exists, not_and]
  exact ⟨by omega, fun j _ => by omega⟩

theorem length_mem_joints (p q : List Char) (qs : List (List Char)) :
    p.length ∈ joints (p :: q :: qs) := by
  simp [joints]

theorem add_mem_joints_iff {p q : List Char} {qs : List (List Char)} {j : Nat} :
    j + (p.length + 1) ∈ joints (p :: q :: qs) ↔ j ∈ joints (q :: qs) := by
  simp only [joints, List.mem_cons, List.mem_map, Nat.add_right_cancel_iff, exists_eq_right]
  exact or_iff_right (by omega)

/-- The splitter's cut condition, piece by piece, is the same as: the scanner splits the joined
text exactly at the joints. -/
theorem cuts_iff_splitsAt {ps : List (List Char)} (hne : ps ≠ []) :
    Scan.start.Cuts ps ↔
      ∀ i, SplitsAt Scan.start ([','].intercalate ps) i ↔ i ∈ joints ps := by
  induction ps with
  | nil => exact absurd rfl hne
  | cons p ps ih =>
    cases ps with
    | nil => simp [Scan.Cuts, joints, quiet_iff_forall_not_splitsAt]
    | cons q qs =>
      rw [List.intercalate_cons_cons, List.append_assoc, List.singleton_append]
      constructor
      · rintro ⟨hp, hr, hrest⟩ i
        have hr := hr (List.cons_ne_nil _ _)
        have hsplits := (ih (List.cons_ne_nil _ _)).mp hrest
        rw [quiet_iff_forall_not_splitsAt] at hp
        -- a position inside the first piece, the comma after it, or one in the rest
        rcases Nat.lt_trichotomy i p.length with hi | rfl | hi
        · exact iff_of_false (fun h => hp i ((splitsAt_joined_lt hr hi).mp h))
            (not_mem_joints_of_lt hi)
        · exact iff_of_true (splitsAt_joined_length hr) (length_mem_joints p q qs)
        · obtain ⟨j, rfl⟩ := Nat.exists_eq_add_of_lt hi
          rw [show p.length + j + 1 = j + (p.length + 1) by omega, splitsAt_joined_add hr,
            add_mem_joints_iff, hsplits]
      · intro h
        -- the first joint says where the first piece ends, the others are the rest's
        have hr : Scan.start.run p = Scan.start := by
          have hj := (h p.length).mpr (length_mem_joints p q qs)
          rw [splitsAt_append, Nat.sub_self, splitsAt_cons_zero] at hj
          rcases hj with hj | ⟨-, hj⟩
          · exact absurd (lt_length_of_splitsAt hj) (lt_irrefl _)
          · exact (Scan.eq_start_of_splits hj).1
        refine ⟨(quiet_iff_forall_not_splitsAt _ _).mpr fun i hi => ?_, fun _ => hr,
          (ih (List.cons_ne_nil _ _)).mpr fun j => ?_⟩
        · have hlt := lt_length_of_splitsAt hi
          exact not_mem_joints_of_lt hlt ((h i).mp ((splitsAt_joined_lt hr hlt).mpr hi))
        · rw [← splitsAt_joined_add hr, h, add_mem_joints_iff]

/-- The pieces joined by `,` give the text back. -/
theorem intercalate_pieces (s : Scan) (cs : List Char) : [','].intercalate (pieces s cs) = cs := by
  induction cs generalizing s with
  | nil => simp [pieces]
  | cons c cs ih =>
    unfold pieces
    split
    · next hs =>
      obtain ⟨rfl, rfl⟩ := Scan.eq_start_of_splits hs
      obtain ⟨p, ps, hp⟩ := List.exists_cons_of_ne_nil (pieces_ne_nil Scan.start cs)
      rw [hp, List.intercalate_cons_cons, ← hp, ih]
      rfl
    · next hs =>
      have h := ih (s.step c)
      split
      · next hp => exact absurd hp (pieces_ne_nil _ _)
      · next p ps hp =>
        rw [hp] at h
        rw [List.intercalate_cons_cons_left, h]

/-- The splitter's pieces are the one decomposition of the text, joined by `,`, whose joints are
exactly the top-level commas. -/
theorem pieces_eq_iff {cs : List Char} {ps : List (List Char)} :
    pieces Scan.start cs = ps ↔
      ps ≠ [] ∧ [','].intercalate ps = cs ∧ ∀ i, i ∈ joints ps ↔ TopComma cs i := by
  constructor
  · rintro rfl
    have hne := pieces_ne_nil Scan.start cs
    refine ⟨hne, intercalate_pieces _ _, fun i => ?_⟩
    have h := (cuts_iff_splitsAt hne).mp (cuts_pieces _ cs) i
    rw [intercalate_pieces] at h
    rw [topComma_iff_splitsAt, h]
  · rintro ⟨hne, rfl, hj⟩
    have hcuts : Scan.start.Cuts ps := (cuts_iff_splitsAt hne).mpr fun i => by
      rw [← topComma_iff_splitsAt, hj]
    obtain ⟨p, ps, rfl⟩ := List.exists_cons_of_ne_nil hne
    simpa using pieces_intercalate_sep [] (by simp) hcuts

/-! ## Splitting again -/

/-- Pieces as the splitter returns them: trimmed, and cut apart by the splitter where `,` joins
them. -/
structure TopLevelPieces (es : List String) : Prop where
  trimmed : ∀ e ∈ es, trim e = e
  cuts : Scan.start.Cuts (es.map String.toList)

theorem topLevelPieces_splitTopLevel (text : String) : TopLevelPieces (splitTopLevel text) where
  trimmed e he := by
    obtain ⟨p, -, rfl⟩ := List.mem_map.mp he
    simp [trim, trimList_trimList]
  cuts := by
    simpa [splitTopLevel, Function.comp_def] using
      (cuts_pieces Scan.start text.toList).map_trimList

namespace TopLevelPieces

variable {es : List String} (h : TopLevelPieces es)
include h

theorem filter (f : String → Bool) : TopLevelPieces (es.filter f) where
  trimmed e he := h.trimmed e (List.mem_filter.mp he).1
  cuts := h.cuts.sublist (List.filter_sublist.map String.toList)

/-- With the empty pieces dropped on both sides, joining and splitting again gives the same
pieces, none at all included: the empty text splits into one empty piece. -/
theorem splitTopLevel_join_filter (b : List Char) (hb : ∀ c ∈ b, isBlank c) (sep : String)
    (hsep : sep.toList = ',' :: b) :
    (splitTopLevel (sep.intercalate (es.filter (· != "")))).filter (· != "") =
      es.filter (· != "") := by
  by_cases hne : es.filter (· != "") = []
  · rw [hne, String.intercalate_nil]
    rfl
  · have hf := h.filter (· != "")
    rw [splitTopLevel_intercalate b hb sep hsep hne hf.trimmed hf.cuts, List.filter_filter]
    simp

end TopLevelPieces

/-- The top-level splitter returns the trimmed pieces of the one decomposition of the text,
joined by commas, whose joints are exactly the commas the scanner meets outside quotes at depth
zero; joining its pieces with `","` or `", "` and splitting again gives them back, also when
the empty pieces are dropped. -/
theorem splitTopLevel_cuts_at_topCommas (text : String) :
    (∃ ps : List (List Char), splitTopLevel text = ps.map (fun p => trim (String.ofList p)) ∧
      ∀ qs : List (List Char),
        (qs ≠ [] ∧ [','].intercalate qs = text.toList ∧
          ∀ i, i ∈ joints qs ↔ TopComma text.toList i) ↔ qs = ps) ∧
    splitTopLevel (",".intercalate (splitTopLevel text)) = splitTopLevel text ∧
    splitTopLevel (", ".intercalate (splitTopLevel text)) = splitTopLevel text ∧
    (splitTopLevel (",".intercalate ((splitTopLevel text).filter (· != "")))).filter (· != "") =
      (splitTopLevel text).filter (· != "") ∧
    (splitTopLevel (", ".intercalate ((splitTopLevel text).filter (· != "")))).filter (· != "") =
      (splitTopLevel text).filter (· != "") := by
  have h := topLevelPieces_splitTopLevel text
  have hne : splitTopLevel text ≠ [] := by
    simpa [splitTopLevel] using pieces_ne_nil Scan.start text.toList
  have hspace : ∀ c ∈ [' '], isBlank c := List.forall_mem_singleton.mpr (by decide)
  refine ⟨⟨pieces Scan.start text.toList, ?_, fun qs => pieces_eq_iff.symm.trans eq_comm⟩,
    splitTopLevel_intercalate [] (by simp) "," rfl hne h.trimmed h.cuts,
    splitTopLevel_intercalate [' '] hspace ", " rfl hne h.trimmed h.cuts,
    h.splitTopLevel_join_filter [] (by simp) "," rfl,
    h.splitTopLevel_join_filter [' '] hspace ", " rfl⟩
  simp [splitTopLevel, trim]

end ChaseProse.Chase
