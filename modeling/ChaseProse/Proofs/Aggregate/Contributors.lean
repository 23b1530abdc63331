import ChaseProse.Aggregate.Contributors
/-! Which candidates explain a running sum: `contributors` returns exactly the resolution
`Chosen` describes, a subsequence of the candidates. -/
namespace ChaseProse.Aggregate
open ChaseProse.Chase ChaseProse.Rule

/-! ### First matches among the values -/

section Search

variable (tol t : Float) (vs : List (String × Float))

/-- The value at `k` matches the sum, and none before it does. -/
def FirstSingle (k : Nat) (x : String × Float) : Prop :=
  vs[k]? = some x ∧ within tol x.2 t = true ∧
    ∀ k' < k, ∀ x', vs[k']? = some x' → within tol x'.2 t = false

def NoSingle : Prop := ∀ x ∈ vs, within tol x.2 t = false

/-- The values at `i < j` add up to the sum. -/
def SumsTo (i j : Nat) (x y : String × Float) : Prop :=
  i < j ∧ vs[i]? = some x ∧ vs[j]? = some y ∧ within tol (x.2 + y.2) t = true

/-- `(i, j)` is the least pair of positions, in lexicographic order, whose values add up to the
sum. -/
def FirstPair (i j : Nat) (x y : String × Float) : Prop :=
  SumsTo tol t vs i j x y ∧
    ∀ i' j' x' y', SumsTo tol t vs i' j' x' y' → i < i' ∨ (i = i' ∧ j ≤ j')

def NoPair : Prop := ∀ i j x y, ¬ SumsTo tol t vs i j x y

end Search

variable {tol t : Float}

theorem find?_eq_some_iff_firstSingle {vs : List (String × Float)} {x : String × Float} :
    vs.find? (fun x => within tol x.2 t) = some x ↔ ∃ k, FirstSingle tol t vs k x := by
  rw [List.find?_eq_some_iff_getElem]
  constructor
  · rintro ⟨hx, k, hk, rfl, hbefore⟩
    refine ⟨k, by simp [hk], hx, fun k' hk' x' hx' => ?_⟩
    obtain ⟨hk'', rfl⟩ := List.getElem?_eq_some_iff.mp hx'
    simpa using hbefore k' hk'
  · rintro ⟨k, hk, hx, hbefore⟩
    obtain ⟨hlt, rfl⟩ := List.getElem?_eq_some_iff.mp hk
    refine ⟨hx, k, hlt, rfl, fun k' hk' => ?_⟩
    simpa using hbefore k' hk' _ (List.getElem?_eq_getElem (by omega))

theorem find?_eq_none_iff_noSingle {vs : List (String × Float)} :
    vs.find? (fun x => within tol x.2 t) = none ↔ NoSingle tol t vs := by
  simp [List.find?_eq_none, NoSingle]

theorem FirstSingle.unique {vs : List (String × Float)} {k k' : Nat} {x x' : String × Float}
    (h : FirstSingle tol t vs k x) (h' : FirstSingle tol t vs k' x') : x = x' := by
  obtain ⟨hk, hx, hbefore⟩ := h
  obtain ⟨hk', hx', hbefore'⟩ := h'
  rcases Nat.lt_trichotomy k k' with hlt | rfl | hgt
  · simp [hbefore' k hlt x hk] at hx
  · simpa [hk] using hk'
  · simp [hbefore k' hgt x' hk'] at hx'

/-! ### Shifting pairs along the list -/

theorem sumsTo_cons_succ {p : String × Float} {vs : List (String × Float)} {i j : Nat}
    {x y : String × Float} : SumsTo tol t (p :: vs) (i + 1) (j + 1) x y ↔ SumsTo tol t vs i j x y := by
  simp [SumsTo]

theorem sumsTo_cons_zero {p : String × Float} {vs : List (String × Float)} {j : Nat}
    {x y : String × Float} :
    SumsTo tol t (p :: vs) 0 (j + 1) x y ↔ x = p ∧ vs[j]? = some y ∧ within tol (p.2 + y.2) t = true := by
  constructor
  · rintro ⟨-, hx, hy, hw⟩
    obtain rfl : p = x := by simpa using hx
    exact ⟨rfl, by simpa using hy, hw⟩
  · rintro ⟨rfl, hy, hw⟩
    exact ⟨by omega, rfl, by simpa using hy, hw⟩

/-- A pair of positions in `p :: vs` is a pair starting at `p`, or a pair of `vs` shifted by one. -/
theorem sumsTo_cons_cases {p : String × Float} {vs : List (String × Float)} {i j : Nat}
    {x y : String × Float} (h : SumsTo tol t (p :: vs) i j x y) :
    (∃ j', i = 0 ∧ j = j' + 1 ∧ x = p ∧ vs[j']? = some y ∧ within tol (p.2 + y.2) t = true) ∨
      ∃ i' j', i = i' + 1 ∧ j = j' + 1 ∧ SumsTo tol t vs i' j' x y := by
  obtain ⟨j', rfl⟩ : ∃ j', j = j' + 1 := ⟨j - 1, by have := h.1; omega⟩
  rcases i with _ | i'
  · exact .inl ⟨j', rfl, rfl, sumsTo_cons_zero.mp h⟩
  · exact .inr ⟨i', j', rfl, rfl, sumsTo_cons_succ.mp h⟩

/-! ### The pair search -/

theorem firstPair_cons (p : String × Float) (vs : List (String × Float)) :
    firstPair tol t (p :: vs) =
      match vs.find? (fun q => within tol (p.2 + q.2) t) with
      | some q => some (p.1, q.1)
      | none => firstPair tol t vs := by
  obtain ⟨e, a⟩ := p
  simp only [firstPair]
  cases vs.find? (fun q => within tol (a + q.2) t) with
  | none => rfl
  | some q => rfl

/-- The pair search finds the first pair of positions, in lexicographic order. -/
theorem firstPair_of_eq_some {vs : List (String × Float)} {a b : String}
    (h : firstPair tol t vs = some (a, b)) :
    ∃ i j x y, FirstPair tol t vs i j x y ∧ x.1 = a ∧ y.1 = b := by
  induction vs with
  | nil => simp [firstPair] at h
  | cons p vs ih =>
    rw [firstPair_cons] at h
    cases hq : vs.find? (fun q => within tol (p.2 + q.2) t) with
    | some q =>
      -- the first partner of `p` in the rest closes the pair `(0, j + 1)`
      rw [hq] at h
      obtain ⟨rfl, rfl⟩ : p.1 = a ∧ q.1 = b := by simpa using h
      obtain ⟨hw, j, hj, rfl, hbefore⟩ := List.find?_eq_some_iff_getElem.mp hq
      refine ⟨0, j + 1, p, vs[j], ⟨sumsTo_cons_zero.mpr ⟨rfl, by simp, hw⟩,
        fun i' j' x' y' h' => ?_⟩, rfl, rfl⟩
      rcases sumsTo_cons_cases h' with ⟨j'', rfl, rfl, rfl, hy, hw'⟩ | ⟨i'', j'', rfl, rfl, -⟩
      · refine .inr ⟨rfl, ?_⟩
        rcases Nat.lt_or_ge j'' j with hlt | hge
        · obtain ⟨hj'', rfl⟩ := List.getElem?_eq_some_iff.mp hy
          have hno := hbefore j'' hlt
          rw [hw'] at hno
          simp at hno
        · omega
      · exact .inl (by omega)
    | none =>
      -- `p` has no partner, so every pair lies in the rest
      rw [hq] at h
      obtain ⟨i, j, x, y, ⟨hs, hleast⟩, rfl, rfl⟩ := ih h
      refine ⟨i + 1, j + 1, x, y, ⟨sumsTo_cons_succ.mpr hs, fun i' j' x' y' h' => ?_⟩, rfl, rfl⟩
      rcases sumsTo_cons_cases h' with ⟨j'', rfl, rfl, rfl, hy, hw'⟩ | ⟨i'', j'', rfl, rfl, hs'⟩
      · have := List.find?_eq_none.mp hq y' (List.mem_of_getElem? hy)
        simp_all
      · rcases hleast i'' j'' x' y' hs' with hlt | ⟨rfl, hle⟩
        · exact .inl (by omega)
        · exact .inr ⟨rfl, by omega⟩

theorem noPair_of_firstPair_eq_none {vs : List (String × Float)} (h : firstPair tol t vs = none) :
    NoPair tol t vs := by
  induction vs with
  | nil => intro i j x y hs; simp [SumsTo] at hs
  | cons p vs ih =>
    rw [firstPair_cons] at h
    cases hq : vs.find? (fun q => within tol (p.2 + q.2) t) with
    | some q => simp [hq] at h
    | none =>
      rw [hq] at h
      intro i j x y hs
      rcases sumsTo_cons_cases hs with ⟨j', -, -, -, hy, hw⟩ | ⟨i', j', -, -, hs'⟩
      · have := List.find?_eq_none.mp hq y (List.mem_of_getElem? hy)
        simp_all
      · exact ih h i' j' x y hs'

theorem FirstPair.unique {vs : List (String × Float)} {i j i' j' : Nat} {x y x' y' : String × Float}
    (h : FirstPair tol t vs i j x y) (h' : FirstPair tol t vs i' j' x' y') : x = x' ∧ y = y' := by
  have h₁ := h.2 i' j' x' y' h'.1
  have h₂ := h'.2 i j x y h.1
  obtain ⟨rfl, rfl⟩ : i = i' ∧ j = j' := by omega
  obtain ⟨-, hx, hy, -⟩ := h.1
  obtain ⟨-, hx', hy', -⟩ := h'.1
  exact ⟨by simpa [hx] using hx', by simpa [hy] using hy'⟩

theorem firstPair_eq_of_firstPair {vs : List (String × Float)} {i j : Nat} {x y : String × Float}
    (h : FirstPair tol t vs i j x y) : firstPair tol t vs = some (x.1, y.1) := by
  cases hp : firstPair tol t vs with
  | none => exact absurd h.1 (noPair_of_firstPair_eq_none hp i j x y)
  | some ab =>
    obtain ⟨a, b⟩ := ab
    obtain ⟨i', j', x', y', h', rfl, rfl⟩ := firstPair_of_eq_some hp
    obtain ⟨rfl, rfl⟩ := h.unique h'
    rfl

theorem firstPair_sublist {vs : List (String × Float)} {a b : String}
    (h : firstPair tol t vs = some (a, b)) : [a, b].Sublist (vs.map Prod.fst) := by
  induction vs with
  | nil => simp [firstPair] at h
  | cons p vs ih =>
    rw [firstPair_cons] at h
    cases hq : vs.find? (fun q => within tol (p.2 + q.2) t) with
    | some q =>
      rw [hq] at h
      obtain ⟨rfl, rfl⟩ : p.1 = a ∧ q.1 = b := by simpa using h
      have hmem : q.1 ∈ vs.map Prod.fst := List.mem_map_of_mem (List.mem_of_find?_eq_some hq)
      exact List.cons_sublist_cons.mpr (List.singleton_sublist.mpr hmem)
    | none =>
      rw [hq] at h
      exact (ih h).cons _

/-! ### The values and the choice -/

theorem contributions_sublist (atom : Atom) (pos : Nat) (candidates : List String) :
    (contributions atom pos candidates).map Prod.fst |>.Sublist candidates := by
  induction candidates with
  | nil => simp [contributions]
  | cons e rest ih =>
    simp only [contributions, List.filterMap_cons] at ih ⊢
    split
    · exact ih.cons _
    · rename_i p hp
      have hfst : p.1 = e := by
        split at hp
        · split at hp
          · obtain ⟨v, -, rfl⟩ := Option.map_eq_some_iff.mp hp
            rfl
          · simp at hp
        · simp at hp
      rw [List.map_cons, hfst]
      exact ih.cons_cons e

/-- The resolution a running sum is owed: every candidate when the head's sum or the summed
atom cannot be read; else the first value that matches the sum; else the first pair, in
lexicographic order of positions, whose values add up to it; else every candidate. -/
inductive Chosen (candidates : List String) (rule : Rule) (head : Fact) (tol : Float) :
    Resolution → Prop
  | unread : target? rule head = none ∨ summedAtom? rule = none →
      Chosen candidates rule head tol (.fallback candidates)
  | single {t atom pos k x} : target? rule head = some t → summedAtom? rule = some (atom, pos) →
      FirstSingle tol t (contributions atom pos candidates) k x →
      Chosen candidates rule head tol (.single x.1)
  | pair {t atom pos i j x y} : target? rule head = some t → summedAtom? rule = some (atom, pos) →
      NoSingle tol t (contributions atom pos candidates) →
      FirstPair tol t (contributions atom pos candidates) i j x y →
      Chosen candidates rule head tol (.pair x.1 y.1)
  | unmatched {t atom pos} : target? rule head = some t → summedAtom? rule = some (atom, pos) →
      NoSingle tol t (contributions atom pos candidates) →
      NoPair tol t (contributions atom pos candidates) →
      Chosen candidates rule head tol (.fallback candidates)

section Choice

variable {candidates : List String} {rule : Rule} {head : Fact}

theorem contributors_of_read {t : Float} {atom : Atom} {pos : Nat}
    (ht : target? rule head = some t) (ha : summedAtom? rule = some (atom, pos)) :
    contributors candidates rule head tol =
      match (contributions atom pos candidates).find? (fun x => within tol x.2 t) with
      | some x => .single x.1
      | none =>
        match firstPair tol t (contributions atom pos candidates) with
        | some (a, b) => .pair a b
        | none => .fallback candidates := by
  simp only [contributors, ht, ha]
  cases (contributions atom pos candidates).find? (fun x => within tol x.2 t) with
  | none => rfl
  | some x => rfl

theorem chosen_contributors : Chosen candidates rule head tol (contributors candidates rule head tol) := by
  cases ht : target? rule head with
  | none => simpa [contributors, ht] using Chosen.unread (.inl ht)
  | some t =>
    cases ha : summedAtom? rule with
    | none => simpa [contributors, ht, ha] using Chosen.unread (.inr ha)
    | some ap =>
      obtain ⟨atom, pos⟩ := ap
      rw [contributors_of_read ht ha]
      split
      · rename_i x hs
        obtain ⟨k, hk⟩ := find?_eq_some_iff_firstSingle.mp hs
        exact Chosen.single ht ha hk
      · rename_i hs
        have hno := find?_eq_none_iff_noSingle.mp hs
        split
        · rename_i a b hp
          obtain ⟨i, j, x, y, hf, rfl, rfl⟩ := firstPair_of_eq_some hp
          exact Chosen.pair ht ha hno hf
        · rename_i hp
          exact Chosen.unmatched ht ha hno (noPair_of_firstPair_eq_none hp)

theorem contributors_of_chosen {r : Resolution} (h : Chosen candidates rule head tol r) :
    contributors candidates rule head tol = r := by
  cases h with
  | unread hnone => rcases hnone with h | h <;> simp [contributors, h]
  | @single t atom pos k x ht ha hk =>
    cases hs : (contributions atom pos candidates).find? (fun x => within tol x.2 t) with
    | none => simpa [find?_eq_none_iff_noSingle.mp hs x (List.mem_of_getElem? hk.1)] using hk.2.1
    | some x' =>
      obtain ⟨k', hk'⟩ := find?_eq_some_iff_firstSingle.mp hs
      rw [contributors_of_read ht ha, hs, hk'.unique hk]
  | pair ht ha hno hf =>
    rw [contributors_of_read ht ha, find?_eq_none_iff_noSingle.mpr hno, firstPair_eq_of_firstPair hf]
  | @unmatched t atom pos ht ha hno hnp =>
    have hp : firstPair tol t (contributions atom pos candidates) = none := by
      cases hp : firstPair tol t (contributions atom pos candidates) with
      | none => rfl
      | some ab =>
        obtain ⟨i, j, x, y, hf, -⟩ := firstPair_of_eq_some hp
        exact absurd hf.1 (hnp i j x y)
    rw [contributors_of_read ht ha, find?_eq_none_iff_noSingle.mpr hno, hp]

theorem entries_sublist_of_chosen {r : Resolution} (h : Chosen candidates rule head tol r) :
    r.entries.Sublist candidates := by
  cases h with
  | unread => exact List.Sublist.refl _
  | unmatched => exact List.Sublist.refl _
  | single _ _ hk =>
    have hmem : _ ∈ (contributions _ _ candidates).map Prod.fst :=
      List.mem_map_of_mem (List.mem_of_getElem? hk.1)
    exact List.singleton_sublist.mpr ((contributions_sublist _ _ candidates).subset hmem)
  | pair _ _ _ hf =>
    have hs := firstPair_sublist (firstPair_eq_of_firstPair hf)
    exact hs.trans (contributions_sublist _ _ candidates)

end Choice

/-- A running sum is explained by the first value that matches it, else by the first pair of
values, in lexicographic order of their positions, that adds up to it, else by every candidate;
and the entries chosen are a subsequence of the candidates. -/
theorem contributors_first_single_then_pair (candidates : List String) (rule : Rule)
    (head : Fact) (tol : Float) :
    (∀ r, contributors candidates rule head tol = r ↔ Chosen candidates rule head tol r) ∧
      (contributors candidates rule head tol).entries.Sublist candidates :=
  ⟨fun _ => ⟨fun h => h ▸ chosen_contributors, contributors_of_chosen⟩,
    entries_sublist_of_chosen chosen_contributors⟩

end ChaseProse.Aggregate
