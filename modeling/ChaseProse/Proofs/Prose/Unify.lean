import ChaseProse.Prose.Bindings
/-! Unifying the positive atoms of a rule with the facts that justified a step: the least solving
choice in lexicographic order, or else each atom's first consistent fact. -/
namespace ChaseProse

/-- The first element on which `f` gives a result, with the index it stands at. -/
theorem exists_first_of_findSome?_eq_some {α β : Type} {f : α → Option β} {l : List α} {r : β}
    (h : l.findSome? f = some r) :
    ∃ (k : Nat) (x : α), l[k]? = some x ∧ f x = some r ∧
      ∀ k' < k, ∀ x', l[k']? = some x' → f x' = none := by
  induction l with
  | nil => simp at h
  | cons x l ih =>
    rw [List.findSome?_cons] at h
    cases hx : f x with
    | some r' =>
      rw [hx] at h
      exact ⟨0, x, rfl, hx.trans h, fun k' hk' => absurd hk' (Nat.not_lt_zero k')⟩
    | none =>
      rw [hx] at h
      obtain ⟨k, y, hy, hfy, hbefore⟩ := ih h
      refine ⟨k + 1, y, hy, hfy, fun k' hk' x' hx' => ?_⟩
      rcases k' with _ | k'
      · obtain rfl : x = x' := by simpa using hx'
        exact hx
      · exact hbefore k' (by omega) x' hx'

end ChaseProse

namespace ChaseProse.Prose
open ChaseProse.Chase ChaseProse.Rule

/-! ### What a match guarantees -/

/-- A term agrees with an argument under bindings: a variable is bound to the exact argument
text, a constant equals it up to quotes, and `_` matches anything. -/
def TermAgrees (b : Bindings) : Term → String → Prop
  | .var v, arg => ∃ x, b.get? v = some x ∧ x.value = arg
  | .anon, _ => True
  | c, arg => ∃ e, c.constantText? = some e ∧ unquote e = unquote arg

/-- An atom agrees with a fact under bindings: the same predicate and arity, and each term
agrees with the argument at its position. -/
def Agrees (b : Bindings) (a : Atom) (g : Grounded) : Prop :=
  g.fact.predicate = a.predicate ∧ g.fact.arity = a.arity ∧
    ∀ pos t, a.terms[pos]? = some t → ∃ arg, g.fact.arg? pos = some arg ∧ TermAgrees b t arg

section Grow

variable {b b' : Bindings}

/-- Bindings only grow at the end, so a variable keeps the value it was first bound to. -/
theorem get?_of_prefix (hp : b <+: b') {v : String} {x : Binding} (h : b.get? v = some x) :
    b'.get? v = some x := by
  obtain ⟨more, rfl⟩ := hp
  simp [Bindings.get?, List.lookup_append, show b.lookup v = some x from h]

theorem TermAgrees.mono (hp : b <+: b') {t : Term} {arg : String} (h : TermAgrees b t arg) :
    TermAgrees b' t arg := by
  cases t with
  | var v =>
    obtain ⟨x, hx, hval⟩ := h
    exact ⟨x, get?_of_prefix hp hx, hval⟩
  | anon => trivial
  | num _ => exact h
  | text _ => exact h
  | sym _ => exact h

theorem Agrees.mono (hp : b <+: b') {a : Atom} {g : Grounded} (h : Agrees b a g) :
    Agrees b' a g := by
  obtain ⟨hpred, harity, hterms⟩ := h
  refine ⟨hpred, harity, fun pos t ht => ?_⟩
  obtain ⟨arg, harg, hagree⟩ := hterms pos t ht
  exact ⟨arg, harg, hagree.mono hp⟩

end Grow

/-- Matching one term extends the bindings, and the term then agrees with its argument. -/
theorem matchTerm_eq_some {g : Grounded} {b b' : Bindings} {pos : Nat} {t : Term}
    (h : matchTerm g b pos t = some b') :
    b <+: b' ∧ ∃ arg, g.fact.arg? pos = some arg ∧ TermAgrees b' t arg := by
  cases harg : g.fact.arg? pos with
  | none => simp [matchTerm, harg] at h
  | some arg =>
    cases t with
    | anon =>
      obtain rfl : b = b' := by simpa [matchTerm, harg] using h
      exact ⟨List.prefix_refl _, arg, rfl, trivial⟩
    | var v =>
      cases hv : b.get? v with
      | none =>
        -- a free variable is bound at the end
        obtain rfl : b ++ [(v, ⟨arg, g.pattern.isNull pos⟩)] = b' := by
          simpa [matchTerm, harg, hv] using h
        refine ⟨List.prefix_append _ _, arg, rfl, ⟨arg, g.pattern.isNull pos⟩, ?_, rfl⟩
        simp [Bindings.get?, List.lookup_append, show b.lookup v = none from hv]
      | some x =>
        obtain ⟨hval, rfl⟩ : x.value = arg ∧ b = b' := by simpa [matchTerm, harg, hv] using h
        exact ⟨List.prefix_refl _, arg, rfl, x, hv, hval⟩
    | num n | text n | sym n =>
      simp [matchTerm, harg, Term.constantText?] at h
      obtain ⟨hq, rfl⟩ := h
      exact ⟨List.prefix_refl _, arg, rfl, _, rfl, hq⟩

/-- Matching the terms in turn extends the bindings, and each term then agrees with its
argument. -/
theorem foldlM_matchTerm_eq_some {g : Grounded} {l : List (Term × Nat)} {b b' : Bindings}
    (h : l.foldlM (fun b tp => matchTerm g b tp.2 tp.1) b = some b') :
    b <+: b' ∧ ∀ tp ∈ l, ∃ arg, g.fact.arg? tp.2 = some arg ∧ TermAgrees b' tp.1 arg := by
  induction l generalizing b with
  | nil =>
    obtain rfl : b = b' := Option.some.inj h
    exact ⟨List.prefix_refl _, by simp⟩
  | cons tp l ih =>
    rw [List.foldlM_cons] at h
    obtain ⟨b₁, h₁, hrest⟩ := Option.bind_eq_some_iff.mp h
    obtain ⟨hp₁, arg, harg, hagree⟩ := matchTerm_eq_some h₁
    obtain ⟨hp, hall⟩ := ih hrest
    refine ⟨hp₁.trans hp, fun tp' htp' => ?_⟩
    rcases List.mem_cons.mp htp' with rfl | htp'
    · exact ⟨arg, harg, hagree.mono hp⟩
    · exact hall tp' htp'

/-- A successful match extends the bindings, and under the result the atom agrees with the
fact. -/
theorem tryMatch_eq_some {b b' : Bindings} {a : Atom} {g : Grounded} (h : tryMatch b a g = some b') :
    b <+: b' ∧ Agrees b' a g := by
  unfold tryMatch at h
  split at h
  · simp at h
  · rename_i hsame
    simp only [Bool.or_eq_true, bne_iff_ne, ne_eq, not_or, Decidable.not_not] at hsame
    have hfold : a.terms.zipIdx.foldlM (fun b tp => matchTerm g b tp.2 tp.1) b = some b' := h
    obtain ⟨hp, hall⟩ := foldlM_matchTerm_eq_some hfold
    refine ⟨hp, hsame.1, hsame.2, fun pos t ht => ?_⟩
    exact hall (t, pos) (List.mem_zipIdx_iff_getElem?.mpr ht)

/-! ### Choices of facts -/

/-- Matches the atoms in turn, from the bindings `b`, against the facts at the chosen indices;
the choice names one fact for each atom. -/
def matchChoice (facts : List Grounded) : List Atom → List Nat → Bindings → Option Bindings
  | [], [], b => some b
  | a :: atoms, k :: ks, b => (facts[k]?.bind (tryMatch b a)).bind (matchChoice facts atoms ks)
  | _, _, _ => none

/-- `ks` is the least choice, in lexicographic order, that solves the atoms from `b`, and
solving with it gives `r`. -/
def FirstChoice (facts : List Grounded) (atoms : List Atom) (b : Bindings) (ks : List Nat)
    (r : Bindings) : Prop :=
  matchChoice facts atoms ks b = some r ∧ ∀ ks', ks' < ks → matchChoice facts atoms ks' b = none

/-- Every atom agrees, under `r`, with the fact its index in the choice names. -/
def Covers (facts : List Grounded) (atoms : List Atom) (ks : List Nat) (r : Bindings) : Prop :=
  ∀ (i : Nat) (a : Atom) (k : Nat), atoms[i]? = some a → ks[i]? = some k →
    ∃ g, facts[k]? = some g ∧ Agrees r a g

variable {facts : List Grounded}

@[simp] theorem matchChoice_nil_cons {k : Nat} {ks : List Nat} {b : Bindings} :
    matchChoice facts [] (k :: ks) b = none := rfl

@[simp] theorem matchChoice_cons_nil {a : Atom} {atoms : List Atom} {b : Bindings} :
    matchChoice facts (a :: atoms) [] b = none := rfl

theorem matchChoice_cons_cons {a : Atom} {atoms : List Atom} {k : Nat} {ks : List Nat}
    {b : Bindings} :
    matchChoice facts (a :: atoms) (k :: ks) b =
      (facts[k]?.bind (tryMatch b a)).bind (matchChoice facts atoms ks) := rfl

/-- Solving with a choice extends the bindings, and every atom then agrees with its fact. -/
theorem matchChoice_eq_some {atoms : List Atom} {ks : List Nat} {b r : Bindings}
    (h : matchChoice facts atoms ks b = some r) : b <+: r ∧ Covers facts atoms ks r := by
  induction atoms generalizing ks b with
  | nil =>
    cases ks with
    | nil =>
      obtain rfl : b = r := Option.some.inj h
      exact ⟨List.prefix_refl _, fun i a k ha => by simp at ha⟩
    | cons k ks => simp at h
  | cons a atoms ih =>
    cases ks with
    | nil => simp at h
    | cons k ks =>
      rw [matchChoice_cons_cons] at h
      obtain ⟨b₁, h₁, hrest⟩ := Option.bind_eq_some_iff.mp h
      obtain ⟨g, hg, hmatch⟩ := Option.bind_eq_some_iff.mp h₁
      obtain ⟨hp₁, hagree⟩ := tryMatch_eq_some hmatch
      obtain ⟨hp, hcov⟩ := ih hrest
      refine ⟨hp₁.trans hp, fun i a' k' ha' hk' => ?_⟩
      rcases i with _ | i
      · obtain rfl : a = a' := by simpa using ha'
        obtain rfl : k = k' := by simpa using hk'
        exact ⟨g, hg, hagree.mono hp⟩
      · exact hcov i a' k' (by simpa using ha') (by simpa using hk')

/-! ### The backtracking search -/

/-- When the search gives up, no choice solves the atoms: every fact was tried for the first
atom, with every way of going on. -/
theorem matchChoice_of_solve_eq_none {atoms : List Atom} {b : Bindings}
    (h : solve facts atoms b = none) (ks : List Nat) : matchChoice facts atoms ks b = none := by
  induction atoms generalizing ks b with
  | nil => simp [solve] at h
  | cons a atoms ih =>
    have hall := List.findSome?_eq_none_iff.mp h
    cases ks with
    | nil => rfl
    | cons k ks =>
      rw [matchChoice_cons_cons]
      cases hg : facts[k]? with
      | none => rfl
      | some g =>
        cases hm : tryMatch b a g with
        | none => simp [hm]
        | some b₁ =>
          have hsolve : solve facts atoms b₁ = none := by
            simpa [hm] using hall g (List.mem_of_getElem? hg)
          simpa [hm] using ih hsolve ks

/-- What the search returns comes from the least choice, in lexicographic order, that solves
the atoms: the first fact for the first atom with which the rest can be solved, then the least
choice for the rest. -/
theorem firstChoice_of_solve_eq_some {atoms : List Atom} {b r : Bindings}
    (h : solve facts atoms b = some r) : ∃ ks, FirstChoice facts atoms b ks r := by
  induction atoms generalizing b with
  | nil =>
    obtain rfl : b = r := Option.some.inj h
    exact ⟨[], rfl, fun ks' hks' => absurd hks' (List.not_lt_nil ks')⟩
  | cons a atoms ih =>
    obtain ⟨k, g, hg, hk, hbefore⟩ := exists_first_of_findSome?_eq_some h
    obtain ⟨b₁, hm, hsolve⟩ := Option.bind_eq_some_iff.mp hk
    obtain ⟨ks, hks, hleast⟩ := ih hsolve
    refine ⟨k :: ks, by simp [matchChoice_cons_cons, hg, hm, hks], fun ks' hlt => ?_⟩
    cases ks' with
    | nil => rfl
    | cons k' ks' =>
      rw [matchChoice_cons_cons]
      rcases List.cons_lt_cons_iff.mp hlt with hk' | ⟨rfl, hks'⟩
      · -- an earlier fact for the first atom: no way on from it
        cases hg' : facts[k']? with
        | none => rfl
        | some g' =>
          cases hm' : tryMatch b a g' with
          | none => simp [hm']
          | some b₁' =>
            have hsolve' : solve facts atoms b₁' = none := by
              simpa [hm'] using hbefore k' hk' g' hg'
            simpa [hm'] using matchChoice_of_solve_eq_none hsolve' ks'
      · -- the same fact, then an earlier choice for the rest
        simpa [hg, hm] using hleast ks' hks'

/-- Unification is a complete backtracking search with a first answer. When some choice of
facts solves the atoms, `unify` returns the bindings of the least such choice in lexicographic
order, and under them each atom agrees with its fact at every position. When no choice does,
the search returns nothing and `unify` binds greedily: each atom in turn takes its first
consistent fact, and atoms without one are skipped. -/
theorem unify_first_choice (atoms : List Atom) (facts : List Grounded) :
    ((∃ ks r, matchChoice facts atoms ks [] = some r) →
      ∃ ks, FirstChoice facts atoms [] ks (unify atoms facts) ∧
        Covers facts atoms ks (unify atoms facts)) ∧
    ((∀ ks, matchChoice facts atoms ks [] = none) →
      solve facts atoms [] = none ∧ unify atoms facts = greedy facts atoms) := by
  constructor
  · rintro ⟨ks₀, r₀, h₀⟩
    cases hs : solve facts atoms [] with
    | none => simp [matchChoice_of_solve_eq_none hs ks₀] at h₀
    | some r =>
      obtain ⟨ks, hfirst⟩ := firstChoice_of_solve_eq_some hs
      have hu : unify atoms facts = r := by simp [unify, hs]
      rw [hu]
      exact ⟨ks, hfirst, (matchChoice_eq_some hfirst.1).2⟩
  · intro hnone
    have hs : solve facts atoms [] = none := by
      cases hs : solve facts atoms [] with
      | none => rfl
      | some r =>
        obtain ⟨ks, hfirst, -⟩ := firstChoice_of_solve_eq_some hs
        simp [hnone ks] at hfirst
    exact ⟨hs, by simp [unify, hs]⟩

/-- The first fact for `r(X,Y)` leaves `s(Y,Z)` without a match, so the search goes back and
binds `Y` through the second. -/
example :
    unify [⟨"r", [.var "X", .var "Y"]⟩, ⟨"s", [.var "Y", .var "Z"]⟩]
        [⟨⟨"r", ["a", "b"]⟩, ⟨[1, 1]⟩⟩, ⟨⟨"r", ["a", "c"]⟩, ⟨[1, 1]⟩⟩,
          ⟨⟨"s", ["c", "d"]⟩, ⟨[1, 1]⟩⟩] =
      [("X", ⟨"a", false⟩), ("Y", ⟨"c", false⟩), ("Z", ⟨"d", false⟩)] := by decide

end ChaseProse.Prose
