import ChaseProse.Proofs.Graph
import ChaseProse.Proofs.Numbering.Labels
import ChaseProse.Proofs.Aggregate.Pointwise
/-! The name index and the derivation graph of a store: what building a store accepts, and that
numbering and the repair of running sums keep both. -/

namespace ChaseProse.Chase
open ChaseProse.Numbering ChaseProse.Aggregate

/-! ### Checking the steps one by one -/

section Check

variable {α ε : Type} {F : α × Nat → Except ε Unit} {P : α → Prop} {err : α → Nat → ε}

/-- A check over indexed elements passes exactly when it passes on each. -/
theorem forM_zipIdx_eq_ok (hP : ∀ a i, F (a, i) = .ok () ↔ P a) (l : List α) (k : Nat) :
    (l.zipIdx k).forM F = .ok () ↔ ∀ a ∈ l, P a := by
  induction l generalizing k with
  | nil => simp [pure, Except.pure]
  | cons a l ih =>
    rw [List.zipIdx_cons]
    change (F (a, k) >>= fun _ => (l.zipIdx (k + 1)).forM F) = _ ↔ _
    rw [bind_eq_ok]
    simp only [List.mem_cons, forall_eq_or_imp, ← ih (k + 1), ← hP a k]
    constructor
    · rintro ⟨⟨⟩, ha, hl⟩
      exact ⟨ha, hl⟩
    · rintro ⟨ha, hl⟩
      exact ⟨(), ha, hl⟩

/-- A check over indexed elements fails exactly with the error of the first element it does not
pass; the elements after it are not looked at. -/
theorem forM_zipIdx_eq_error (hP : ∀ a i, F (a, i) = .ok () ↔ P a)
    (hE : ∀ a i e, F (a, i) = .error e ↔ ¬ P a ∧ e = err a i) (l : List α) (k : Nat) (e : ε) :
    (l.zipIdx k).forM F = .error e ↔ ∃ i, ∃ hi : i < l.length,
      (∀ j (hj : j < i), P l[j]) ∧ ¬ P l[i] ∧ e = err l[i] (k + i) := by
  induction l generalizing k with
  | nil => simp [pure, Except.pure]
  | cons a l ih =>
    rw [List.zipIdx_cons]
    change (F (a, k) >>= fun _ => (l.zipIdx (k + 1)).forM F) = _ ↔ _
    cases hF : F (a, k) with
    | error e' =>
      -- the first element fails, so it is the first failure
      obtain ⟨hna, rfl⟩ := (hE a k e').mp hF
      simp only [bind, Except.bind, Except.error.injEq]
      constructor
      · rintro rfl
        exact ⟨0, by simp, fun j hj => absurd hj (Nat.not_lt_zero j), hna, by simp⟩
      · rintro ⟨i, hi, hbefore, -, rfl⟩
        cases i with
        | zero => simp
        | succ i => exact absurd (hbefore 0 (Nat.succ_pos i)) hna
    | ok u =>
      -- the first element passes: the first failure is one of the rest, one place further on
      have ha : P a := (hP a k).mp hF
      simp only [bind, Except.bind, ih (k + 1)]
      constructor
      · rintro ⟨i, hi, hbefore, hi', rfl⟩
        refine ⟨i + 1, by simpa using hi, fun j hj => ?_, by simpa using hi', by simp [Nat.add_assoc,
          Nat.add_comm 1 i]⟩
        cases j with
        | zero => exact ha
        | succ j => simpa using hbefore j (by omega)
      · rintro ⟨i, hi, hbefore, hi', rfl⟩
        cases i with
        | zero => exact absurd ha hi'
        | succ i =>
          exact ⟨i, by simpa using hi, fun j hj => by simpa using hbefore (j + 1) (by omega),
            by simpa using hi', by simp [Nat.add_assoc, Nat.add_comm 1 i]⟩

end Check

namespace Step

/-- A step the store accepts: its name reads as a fact with as many arguments as its pattern has
markers. -/
def Accepted (s : Step) : Prop := ∃ f, s.fact = .ok f ∧ f.arity = s.pattern.arity

/-- What the store reports for the step at index `i` when it does not accept it: why its name does
not read as a fact, or the two arities. -/
def fault (s : Step) (i : Nat) : ChaseError :=
  match s.fact with
  | .error e => e
  | .ok f => .arityMismatch i s.name f.arity s.pattern.arity

/-- The check the store makes of the step `s` at index `i`. -/
def check (s : Step) (i : Nat) : Except ChaseError Unit := do
  let f ← s.fact
  if f.arity != s.pattern.arity then
    throw (.arityMismatch i s.name f.arity s.pattern.arity)

theorem check_eq_ok (s : Step) (i : Nat) : s.check i = .ok () ↔ s.Accepted := by
  unfold check Accepted
  cases hf : s.fact with
  | error e => simp [bind, Except.bind]
  | ok f =>
    by_cases ha : f.arity = s.pattern.arity <;>
      simp [ha, bind, Except.bind, pure, Except.pure, throw, throwThe, MonadExceptOf.throw]

theorem check_eq_error (s : Step) (i : Nat) (e : ChaseError) :
    s.check i = .error e ↔ ¬ s.Accepted ∧ e = s.fault i := by
  unfold check Accepted fault
  cases hf : s.fact with
  | error e' =>
    simp only [bind, Except.bind, Except.error.injEq, reduceCtorEq, false_and, exists_false,
      not_false_eq_true, true_and]
    exact eq_comm
  | ok f =>
    by_cases ha : f.arity = s.pattern.arity
    · simp [ha, bind, Except.bind, pure, Except.pure]
    · simp only [bind, Except.bind, bne_iff_ne, ne_eq, ha, not_false_eq_true, if_true]
      simp [ha, throw, throwThe, MonadExceptOf.throw, eq_comm]

end Step

namespace Store

theorem check_eq_forM (steps : List Step) : check steps = steps.zipIdx.forM fun p => p.1.check p.2 :=
  rfl

/-- A trace makes a store exactly when the store accepts every step. -/
theorem ofSteps_eq_ok {steps : List Step} {t : Store} :
    ofSteps steps = .ok t ↔ (∀ s ∈ steps, s.Accepted) ∧ t = ⟨steps.toArray⟩ := by
  unfold ofSteps
  rw [bind_eq_ok]
  constructor
  · rintro ⟨⟨⟩, hc, ht⟩
    rw [check_eq_forM, forM_zipIdx_eq_ok (fun s i => Step.check_eq_ok s i)] at hc
    exact ⟨hc, by simpa [pure, Except.pure, eq_comm] using ht⟩
  · rintro ⟨hall, rfl⟩
    exact ⟨(), by rwa [check_eq_forM, forM_zipIdx_eq_ok (fun s i => Step.check_eq_ok s i)], rfl⟩

/-- Otherwise it fails with the error of the first step it does not accept: the arity mismatch
names that step's index, a name that does not read as a fact gives the reason. -/
theorem ofSteps_eq_error {steps : List Step} {e : ChaseError} :
    ofSteps steps = .error e ↔ ∃ i, ∃ hi : i < steps.length,
      (∀ j (hj : j < i), steps[j].Accepted) ∧ ¬ steps[i].Accepted ∧ e = steps[i].fault i := by
  have hbind : ofSteps steps = .error e ↔ check steps = .error e := by
    unfold ofSteps
    cases check steps <;> simp [bind, Except.bind, pure, Except.pure]
  rw [hbind, check_eq_forM, forM_zipIdx_eq_error (fun s i => Step.check_eq_ok s i)
    (fun s i e => Step.check_eq_error s i e)]
  simp

/-! ### Stages that rewrite a store in place -/

/-- One stage rewriting a store in place: a numbering that succeeds, or the repair of running
sums. A numbering that fails leaves the store as it was. -/
def Rewrites (a b : Store) : Prop :=
  (∃ cfg rep, (number cfg a).2 = .ok (b, rep)) ∨ ∃ cfg, b = (resolve cfg a).2.1

/-- The names of a store's steps, in order. -/
def names (t : Store) : List String := t.steps.toList.map (·.name)

theorem names_eq_of_step? {a b : Store} (h : ∀ i, (b.step? i).map (·.name) = (a.step? i).map (·.name)) :
    b.names = a.names := by
  apply List.ext_getElem?
  intro i
  simpa [names, step?] using h i

theorem names_number {cfg : Config} {a b : Store} {rep : Numbering.Report}
    (h : (number cfg a).2 = .ok (b, rep)) : b.names = a.names := by
  have hopt := number_toOption cfg a
  rw [h] at hopt
  have hb : b = numbered cfg a := by
    split at hopt
    · cases hopt
    · cases hopt
      rfl
  subst hb
  apply names_eq_of_step?
  intro i
  simp [numbered, step?, Array.getElem?_mapIdx, Option.map_map, Function.comp_def]

theorem names_resolve (cfg : Config) (a : Store) : (resolve cfg a).2.1.names = a.names := by
  apply names_eq_of_step?
  intro i
  rw [step?_resolve, Option.map_map]
  exact Option.map_congr fun s _ => (resolvedStep_keeps i s).1

theorem Rewrites.names_eq {a b : Store} (h : Rewrites a b) : b.names = a.names := by
  rcases h with ⟨cfg, rep, h⟩ | ⟨cfg, rfl⟩
  · exact names_number h
  · exact names_resolve cfg a

/-- No run of in-place stages changes a name or moves a step. -/
theorem names_eq_of_rewrites {a b : Store} (h : Relation.ReflTransGen Rewrites a b) :
    b.names = a.names := by
  induction h with
  | refl => rfl
  | tail _ hstep ih => exact hstep.names_eq.trans ih

/-! ### The name index -/

theorem indicesOf_eq_names (t : Store) (n : String) :
    t.indicesOf n = (t.names.zipIdx.filter (·.1 == n)).map (·.2) := by
  simp [indicesOf, names, List.zipIdx_map, List.filter_map, Function.comp_def]

theorem indicesOf_eq_of_names {a b : Store} (h : b.names = a.names) (n : String) :
    b.indicesOf n = a.indicesOf n := by
  rw [indicesOf_eq_names, indicesOf_eq_names, h]

theorem pairwise_snd_zipIdx {α : Type} (l : List α) (k : Nat) :
    (l.zipIdx k).Pairwise fun x y => x.2 < y.2 := by
  induction l generalizing k with
  | nil => exact .nil
  | cons a l ih =>
    refine List.pairwise_cons.mpr ⟨fun y hy => ?_, ih (k + 1)⟩
    have := List.le_snd_of_mem_zipIdx hy
    simp only
    omega

/-- The index lists the steps of a fact in ascending order. -/
theorem pairwise_indicesOf (t : Store) (n : String) : (t.indicesOf n).Pairwise (· < ·) :=
  ((pairwise_snd_zipIdx _ 0).filter _).map _ fun _ _ h => h

/-- The first step carrying a fact is the one at the head of its index list. -/
theorem firstNamed?_eq (t : Store) (n : String) :
    t.firstNamed? n = (t.indicesOf n).head?.bind t.step? := by
  rw [firstNamed?, List.find?_eq_bind_findIdx?_getElem?, List.findIdx?_eq_fst_find?_zipIdx,
    indicesOf, List.head?_map, List.head?_filter]
  simp only [Array.getElem?_toList]
  rfl

/-! ### The derivation graph -/

/-- The children the derivation graph gives a step: the other steps with a provenance entry equal
to its fact, ascending and so without repeats. -/
theorem graph_exact (t : Store) {p : Nat} {s : Step} (hp : t.step? p = some s) :
    ∃ l, t.graph[p]? = some l ∧ l.Pairwise (· < ·) ∧ l.Nodup ∧
      ∀ c, c ∈ l ↔ c ≠ p ∧ ∃ sc, t.step? c = some sc ∧ s.name ∈ sc.provenance.entries := by
  have hlt : p < t.size := (Array.getElem?_eq_some_iff.mp hp).1
  have hpw : (t.children p).Pairwise (· < ·) := List.pairwise_lt_range.filter _
  refine ⟨t.children p, by rw [getElem?_graph, if_pos hlt], hpw, hpw.nodup, fun c => ?_⟩
  rw [mem_children, cites_iff]
  constructor
  · rintro ⟨hcp, sc, sp, hc, hsp, hmem⟩
    obtain rfl : sp = s := Option.some.inj (hsp.symm.trans hp)
    exact ⟨hcp, sc, hc, hmem⟩
  · rintro ⟨hcp, sc, hc, hmem⟩
    exact ⟨hcp, sc, s, hc, hp, hmem⟩

/-- The store's name index and derivation graph are exact. A trace makes a store exactly when every
step's name reads as a fact with as many arguments as its pattern has markers; otherwise building
fails with the error of the first step that does not. The name index of a store, which numbering
and the repair of running sums never rebuild, lists, after any run of them, every step carrying
a fact and no other, ascending, and the first step carrying a fact is the one at its head. The
derivation graph gives every step, ascending and without repeats, exactly the other steps with a
provenance entry equal to its fact. -/
theorem store_index_exact (steps : List Step) :
    (∀ t, ofSteps steps = .ok t ↔ (∀ s ∈ steps, s.Accepted) ∧ t = ⟨steps.toArray⟩) ∧
    (∀ e, ofSteps steps = .error e ↔ ∃ i, ∃ hi : i < steps.length,
      (∀ j (hj : j < i), steps[j].Accepted) ∧ ¬ steps[i].Accepted ∧ e = steps[i].fault i) ∧
    ∀ t t', Relation.ReflTransGen Rewrites t t' →
      (∀ n, (t.indicesOf n).Pairwise (· < ·) ∧
        (∀ i, i ∈ t.indicesOf n ↔ ∃ s, t'.step? i = some s ∧ s.name = n) ∧
        t'.indicesOf n = t.indicesOf n ∧ t'.firstNamed? n = (t.indicesOf n).head?.bind t'.step?) ∧
      t'.graph.size = t'.size ∧
      ∀ p s, t'.step? p = some s → ∃ l, t'.graph[p]? = some l ∧ l.Pairwise (· < ·) ∧ l.Nodup ∧
        ∀ c, c ∈ l ↔ c ≠ p ∧ ∃ sc, t'.step? c = some sc ∧ s.name ∈ sc.provenance.entries := by
  refine ⟨fun t => ofSteps_eq_ok, fun e => ofSteps_eq_error, fun t t' hrun => ?_⟩
  -- the index of `t` is the index of `t'`, whose names are those of `t`
  have hindex : ∀ n, t'.indicesOf n = t.indicesOf n :=
    indicesOf_eq_of_names (names_eq_of_rewrites hrun)
  refine ⟨fun n => ⟨pairwise_indicesOf t n, fun i => ?_, hindex n, ?_⟩, size_graph,
    fun p s hp => graph_exact t' hp⟩
  · rw [← hindex, mem_indicesOf]
  · rw [firstNamed?_eq, hindex]

/-- The trace of three facts where `p(ab)` has a name that `p(a)` is part of, and only the
exact entry `p(a)` makes a parent. -/
def exactEntries : List Step :=
  [{ name := "p(a)", pattern := ⟨[1]⟩ }, { name := "p(ab)", pattern := ⟨[1]⟩ },
    { name := "q(a)", pattern := ⟨[1]⟩, provenance := ⟨["p(a)"]⟩, rule := "q(X) :- p(X)." },
    { name := "r(a)", pattern := ⟨[1]⟩, provenance := ⟨["p(a)", "q(a)"]⟩,
      rule := "r(X) :- p(X), q(X)." }]

theorem store_index_exact_exactEntries :
    Relation.ReflTransGen Rewrites ⟨exactEntries.toArray⟩ ⟨exactEntries.toArray⟩ ∧
      ∀ c, c ∈ [2, 3] ↔ c ≠ 0 ∧ ∃ sc, (⟨exactEntries.toArray⟩ : Store).step? c = some sc ∧
        "p(a)" ∈ sc.provenance.entries := by
  refine ⟨.refl, ?_⟩
  obtain ⟨l, hl, -, -, hmem⟩ :=
    ((store_index_exact exactEntries).2.2 ⟨exactEntries.toArray⟩ _ .refl).2.2 0
      { name := "p(a)", pattern := ⟨[1]⟩ } rfl
  have hg : (⟨exactEntries.toArray⟩ : Store).graph[0]? = some [2, 3] := by decide +kernel
  rw [hg, Option.some.injEq] at hl
  subst hl
  exact hmem

end Store

end ChaseProse.Chase
