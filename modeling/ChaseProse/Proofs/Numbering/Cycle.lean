import ChaseProse.Proofs.Numbering.Labels
/-! Numbering fails exactly on a derivation cycle: an overflowing walk and an unlabelled step both
lead back to a repeated step. -/
namespace ChaseProse.Numbering
open ChaseProse.Chase

variable {cfg : Config} {t : Store}

/-- A walk along `R` through `v 0, …, v n` makes `R` hold from each earlier node to each later
one. -/
theorem transGen_of_walk {R : Nat → Nat → Prop} {n : Nat} (v : Nat → Nat)
    (hstep : ∀ i < n, R (v i) (v (i + 1))) {i j : Nat} (hij : i < j) (hj : j ≤ n) :
    Relation.TransGen R (v i) (v j) := by
  induction j with
  | zero => omega
  | succ j ih =>
    rcases Nat.lt_succ_iff_lt_or_eq.mp hij with hij | rfl
    · exact .tail (ih hij (by omega)) (hstep j (by omega))
    · exact .single (hstep i (by omega))

/-- A walk of `n` steps among `n` nodes closes a cycle. -/
theorem exists_cycle_of_walk {R : Nat → Nat → Prop} {n : Nat} (v : Nat → Nat)
    (hstep : ∀ i < n, R (v i) (v (i + 1))) (hbound : ∀ i ≤ n, v i < n) :
    ∃ y, Relation.TransGen R y y := by
  have hcard : (Finset.range n).card < (Finset.range (n + 1)).card := by simp
  have hmaps : ∀ k ∈ Finset.range (n + 1), v k ∈ Finset.range n := fun k hk =>
    Finset.mem_range.mpr (hbound k (by simpa [Nat.lt_succ_iff] using hk))
  obtain ⟨i, hi, j, hj, hne, hv⟩ := Finset.exists_ne_map_eq_of_card_lt_of_maps_to hcard hmaps
  rw [Finset.mem_range] at hi hj
  rcases Nat.lt_or_gt_of_ne hne with hij | hji
  · have h := transGen_of_walk v hstep hij (by omega)
    rw [← hv] at h
    exact ⟨v i, h⟩
  · have h := transGen_of_walk v hstep hji (by omega)
    rw [hv] at h
    exact ⟨v j, h⟩

/-- A step on a cycle has children at every depth: the walk from it always overflows. -/
theorem overflows_of_cycle {x : Nat} (hx : Relation.TransGen t.Edge x x) (d : Nat) :
    overflows t.graph d x = true := by
  induction d generalizing x with
  | zero =>
    obtain ⟨c, hc, -⟩ := Relation.TransGen.head'_iff.mp hx
    have hne : t.graph[x]?.getD [] ≠ [] := List.ne_nil_of_mem hc
    simpa [overflows] using hne
  | succ d ih =>
    obtain ⟨c, hc, hcx⟩ := Relation.TransGen.head'_iff.mp hx
    -- the next step of the cycle lies on it too
    have hcc : Relation.TransGen t.Edge c c := .tail' hcx hc
    simp only [overflows, List.any_eq_true]
    exact ⟨c, hc, ih hcc⟩

/-- A walk that overflows from `x` at depth `d` follows `d + 1` edges from `x`. -/
theorem walk_of_overflows {g : Array (List Nat)} {d x : Nat} (h : overflows g d x = true) :
    ∃ v : Nat → Nat, v 0 = x ∧ ∀ i ≤ d, v (i + 1) ∈ g[v i]?.getD [] := by
  induction d generalizing x with
  | zero =>
    obtain ⟨c, hc⟩ := List.exists_mem_of_ne_nil _ (by simpa [overflows] using h)
    refine ⟨fun i => if i = 0 then x else c, rfl, fun i hi => ?_⟩
    obtain rfl : i = 0 := by omega
    simpa using hc
  | succ d ih =>
    simp only [overflows, List.any_eq_true] at h
    obtain ⟨c, hc, hd⟩ := h
    obtain ⟨w, hw0, hw⟩ := ih hd
    refine ⟨fun i => if i = 0 then x else w (i - 1), rfl, fun i hi => ?_⟩
    cases i with
    | zero => simpa [hw0] using hc
    | succ i => simpa using hw i (by omega)

/-- A walk from a root that overflows at the number of steps closes a cycle. -/
theorem cycle_of_overflows {x : Nat} (h : overflows t.graph t.size x = true) :
    ∃ y, Relation.TransGen t.Edge y y := by
  obtain ⟨v, -, hv⟩ := walk_of_overflows h
  exact exists_cycle_of_walk v (fun i hi => hv i hi.le)
    (fun i hi => (Store.Edge.lt_size (hv i hi)).1)

/-- When every node with `P` has a predecessor with `P`, and such nodes are fewer than `n`,
following predecessors back closes a cycle. -/
theorem exists_cycle_of_pred {R : Nat → Nat → Prop} {P : Nat → Prop} {n x : Nat} (hx : P x)
    (hbound : ∀ y, P y → y < n) (hpred : ∀ y, P y → ∃ z, R z y ∧ P z) :
    ∃ y, Relation.TransGen R y y := by
  have hchoice : ∀ y, ∃ z, P y → R z y ∧ P z := fun y => by
    by_cases hy : P y
    · obtain ⟨z, hz⟩ := hpred y hy
      exact ⟨z, fun _ => hz⟩
    · exact ⟨y, fun h => absurd h hy⟩
  let f := fun y => Classical.choose (hchoice y)
  have hf : ∀ y, P y → R (f y) y ∧ P (f y) := fun y => Classical.choose_spec (hchoice y)
  have hP : ∀ k, P (f^[k] x) := fun k => by
    induction k with
    | zero => exact hx
    | succ k ih => rw [Function.iterate_succ_apply']; exact (hf _ ih).2
  obtain ⟨y, hy⟩ := @exists_cycle_of_walk (Function.swap R) n (fun k => f^[k] x)
    (fun k _ => by simpa [Function.iterate_succ_apply'] using (hf _ (hP k)).1)
    (fun k _ => hbound _ (hP k))
  exact ⟨y, Relation.transGen_swap.mp hy⟩

/-- A step emitted by a walk that does not overflow is reached with some depth left at which
its own walk does not overflow. -/
theorem not_overflows_of_mem_preorder {g : Array (List Nat)} {d r x : Nat} {lr l : String}
    (hx : (x, l) ∈ preorder cfg t g d r lr) (h : overflows g d r = false) :
    ∃ d', overflows g d' x = false := by
  induction d generalizing r lr with
  | zero =>
    simp only [preorder, List.mem_singleton, Prod.mk.injEq] at hx
    exact ⟨0, hx.1 ▸ h⟩
  | succ d ih =>
    simp only [preorder, List.mem_cons, Prod.mk.injEq, List.mem_flatMap] at hx
    obtain ⟨rfl, -⟩ | ⟨q, hq, hxq⟩ := hx
    · exact ⟨d + 1, h⟩
    · simp only [overflows, List.any_eq_false, Bool.not_eq_true] at h
      exact ih hxq (h _ (fst_mem_of_mem_labelledChildren hq))

theorem mem_traversal {d x : Nat} {l : String} :
    (x, l) ∈ traversal cfg t d ↔
      ∃ r ∈ (rootSteps t).zipIdx 1, (x, l) ∈ preorder cfg t t.graph d r.1 (toString r.2) := by
  simp [traversal, forest]

/-- A step that no step cites is a root, so the traversal labels it. -/
theorem emitted_of_not_cited {d i : Nat} (hi : i < t.size) (hc : isCited t.graph i = false) :
    ∃ l, (i, l) ∈ traversal cfg t d := by
  have hroot : i ∈ rootSteps t := by
    cases hg : isGroundAt t i <;> simp [rootSteps, groundSteps, orphanSteps, hi, hg, hc]
  exact (emitted_forest_iff_of_not_cited hc).mpr hroot

/-- When no walk from a root overflows, the traversal labels every child of a step it labels. -/
theorem child_emitted {p c : Nat} {l : String}
    (h : (rootSteps t).any (overflows t.graph t.size) = false)
    (hp : (p, l) ∈ traversal cfg t t.size) (hc : t.Edge p c) :
    ∃ l', (c, l') ∈ traversal cfg t t.size := by
  obtain ⟨r, hr, hpr⟩ := mem_traversal.mp hp
  simp only [List.any_eq_false, Bool.not_eq_true] at h
  obtain ⟨l', hl'⟩ := child_mem_preorder (h r.1 (mem_roots_of_mem_zipIdx hr)) hpr hc
  exact ⟨l', mem_traversal.mpr ⟨r, hr, hl'⟩⟩

/-- A step the traversal leaves without a label has a parent it leaves without a label. -/
theorem unlabelled_parent {i : Nat} (h : (rootSteps t).any (overflows t.graph t.size) = false)
    (hi : i < t.size) (hno : ¬ ∃ l, (i, l) ∈ traversal cfg t t.size) :
    ∃ p, t.Edge p i ∧ p < t.size ∧ ¬ ∃ l, (p, l) ∈ traversal cfg t t.size := by
  cases hc : isCited t.graph i
  · exact absurd (emitted_of_not_cited hi hc) hno
  · obtain ⟨p, hp⟩ := isCited_iff.mp hc
    refine ⟨p, hp, (Store.Edge.lt_size hp).1, fun ⟨l, hl⟩ => hno (child_emitted h hl hp)⟩

/-- The two ways numbering fails: a walk from a root overflows, or a step is left without a
label. -/
theorem number_fails_iff {cfg : Config} {t : Store} :
    (∃ e, (number cfg t).2 = .error e) ↔
      ((rootSteps t).any (overflows t.graph t.size) ||
        (List.range t.size).any (fun i => (pathLabels cfg t t.size i).isEmpty)) = true := by
  rw [← toOption_eq_none_iff, number_toOption]
  split <;> simp_all

theorem pathLabels_eq_nil_iff {d i : Nat} :
    pathLabels cfg t d i = [] ↔ ¬ ∃ l, (i, l) ∈ traversal cfg t d := by
  rw [← List.isEmpty_iff, pathLabels, labels_isEmpty_iff]

/-- A failed numbering closes a cycle: an overflowing walk runs round one, and a step left
without a label has a parent without one, and so on back. -/
theorem exists_cycle_of_fails
    (h : ((rootSteps t).any (overflows t.graph t.size) ||
      (List.range t.size).any (fun i => (pathLabels cfg t t.size i).isEmpty)) = true) :
    ∃ i, Relation.TransGen t.Edge i i := by
  cases hr : (rootSteps t).any (overflows t.graph t.size)
  · -- no walk overflows: some step is left without a label, and so is a parent of it
    rw [hr, Bool.false_or, List.any_eq_true] at h
    obtain ⟨i, hi, hempty⟩ := h
    exact @exists_cycle_of_pred _ (fun i => i < t.size ∧ ¬ ∃ l, (i, l) ∈ traversal cfg t t.size)
      t.size i ⟨List.mem_range.mp hi, pathLabels_eq_nil_iff.mp (List.isEmpty_iff.mp hempty)⟩
      (fun _ hy => hy.1) (fun y hy => unlabelled_parent hr hy.1 hy.2)
  · obtain ⟨r, -, hro⟩ := List.any_eq_true.mp hr
    exact cycle_of_overflows hro

/-- A step on a cycle makes numbering fail: a walk that labels it would overflow. -/
theorem fails_of_cycle {y : Nat} (hy : Relation.TransGen t.Edge y y) :
    ((rootSteps t).any (overflows t.graph t.size) ||
      (List.range t.size).any (fun i => (pathLabels cfg t t.size i).isEmpty)) = true := by
  by_contra hne
  simp only [Bool.or_eq_true, List.any_eq_true, not_or, not_exists, not_and,
    Bool.not_eq_true] at hne
  obtain ⟨hroots, hall⟩ := hne
  have hyn : y < t.size := by
    obtain ⟨c, hc, -⟩ := Relation.TransGen.head'_iff.mp hy
    exact (Store.Edge.lt_size hc).1
  have hlab : ∃ l, (y, l) ∈ traversal cfg t t.size := by
    by_contra hno
    have := hall y (List.mem_range.mpr hyn)
    rw [pathLabels_eq_nil_iff.mpr hno] at this
    simp at this
  obtain ⟨l, hl⟩ := hlab
  obtain ⟨r, hr, hyr⟩ := mem_traversal.mp hl
  obtain ⟨d', hd'⟩ := not_overflows_of_mem_preorder hyr
    (by simpa using hroots r.1 (mem_roots_of_mem_zipIdx hr))
  rw [overflows_of_cycle hy d'] at hd'
  exact Bool.noConfusion hd'

theorem number_error_iff_cycle :
    (∃ e, (number cfg t).2 = .error e) ↔ ∃ i, Relation.TransGen t.Edge i i := by
  rw [number_fails_iff]
  exact ⟨exists_cycle_of_fails, fun ⟨_, hy⟩ => fails_of_cycle hy⟩

/-- A numbering that succeeds gives every step a label. -/
theorem labelled_of_number_ok {t' : Store} {rep : Report} (h : (number cfg t).2 = .ok (t', rep))
    {i : Nat} {s : Step} (hs : t'.step? i = some s) : ∃ l ls, s.labelling = .labels (l :: ls) := by
  have hopt := number_toOption cfg t
  rw [h] at hopt
  have hcond : (List.range t.size).any (fun i => (pathLabels cfg t t.size i).isEmpty) = false ∧
      (t', rep) = (numbered cfg t, numberReport cfg t) := by
    cases hc : (List.range t.size).any (fun i => (pathLabels cfg t t.size i).isEmpty) <;>
      simp_all [Except.toOption]
  obtain ⟨hall, ht⟩ := hcond
  obtain ⟨rfl, -⟩ := Prod.mk.inj ht
  simp only [numbered, Store.step?, Array.getElem?_mapIdx, Option.map_eq_some_iff] at hs
  obtain ⟨s0, hs0, rfl⟩ := hs
  have hi : i < t.size := (Array.getElem?_eq_some_iff.mp hs0).1
  have hne : pathLabels cfg t t.size i ≠ [] := by
    intro hnil
    simp only [List.any_eq_false] at hall
    simp at hall
    exact hall i hi hnil
  obtain ⟨l, ls, hls⟩ := List.exists_cons_of_ne_nil hne
  exact ⟨l, ls, by rw [hls]⟩

/-- Numbering fails exactly on a derivation cycle, and a cycle only: a step citing its own
fact is no edge, while two steps carrying one fact that both cite it make numbering fail. A
run that succeeds leaves every step with at least one label. -/
theorem number_fails_iff_cycle (cfg : Config) (t : Store) :
    ((∃ e, (number cfg t).2 = .error e) ↔ ∃ i, Relation.TransGen t.Edge i i) ∧
    (∀ t' rep, (number cfg t).2 = .ok (t', rep) →
      ∀ i s, t'.step? i = some s → ∃ l ls, s.labelling = .labels (l :: ls)) ∧
    (∀ i, ¬ t.Edge i i) ∧
    (∀ x y sx sy, t.step? x = some sx → t.step? y = some sy → x ≠ y → sx.name = sy.name →
      sx.name ∈ sx.provenance.entries → sy.name ∈ sy.provenance.entries →
      ∃ e, (number cfg t).2 = .error e) := by
  refine ⟨number_error_iff_cycle, fun t' rep h i s hs => labelled_of_number_ok h hs,
    Store.not_edge_self, fun x y sx sy hx hy hxy hname hcx hcy => ?_⟩
  -- two steps citing each other's fact close a cycle of length two
  obtain ⟨hxy', hyx⟩ := Store.edge_of_same_fact hx hy hxy hname hcx hcy
  exact number_error_iff_cycle.mpr ⟨x, .tail (.single hxy') hyx⟩

/-- Two steps carrying one fact, each citing it, after an input fact. -/
def sharedFact : Store :=
  ⟨#[{ name := "p(a)", pattern := ⟨[1]⟩ },
    { name := "q(a)", pattern := ⟨[1]⟩, provenance := ⟨["q(a)"]⟩, rule := "q(X) :- q(X)." },
    { name := "q(a)", pattern := ⟨[1]⟩, provenance := ⟨["q(a)"]⟩, rule := "q(X) :- q(X)." }]⟩

theorem number_fails_iff_cycle_witness :
    (∃ l ls, Labelling.labels (pathLabels {} twoPaths 3 2) = .labels (l :: ls)) ∧
      ∃ e, (number {} sharedFact).2 = .error e :=
  ⟨(number_fails_iff_cycle {} twoPaths).2.1 _ _ number_twoPaths 2
      { name := "q(a)", pattern := ⟨[1]⟩, provenance := ⟨["p(a)", "r(a)"]⟩,
        rule := "q(X) :- p(X), r(X).", labelling := .labels (pathLabels {} twoPaths 3 2) } rfl,
    (number_fails_iff_cycle {} sharedFact).2.2.2 1 2
      { name := "q(a)", pattern := ⟨[1]⟩, provenance := ⟨["q(a)"]⟩, rule := "q(X) :- q(X)." }
      { name := "q(a)", pattern := ⟨[1]⟩, provenance := ⟨["q(a)"]⟩, rule := "q(X) :- q(X)." }
      rfl rfl (by decide) rfl (by simp) (by simp)⟩

end ChaseProse.Numbering
