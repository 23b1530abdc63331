import ChaseProse.Chase.Store
import Mathlib.Logic.Relation
/-! The derivation graph read back as a relation. The pass over the provenance entries that
builds it gives every step, as its children, the steps citing its fact other than itself, in
index order and without repeats. -/
namespace ChaseProse.Chase
namespace Store

variable {t : Store}

/-- An edge of the derivation graph: `c` is listed among the children of `p`. -/
def Edge (t : Store) (p c : Nat) : Prop := c ∈ t.graph[p]?.getD []

/-- Appends `c` unless present: what the pass does to a parent's list. -/
def addChild (l : List Nat) (c : Nat) : List Nat := if l.contains c then l else l ++ [c]

theorem addChild_addChild (l : List Nat) (c : Nat) : addChild (addChild l c) c = addChild l c := by
  unfold addChild
  split <;> simp_all

/-- One link of the pass: `c` under the parent `p`, unless they are one step. -/
def link (acc : Array (List Nat)) (c p : Nat) : Array (List Nat) :=
  if p == c then acc else acc.modify p (addChild · c)

/-- The part of the pass that links step `c`, whose step is `s`, under every step carrying one of
its provenance entries. -/
def linkStep (t : Store) (acc : Array (List Nat)) (s : Step) (c : Nat) : Array (List Nat) :=
  s.provenance.entries.foldl (fun acc e => (t.indicesOf e).foldl (fun acc p => link acc c p) acc) acc

theorem graph_eq_foldl :
    t.graph = t.steps.toList.zipIdx.foldl (fun acc sc => linkStep t acc sc.1 sc.2)
      (Array.replicate t.size []) := rfl

theorem getElem?_link (acc : Array (List Nat)) (c p q : Nat) :
    (link acc c p)[q]? = if q = p ∧ q ≠ c then acc[q]?.map (addChild · c) else acc[q]? := by
  unfold link
  by_cases hpc : p = c
  · subst hpc; simp
  · simp only [beq_iff_eq, hpc, if_false, Array.getElem?_modify]
    by_cases hq : q = p
    · subst hq; simp [hpc]
    · simp [hq, Ne.symm hq]

/-- Linking `c` under every step of `ps` adds it once to each, itself excepted. -/
theorem getElem?_foldl_link (ps : List Nat) (acc : Array (List Nat)) (c q : Nat) :
    (ps.foldl (fun acc p => link acc c p) acc)[q]? =
      if q ∈ ps ∧ q ≠ c then acc[q]?.map (addChild · c) else acc[q]? := by
  induction ps generalizing acc with
  | nil => simp
  | cons p ps ih =>
    rw [List.foldl_cons, ih, getElem?_link]
    by_cases hqc : q = c
    · simp [hqc]
    by_cases hqp : q = p
    · subst hqp
      simp [hqc, Option.map_map, Function.comp_def, addChild_addChild]
    · simp [hqc, hqp]

theorem getElem?_linkStep (acc : Array (List Nat)) (s : Step) (c q : Nat) :
    (linkStep t acc s c)[q]? =
      if (∃ e ∈ s.provenance.entries, q ∈ t.indicesOf e) ∧ q ≠ c
      then acc[q]?.map (addChild · c) else acc[q]? := by
  unfold linkStep
  induction s.provenance.entries generalizing acc with
  | nil => simp
  | cons e es ih =>
    rw [List.foldl_cons, ih, getElem?_foldl_link]
    by_cases hqc : q = c
    · simp [hqc]
    by_cases hq : q ∈ t.indicesOf e
    · simp [hqc, hq, Option.map_map, Function.comp_def, addChild_addChild]
    · simp [hqc, hq]

theorem mem_indicesOf {q : Nat} {e : String} :
    q ∈ t.indicesOf e ↔ ∃ s, t.step? q = some s ∧ s.name = e := by
  simp [indicesOf, step?, List.mem_zipIdx_iff_getElem?]

theorem cites_iff {c p : Nat} :
    t.cites c p = true ↔ c ≠ p ∧ ∃ sc sp, t.step? c = some sc ∧ t.step? p = some sp ∧
      sp.name ∈ sc.provenance.entries := by
  unfold cites
  cases hc : t.step? c <;> cases hp : t.step? p <;> simp

/-- For a step `c` of the trace, linking it reaches exactly the steps it cites. -/
theorem linked_iff_cites {c q : Nat} {s : Step} (hs : t.step? c = some s) :
    ((∃ e ∈ s.provenance.entries, q ∈ t.indicesOf e) ∧ q ≠ c) ↔ t.cites c q = true := by
  simp only [mem_indicesOf, cites_iff]
  constructor
  · rintro ⟨⟨e, he, sp, hsp, rfl⟩, hqc⟩
    exact ⟨Ne.symm hqc, s, sp, hs, hsp, he⟩
  · rintro ⟨hcq, sc, sp, hsc, hsp, he⟩
    rw [hs, Option.some.injEq] at hsc
    subst hsc
    exact ⟨⟨sp.name, he, sp, hsp, rfl⟩, Ne.symm hcq⟩

/-- The pass over a run of consecutive steps from `k` on adds, to each parent's list, the steps
of the run citing it, in order. -/
theorem getElem?_foldl_linkStep (l : List Step) (k : Nat) (acc : Array (List Nat))
    (hl : ∀ i (h : i < l.length), t.step? (k + i) = some l[i])
    (hacc : ∀ q, acc[q]? = if q < t.size then some ((List.range k).filter (t.cites · q)) else none)
    (q : Nat) :
    ((l.zipIdx k).foldl (fun acc sc => linkStep t acc sc.1 sc.2) acc)[q]? =
      if q < t.size then some ((List.range (k + l.length)).filter (t.cites · q)) else none := by
  induction l generalizing k acc with
  | nil => simpa using hacc q
  | cons s l ih =>
    have hs : t.step? k = some s := hl 0 (by simp)
    have hnext : ∀ q, (linkStep t acc s k)[q]? =
        if q < t.size then some ((List.range (k + 1)).filter (t.cites · q)) else none := by
      intro q
      simp only [getElem?_linkStep, linked_iff_cites hs, hacc q, List.range_succ, List.filter_append]
      by_cases hq : q < t.size <;> by_cases hkq : t.cites k q = true
      · have hk : ¬ k ∈ (List.range k).filter (t.cites · q) := by simp
        simp [hq, hkq, addChild, hk]
      all_goals simp [hq, hkq]
    rw [List.zipIdx_cons, List.foldl_cons, ih (k + 1) _ (fun i h => ?_) hnext]
    · simp [Nat.add_right_comm, Nat.add_assoc]
    · have hi := hl (i + 1) (by simpa using h)
      rwa [show k + (i + 1) = k + 1 + i by omega] at hi

/-- The children list of every step, as the pass leaves it. -/
theorem getElem?_graph (q : Nat) :
    t.graph[q]? = if q < t.size then some (t.children q) else none := by
  rw [graph_eq_foldl, getElem?_foldl_linkStep t.steps.toList 0 _ (fun i h => ?_) (fun q => ?_)]
  · simp only [Nat.zero_add, Array.length_toList]
    rfl
  · simp [step?]
  · simp only [Array.getElem?_replicate, List.range_zero, List.filter_nil]

theorem size_graph : t.graph.size = t.size := by
  apply Nat.le_antisymm
  · exact Array.getElem?_eq_none_iff.mp (by simp [getElem?_graph])
  · cases h : t.size with
    | zero => simp
    | succ n =>
      have hn : t.graph[n]?.isSome := by simp [getElem?_graph, h]
      have : n < t.graph.size := by simpa using hn
      omega

theorem graph_getD (p : Nat) : t.graph[p]?.getD [] = t.children p := by
  rw [getElem?_graph]
  split
  · rfl
  · have hp : t.step? p = none := by simp_all [step?, size]
    simp [children, cites, hp]

theorem mem_children {c p : Nat} : c ∈ t.children p ↔ t.cites c p = true := by
  simp only [children, List.mem_filter, List.mem_range, and_iff_right_iff_imp]
  intro h
  obtain ⟨-, sc, -, hc, -, -⟩ := cites_iff.mp h
  exact (Array.getElem?_eq_some_iff.mp hc).1

theorem edge_iff_cites {p c : Nat} : t.Edge p c ↔ t.cites c p = true := by
  rw [Edge, graph_getD, mem_children]

/-- Both ends of an edge are steps of the trace. -/
theorem Edge.lt_size {p c : Nat} (h : t.Edge p c) : p < t.size ∧ c < t.size := by
  obtain ⟨-, sc, sp, hc, hp, -⟩ := cites_iff.mp (edge_iff_cites.mp h)
  simp only [step?] at hc hp
  exact ⟨(Array.getElem?_eq_some_iff.mp hp).1, (Array.getElem?_eq_some_iff.mp hc).1⟩

/-- A step citing its own fact is no edge to itself. -/
theorem not_edge_self (i : Nat) : ¬ t.Edge i i := by
  simp [edge_iff_cites, cites]

/-- Two steps carrying one fact that both cite it are each other's child. -/
theorem edge_of_same_fact {x y : Nat} {sx sy : Step} (hx : t.step? x = some sx)
    (hy : t.step? y = some sy) (hxy : x ≠ y) (hname : sx.name = sy.name)
    (hcx : sx.name ∈ sx.provenance.entries) (hcy : sy.name ∈ sy.provenance.entries) :
    t.Edge x y ∧ t.Edge y x := by
  constructor <;> rw [edge_iff_cites, cites_iff]
  · exact ⟨Ne.symm hxy, sy, sx, hy, hx, hname ▸ hcy⟩
  · exact ⟨hxy, sx, sy, hx, hy, hname ▸ hcx⟩

end Store

end ChaseProse.Chase
