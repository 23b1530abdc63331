import ChaseProse.Proofs.Numbering.Walk
/-! What numbering computes: the labels a pre-order traversal from the roots emits, first
occurrences kept, failing exactly when a walk overflows or a step is left unlabelled. -/
namespace ChaseProse.Numbering
open ChaseProse.Chase

variable {cfg : Config} {t : Store} {g : Array (List Nat)}

/-- Whether step `i` is an input fact. -/
def isGroundAt (t : Store) (i : Nat) : Bool := ((t.step? i).map (·.isGround)).getD false

/-- Whether some child list of `g` holds `i`. -/
def isCited (g : Array (List Nat)) (i : Nat) : Bool := g.toList.flatten.contains i

theorem isCited_iff {i : Nat} : isCited g i = true ↔ ∃ p : Nat, i ∈ g[p]?.getD [] := by
  simp only [isCited, List.contains_iff_mem, List.mem_flatten, Array.mem_toList_iff]
  constructor
  · rintro ⟨l, hl, hi⟩
    obtain ⟨p, hp, rfl⟩ := Array.mem_iff_getElem.mp hl
    exact ⟨p, by simpa [Array.getElem?_eq_getElem hp] using hi⟩
  · rintro ⟨p, hp⟩
    cases h : g[p]? with
    | none => simp [h] at hp
    | some l => exact ⟨l, Array.mem_of_getElem? h, by simpa [h] using hp⟩

/-- The ground steps, in index order: the first roots. -/
def groundSteps (t : Store) : List Nat := (List.range t.size).filter (isGroundAt t)

/-- The steps that are not ground and that no step cites, in index order: the roots after the
ground steps. -/
def orphanSteps (t : Store) : List Nat :=
  (List.range t.size).filter fun i => !isGroundAt t i && !isCited t.graph i

def rootSteps (t : Store) : List Nat := groundSteps t ++ orphanSteps t

/-- The trees walked from `roots` to depth `d`, the first labelled `k`, the next `k + 1`, and so
on. -/
def forest (cfg : Config) (t : Store) (g : Array (List Nat)) (d k : Nat) (roots : List Nat) :
    List (Nat × String) :=
  (roots.zipIdx k).flatMap fun r => preorder cfg t g d r.1 (toString r.2)

/-- Every label the reference emits: the trees of the roots in order, the `k`-th root labelled
`k`, each walked to depth `d`. -/
def traversal (cfg : Config) (t : Store) (d : Nat) : List (Nat × String) :=
  forest cfg t t.graph d 1 (rootSteps t)

/-- The labels of step `i`: those the traversal emits for it, first occurrences kept. -/
def pathLabels (cfg : Config) (t : Store) (d i : Nat) : List String :=
  (((traversal cfg t d).filter (·.1 == i)).map (·.2)).eraseDups

/-- Whether the orphan pass starts a tree at `i`: it has no label yet and no parent. -/
def startsTree (hasParent : Nat → Bool) (labels : Array Labelling) (i : Nat) : Bool :=
  ((labels[i]?.map (·.toList.isEmpty)).getD false) && !hasParent i

/-- The orphan pass: the steps of `xs` that start a tree are walked in order, numbered on from
`ord`, unless one of the walks overflows. -/
theorem walkOrphans_toOption (hg : ∀ p : Nat, ∀ c ∈ g[p]?.getD [], c < t.size)
    (hasParent : Nat → Bool) (xs : List Nat) (hxs : xs.Nodup)
    (hstable : ∀ o ∈ xs, ∀ j ∈ xs, j ≠ o → ∀ l ls,
      startsTree hasParent (record ls (preorder cfg t g t.size o l)) j = startsTree hasParent ls j)
    (ord : Nat) (labels : Array Labelling) (found : List Nat) :
    (walkOrphans cfg t g hasParent xs ord labels found).2.toOption =
      if (xs.filter (startsTree hasParent labels)).any (overflows g t.size) then none
      else some (record labels (forest cfg t g t.size (ord + 1) (xs.filter (startsTree hasParent labels))),
        found ++ xs.filter (startsTree hasParent labels)) := by
  induction xs generalizing ord labels found with
  | nil => simp [walkOrphans, forest, Except.toOption]
  | cons i xs ih =>
    obtain ⟨hi, hxs⟩ := List.nodup_cons.mp hxs
    have hrest := ih hxs (fun o ho j hj => hstable o (by simp [ho]) j (by simp [hj]))
    have hskip : (!((labels[i]?.map (·.toList.isEmpty)).getD false) || hasParent i) =
        !startsTree hasParent labels i := by
      simp [startsTree]
    by_cases hs : startsTree hasParent labels i = true
    · have hwalk := @walk_toOption cfg t g hg i (toString (ord + 1)) labels
      -- the walk from `i` leaves every later step's start condition as it was
      have hsame : xs.filter (startsTree hasParent
          (record labels (preorder cfg t g t.size i (toString (ord + 1))))) =
          xs.filter (startsTree hasParent labels) := by
        apply List.filter_congr
        intro j hj
        exact hstable i (by simp) j (by simp [hj]) (fun h => hi (h ▸ hj)) _ _
      rw [walkOrphans, hskip, hs, Bool.not_true, if_neg Bool.false_ne_true,
        List.filter_cons_of_pos hs]
      dsimp only
      cases hv : walk cfg t g i (toString (ord + 1)) labels with
      | error e =>
        rw [hv] at hwalk
        have ho : overflows g t.size i = true := by
          by_contra ho
          simp [Except.toOption, ho] at hwalk
        simp [Except.toOption, ho]
      | ok labels' =>
        rw [hv] at hwalk
        have ho : overflows g t.size i = false ∧
            record labels (preorder cfg t g t.size i (toString (ord + 1))) = labels' := by
          cases ho : overflows g t.size i <;> simp_all [Except.toOption]
        dsimp only
        rw [hrest, ← ho.2, hsame]
        simp [ho.1, forest, List.zipIdx_cons, record_append]
    · rw [walkOrphans, hskip, Bool.eq_false_iff.mpr hs, Bool.not_false, if_pos rfl,
        List.filter_cons_of_neg hs, hrest]

theorem graph_children_lt (p : Nat) : ∀ c ∈ t.graph[p]?.getD [], c < t.size :=
  fun _ hc => (Store.Edge.lt_size hc).2

/-- A tree walked from `o` pushes no label onto a step without a parent other than `o`. -/
theorem record_preorder_getElem?_of_not_cited {o j d : Nat} (l : String)
    (ls : Array Labelling) (hj : j ≠ o) (hc : isCited t.graph j = false) :
    (record ls (preorder cfg t t.graph d o l))[j]? = ls[j]? := by
  have hnone : (preorder cfg t t.graph d o l).filter (·.1 == j) = [] := by
    rw [List.filter_eq_nil_iff]
    rintro ⟨x, lx⟩ hx hxj
    have hxj : x = j := by simpa using hxj
    subst hxj
    obtain rfl | hp := mem_preorder hx
    · exact hj rfl
    · simp [isCited_iff.mpr hp] at hc
  rw [getElem?_record, hnone]
  simp

theorem startsTree_record_preorder {o j d : Nat} (l : String) (ls : Array Labelling) (hj : j ≠ o) :
    startsTree (isCited t.graph) (record ls (preorder cfg t t.graph d o l)) j =
      startsTree (isCited t.graph) ls j := by
  cases hc : isCited t.graph j
  · simp only [startsTree, record_preorder_getElem?_of_not_cited l ls hj hc]
  · simp [startsTree, hc]

theorem traversal_eq (d : Nat) :
    traversal cfg t d =
      forest cfg t t.graph d 1 (groundSteps t) ++
        forest cfg t t.graph d ((groundSteps t).length + 1) (orphanSteps t) := by
  simp [traversal, forest, rootSteps, List.zipIdx_append, Nat.add_comm]

theorem mem_roots_of_mem_zipIdx {roots : List Nat} {k : Nat} {r : Nat × Nat}
    (hr : r ∈ roots.zipIdx k) : r.1 ∈ roots := by
  rw [← List.zipIdx_map_fst k roots]
  exact List.mem_map_of_mem hr

/-- A step no step cites is emitted by a forest exactly when it is one of its roots. -/
theorem emitted_forest_iff_of_not_cited {d k i : Nat} {roots : List Nat}
    (hc : isCited t.graph i = false) :
    (∃ l, (i, l) ∈ forest cfg t t.graph d k roots) ↔ i ∈ roots := by
  simp only [forest, List.mem_flatMap]
  constructor
  · rintro ⟨l, r, hr, hi⟩
    obtain rfl | hp := mem_preorder hi
    · exact mem_roots_of_mem_zipIdx hr
    · simp [isCited_iff.mpr hp] at hc
  · intro hi
    rw [← List.zipIdx_map_fst k roots, List.mem_map] at hi
    obtain ⟨r, hr, rfl⟩ := hi
    exact ⟨_, r, hr, mem_preorder_self d r.1 _⟩

/-- The pass over the ground steps, the `k`-th of them walked with label `k`. -/
theorem groundPass_toOption {xs : List Nat} (hxs : xs = groundSteps t)
    {f : Array Labelling → Nat × Nat → Except NumberingError (Array Labelling)}
    (hf : ∀ p ls, f ls p = walk cfg t t.graph p.1 (toString (p.2 + 1)) ls)
    (start : Array Labelling) :
    (xs.zipIdx.foldlM f start).toOption =
      if (groundSteps t).any (overflows t.graph t.size) then none
      else some (record start (forest cfg t t.graph t.size 1 (groundSteps t))) := by
  rw [foldlM_toOption (fun p => overflows t.graph t.size p.1)
      (fun ls p => record ls (preorder cfg t t.graph t.size p.1 (toString (p.2 + 1)))) _ _
      (fun p _ ls => by rw [hf]; exact walk_toOption graph_children_lt _ _ ls),
    foldl_record, hxs]
  have hany : (groundSteps t).zipIdx.any (fun p => overflows t.graph t.size p.1) =
      (groundSteps t).any (overflows t.graph t.size) := by
    have h := congrArg (fun l => l.any (overflows t.graph t.size)) (List.zipIdx_map_fst 0 (groundSteps t))
    simp only [List.any_map, Function.comp_def] at h
    exact h
  rw [hany, forest, List.zipIdx_succ, List.flatMap_map]

/-- The labels of step `i` after recording a list of emitted labels from no label. -/
theorem record_start_getElem? {n : Nat} (ps : List (Nat × String)) {i : Nat} (hi : i < n) :
    (record (Array.replicate n .empty) ps)[i]? =
      some (.labels ((ps.filter (·.1 == i)).map (·.2)).eraseDups) :=
  record_empty_getElem? n ps hi

theorem labels_isEmpty_iff (ps : List (Nat × String)) (i : Nat) :
    ((ps.filter (·.1 == i)).map (·.2)).eraseDups.isEmpty = true ↔ ¬ ∃ l, (i, l) ∈ ps := by
  rw [List.isEmpty_iff, List.eq_nil_iff_forall_not_mem]
  constructor
  · rintro h ⟨l, hl⟩
    exact h l (List.mem_eraseDups.mpr (List.mem_map.mpr ⟨(i, l), List.mem_filter.mpr ⟨hl, by simp⟩, rfl⟩))
  · intro h l hl
    simp only [List.mem_eraseDups, List.mem_map, List.mem_filter, beq_iff_eq] at hl
    obtain ⟨⟨i', l'⟩, ⟨hp, rfl⟩, rfl⟩ := hl
    exact h ⟨_, hp⟩

/-- After the ground pass, the orphan pass starts a tree exactly at the orphan steps. -/
theorem startsTree_groundPass {i : Nat} (hi : i < t.size) :
    startsTree (isCited t.graph) (record (Array.replicate t.size .empty)
        (forest cfg t t.graph t.size 1 (groundSteps t))) i = (!isGroundAt t i && !isCited t.graph i) := by
  cases hc : isCited t.graph i
  · have hg : i ∈ groundSteps t ↔ isGroundAt t i = true := by simp [groundSteps, hi]
    have he : ((((forest cfg t t.graph t.size 1 (groundSteps t)).filter (·.1 == i)).map (·.2)).eraseDups.isEmpty) =
        !isGroundAt t i := by
      rw [Bool.eq_iff_iff, labels_isEmpty_iff, emitted_forest_iff_of_not_cited hc, hg]
      simp
    rw [startsTree, record_start_getElem? _ hi]
    simp only [Option.map_some, Option.getD_some, Labelling.toList, he, hc, Bool.not_false,
      Bool.and_true]
  · simp [startsTree, hc]

theorem filter_startsTree_groundPass :
    (List.range t.size).filter (startsTree (isCited t.graph)
        (record (Array.replicate t.size .empty) (forest cfg t t.graph t.size 1 (groundSteps t)))) =
      orphanSteps t := by
  apply List.filter_congr
  intro i hi
  exact startsTree_groundPass (List.mem_range.mp hi)

/-- The store numbering produces: every step relabelled with its traversal labels. -/
def numbered (cfg : Config) (t : Store) : Store :=
  ⟨t.steps.mapIdx fun i s => { s with labelling := .labels (pathLabels cfg t t.size i) }⟩

/-- The report numbering produces. -/
def numberReport (cfg : Config) (t : Store) : Report :=
  ⟨(groundSteps t).length,
    ((List.range t.size).map fun i => (pathLabels cfg t t.size i).length).sum, orphanSteps t⟩

theorem record_traversal_getElem? (d : Nat) {i : Nat} (hi : i < t.size) :
    (record (Array.replicate t.size .empty) (traversal cfg t d))[i]? =
      some (.labels (pathLabels cfg t d i)) :=
  record_start_getElem? _ hi

theorem record_traversal_toList (d : Nat) :
    (record (Array.replicate t.size .empty) (traversal cfg t d)).toList =
      (List.range t.size).map fun i => .labels (pathLabels cfg t d i) := by
  apply List.ext_getElem?
  intro i
  rw [Array.getElem?_toList, List.getElem?_map]
  by_cases hi : i < t.size
  · rw [record_traversal_getElem? d hi, List.getElem?_range hi]
    rfl
  · rw [Array.getElem?_eq_none_iff.mpr (by simp; omega), List.getElem?_eq_none (by simp; omega)]
    rfl

/-- Each step keeps its fields and takes the labels the traversal records for it. -/
theorem relabel_traversal :
    (⟨t.steps.zipIdx.map fun (s, i) => { s with
        labelling := (record (Array.replicate t.size .empty) (traversal cfg t t.size))[i]?.getD .empty }⟩ :
      Store) = numbered cfg t := by
  simp only [numbered, Store.mk.injEq]
  apply Array.ext_getElem?
  intro j
  rw [Array.getElem?_mapIdx, Array.getElem?_map, Array.getElem?_zipIdx]
  cases hj : t.steps[j]? with
  | none => rfl
  | some s =>
    have hjs : j < t.size := (Array.getElem?_eq_some_iff.mp hj).1
    simp [record_traversal_getElem? t.size hjs]

/-- Numbering fails exactly when a walk from a root overflows or a step is left without a
label; otherwise it relabels every step with its traversal labels. -/
theorem number_toOption (cfg : Config) (t : Store) :
    (number cfg t).2.toOption =
      if (rootSteps t).any (overflows t.graph t.size) ||
          (List.range t.size).any (fun i => (pathLabels cfg t t.size i).isEmpty) then none
      else some (numbered cfg t, numberReport cfg t) := by
  unfold number
  dsimp only
  rw [show (List.range t.size).filter (fun i => ((t.step? i).map (·.isGround)).getD false) =
      groundSteps t from rfl,
    show (fun i => t.graph.toList.flatten.contains i) = isCited t.graph from rfl]
  have hpass := @groundPass_toOption cfg t _ rfl _ (fun _ _ => rfl)
    (Array.replicate t.size .empty)
  split
  · rename_i e he
    rw [he] at hpass
    have hg : (groundSteps t).any (overflows t.graph t.size) = true := by
      by_contra hg
      simp [hg, Except.toOption] at hpass
    simp [rootSteps, hg, Except.toOption]
  · rename_i labels1 hl
    rw [hl] at hpass
    have hg : (groundSteps t).any (overflows t.graph t.size) = false ∧
        record (Array.replicate t.size .empty) (forest cfg t t.graph t.size 1 (groundSteps t)) = labels1 := by
      cases hg : (groundSteps t).any (overflows t.graph t.size) <;> simp_all [Except.toOption]
    have hw := @walkOrphans_toOption cfg t t.graph graph_children_lt (isCited t.graph) (List.range t.size)
      List.nodup_range (fun o _ j _ hj l ls => startsTree_record_preorder l ls hj)
      (groundSteps t).length labels1 []
    obtain ⟨hgo, rfl⟩ := hg
    rw [filter_startsTree_groundPass, ← record_append, ← traversal_eq] at hw
    cases ho : (orphanSteps t).any (overflows t.graph t.size)
    · rw [ho, if_neg (by simp), toOption_eq_some_iff] at hw
      have hroots : (rootSteps t).any (overflows t.graph t.size) = false := by
        simp [rootSteps, hgo, ho]
      have hnone : List.findIdx? (fun x => x.toList.isEmpty)
          ((List.range t.size).map fun i => Labelling.labels (pathLabels cfg t t.size i)) = none ↔
          (List.range t.size).any (fun i => (pathLabels cfg t t.size i).isEmpty) = false := by
        simp [List.findIdx?_eq_none_iff, Labelling.toList]
      rw [hw]
      simp only [bind, Except.bind, record_traversal_toList, hroots, Bool.false_or]
      cases hall : (List.range t.size).any (fun i => (pathLabels cfg t t.size i).isEmpty)
      · rw [hnone.mpr hall, if_neg (by simp)]
        simp only [pure, Except.pure, Except.toOption, Option.some.injEq, Prod.mk.injEq]
        exact ⟨relabel_traversal,
          by simp [numberReport, List.sum_eq_foldl_nat, Labelling.toList, Function.comp_def]⟩
      · have hsome : List.findIdx? (fun x => x.toList.isEmpty)
            ((List.range t.size).map fun i => Labelling.labels (pathLabels cfg t t.size i)) ≠ none :=
          fun h => by simp [hnone.mp h] at hall
        obtain ⟨i, hi⟩ := Option.ne_none_iff_exists'.mp hsome
        rw [hi]
        simp [throw, throwThe, MonadExceptOf.throw, Except.toOption]
    · rw [ho, if_pos rfl, toOption_eq_none_iff] at hw
      obtain ⟨err, hw⟩ := hw
      rw [hw]
      simp [rootSteps, ho, Except.toOption, bind, Except.bind]

/-- When no walk from a root overflows, the traversal is the same at every greater depth: it
is the whole recursive traversal. -/
theorem traversal_of_not_overflows (h : (rootSteps t).any (overflows t.graph t.size) = false)
    {d : Nat} (hd : t.size ≤ d) : traversal cfg t d = traversal cfg t t.size := by
  unfold traversal forest
  apply List.flatMap_congr
  intro r hr
  simp only [List.any_eq_false, Bool.not_eq_true] at h
  exact preorder_of_not_overflows (h r.1 (mem_roots_of_mem_zipIdx hr)) hd

/-- Numbering meets its label specification: a successful run changes only the labels, and
gives every step the labels the recursive pre-order traversal from the roots emits for it,
first occurrences kept, at any depth from the number of steps on. The report counts the
ground roots, lists the other roots and counts every label. -/
theorem number_eq_traversal {cfg : Config} {t t' : Store} {rep : Report}
    (h : (number cfg t).2 = .ok (t', rep)) (d : Nat) (hd : t.size ≤ d) :
    (∀ i, t'.step? i = (t.step? i).map fun s => { s with labelling := .labels (pathLabels cfg t d i) }) ∧
    rep.roots = (groundSteps t).length ∧ rep.unreachable = orphanSteps t ∧
    rep.labels = ((List.range t.size).map fun i => (pathLabels cfg t d i).length).sum := by
  have hopt := number_toOption cfg t
  rw [h] at hopt
  have hcond : (rootSteps t).any (overflows t.graph t.size) = false ∧
      (t', rep) = (numbered cfg t, numberReport cfg t) := by
    cases hc : (rootSteps t).any (overflows t.graph t.size) <;> simp_all [Except.toOption]
  obtain ⟨hroots, ht⟩ := hcond
  obtain ⟨rfl, rfl⟩ := Prod.mk.inj ht
  have hlabels : ∀ i, pathLabels cfg t d i = pathLabels cfg t t.size i := fun i => by
    rw [pathLabels, pathLabels, traversal_of_not_overflows hroots hd]
  refine ⟨fun i => ?_, rfl, rfl, by simp [numberReport, hlabels]⟩
  simp [numbered, Store.step?, hlabels]

/-- Two input facts joined by one rule: the joined fact is reached along two paths. -/
def twoPaths : Store :=
  ⟨#[{ name := "p(a)", pattern := ⟨[1]⟩ }, { name := "r(a)", pattern := ⟨[1]⟩ },
    { name := "q(a)", pattern := ⟨[1]⟩, provenance := ⟨["p(a)", "r(a)"]⟩,
      rule := "q(X) :- p(X), r(X)." }]⟩

theorem number_twoPaths :
    (number {} twoPaths).2 = .ok (numbered {} twoPaths, numberReport {} twoPaths) := by
  rw [← toOption_eq_some_iff, number_toOption, if_neg (by decide)]

theorem number_eq_traversal_twoPaths :
    (number {} twoPaths).2 = .ok (numbered {} twoPaths, numberReport {} twoPaths) ∧
      twoPaths.size ≤ 3 ∧
      ((∀ i, (numbered {} twoPaths).step? i = (twoPaths.step? i).map fun s =>
          { s with labelling := .labels (pathLabels {} twoPaths 3 i) }) ∧
        (numberReport {} twoPaths).roots = (groundSteps twoPaths).length ∧
        (numberReport {} twoPaths).unreachable = orphanSteps twoPaths ∧
        (numberReport {} twoPaths).labels =
          ((List.range twoPaths.size).map fun i => (pathLabels {} twoPaths 3 i).length).sum) :=
  ⟨number_twoPaths, by decide, number_eq_traversal number_twoPaths 3 (by decide)⟩

end ChaseProse.Numbering
