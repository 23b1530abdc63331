import ChaseProse.Numbering
import ChaseProse.Proofs.Graph
import ChaseProse.Proofs.Basic
import Mathlib
/-! The numbering walk is a recursion (`walk_eq_visit`), and it pushes the labels a pre-order
traversal emits unless it meets a step with children when no depth is left (`visit_toOption`). -/
namespace ChaseProse.Numbering
open ChaseProse.Chase

variable {cfg : Config} {t : Store} {g : Array (List Nat)}

/-- The walk as a recursion: labels `node` with `label` and then its descendants, depth first in
pre-order. The fuel is the depth still allowed: a node with children when none is left lies on a
cycle. -/
def visit (cfg : Config) (t : Store) (g : Array (List Nat)) :
    Nat → Nat → String → Array Labelling → Except NumberingError (Array Labelling)
  | 0, node, label, labels =>
    match g[node]?.getD [] with
    | c :: _ => .error (.cycle c (nameAt t c))
    | [] => .ok (labels.modify node (·.push label))
  | fuel + 1, node, label, labels =>
    (childLabels cfg t label (g[node]?.getD [])).foldlM
      (fun labels (c, l) => visit cfg t g fuel c l labels) (labels.modify node (·.push label))

/-- A frame on top of the stack runs as the recursion from its step, with the depth left as fuel,
and then the rest of the stack. -/
theorem walkLoop_cons (k : Nat) (f : Frame) (stack : List Frame) (labels : Array Labelling)
    (hk : t.size - f.depth = k) :
    walkLoop cfg t g (f :: stack) labels =
      visit cfg t g k f.node f.label labels >>= walkLoop cfg t g stack := by
  -- induction on the depth left; the frames of the children sit one level lower
  induction k generalizing f stack labels with
  | zero =>
    have hle : t.size ≤ f.depth := by omega
    rw [walkLoop]
    cases hcs : g[f.node]?.getD [] with
    | nil => simp [visit, hcs]
    | cons c cs => simp [visit, hcs, hle]
  | succ k ih =>
    have hlt : ¬t.size ≤ f.depth := by omega
    -- the children's frames run one after the other, each as the recursion from its child
    have hframes : ∀ (ps : List (Nat × String)) (ls : Array Labelling),
        walkLoop cfg t g (childFrames f.depth ps ++ stack) ls =
          ps.foldlM (fun ls (c, l) => visit cfg t g k c l ls) ls >>= walkLoop cfg t g stack := by
      intro ps
      induction ps with
      | nil => simp [childFrames]
      | cons p ps ihp =>
        intro ls
        rw [childFrames, List.map_cons, List.cons_append, ← childFrames,
          ih _ _ _ (by simp only; omega), List.foldlM_cons, bind_assoc]
        congr 1
        funext ls'
        exact ihp ls'
    rw [walkLoop, visit]
    cases hcs : g[f.node]?.getD [] with
    | nil => simp [childLabels]
    | cons c cs =>
      dsimp only
      rw [if_neg hlt, hframes]

/-- The stack loop from a root is the recursion with the whole depth as fuel. -/
theorem walk_eq_visit (root : Nat) (label : String) (labels : Array Labelling) :
    walk cfg t g root label labels = visit cfg t g t.size root label labels := by
  rw [walk, walkLoop_cons t.size _ _ _ (Nat.sub_zero _)]
  cases visit cfg t g t.size root label labels <;> simp [walkLoop]

/-- A child with a rule whose name marks a temporary or join fact, counted by `.Tj`. -/
def isTempChild (cfg : Config) (t : Store) (c : Nat) : Bool :=
  ((t.step? c).map fun s => s.hasRule && cfg.isPlaceholder s.name).getD false

/-- A child with a rule that is no placeholder, counted by `.k`. -/
def isDerivedChild (cfg : Config) (t : Store) (c : Nat) : Bool :=
  ((t.step? c).map fun s => s.hasRule && !cfg.isPlaceholder s.name).getD false

/-- The label of child `c` of a parent labelled `label`, whose children before `c` are
`earlier`. -/
def labelOfChild (cfg : Config) (t : Store) (label : String) (earlier : List Nat) (c : Nat) :
    String :=
  if isTempChild cfg t c then label ++ ".T" ++ toString (earlier.countP (isTempChild cfg t) + 1)
  else if isDerivedChild cfg t c then
    label ++ "." ++ toString (earlier.countP (isDerivedChild cfg t) + 1)
  else label

/-- The children `cs` of a parent labelled `label`, each with its label. -/
def labelledChildren (cfg : Config) (t : Store) (label : String) (cs : List Nat) :
    List (Nat × String) :=
  cs.mapIdx fun k c => (c, labelOfChild cfg t label (cs.take k) c)

@[simp] theorem map_fst_labelledChildren (cfg : Config) (t : Store) (label : String)
    (cs : List Nat) :
    (labelledChildren cfg t label cs).map Prod.fst = cs := by
  apply List.ext_getElem?
  intro i
  cases h : cs[i]? <;> simp [labelledChildren, h]

theorem childStep_of_step {label : String} {c : Nat} {s : Step} (hs : t.step? c = some s)
    (pre : List Nat) (out : List (Nat × String)) :
    childStep cfg t label (out, pre.countP (isDerivedChild cfg t), pre.countP (isTempChild cfg t)) c =
      (out ++ [(c, labelOfChild cfg t label pre c)], (pre ++ [c]).countP (isDerivedChild cfg t),
        (pre ++ [c]).countP (isTempChild cfg t)) := by
  by_cases hr : s.hasRule <;> by_cases hp : cfg.isPlaceholder s.name <;>
    simp [childStep, labelOfChild, isTempChild, isDerivedChild, hs, hr, hp]

/-- The label pass with its two counters computes each child's label from the children before
it. -/
theorem foldl_childStep (label : String) (cs pre : List Nat) (out : List (Nat × String))
    (hcs : ∀ c ∈ cs, c < t.size) :
    cs.foldl (childStep cfg t label)
        (out, pre.countP (isDerivedChild cfg t), pre.countP (isTempChild cfg t)) =
      (out ++ cs.mapIdx fun k c => (c, labelOfChild cfg t label (pre ++ cs.take k) c),
        (pre ++ cs).countP (isDerivedChild cfg t), (pre ++ cs).countP (isTempChild cfg t)) := by
  induction cs generalizing pre out with
  | nil => simp
  | cons c cs ih =>
    have hc : (t.step? c).isSome := by simpa [Store.step?, Store.size] using hcs c (by simp)
    obtain ⟨s, hs⟩ := Option.isSome_iff_exists.mp hc
    rw [List.foldl_cons, childStep_of_step hs, ih _ _ (fun c h => hcs c (by simp [h]))]
    simp [List.mapIdx_cons, List.take_succ_cons]

theorem childLabels_eq (label : String) {cs : List Nat} (hcs : ∀ c ∈ cs, c < t.size) :
    childLabels cfg t label cs = labelledChildren cfg t label cs := by
  simpa [childLabels, labelledChildren] using congrArg Prod.fst (foldl_childStep label cs [] [] hcs)

/-- The labels a recursive pre-order traversal emits from `node` labelled `label`: the node
first, then the subtree of each child in the graph's order. `d` bounds the depth. -/
def preorder (cfg : Config) (t : Store) (g : Array (List Nat)) :
    Nat → Nat → String → List (Nat × String)
  | 0, node, label => [(node, label)]
  | d + 1, node, label =>
    (node, label) :: (labelledChildren cfg t label (g[node]?.getD [])).flatMap
      fun p => preorder cfg t g d p.1 p.2

/-- Whether the walk from `node` with `d` levels left meets a step with children when none is
left: the depth check of the walk. -/
def overflows (g : Array (List Nat)) : Nat → Nat → Bool
  | 0, node => !(g[node]?.getD []).isEmpty
  | d + 1, node => (g[node]?.getD []).any (overflows g d)

/-- Pushes each emitted label onto its step's labels, in order. -/
def record (labels : Array Labelling) (ps : List (Nat × String)) : Array Labelling :=
  ps.foldl (fun ls p => ls.modify p.1 (·.push p.2)) labels

@[simp] theorem record_nil (labels : Array Labelling) : record labels [] = labels := rfl

theorem record_cons (labels : Array Labelling) (p : Nat × String) (ps : List (Nat × String)) :
    record labels (p :: ps) = record (labels.modify p.1 (·.push p.2)) ps := rfl

theorem record_append (labels : Array Labelling) (ps qs : List (Nat × String)) :
    record labels (ps ++ qs) = record (record labels ps) qs := by
  simp [record, List.foldl_append]

theorem foldl_record {α : Type} (f : α → List (Nat × String)) (xs : List α)
    (labels : Array Labelling) :
    xs.foldl (fun ls x => record ls (f x)) labels = record labels (xs.flatMap f) := by
  induction xs generalizing labels with
  | nil => rfl
  | cons x xs ih => rw [List.foldl_cons, ih, List.flatMap_cons, record_append]

@[simp] theorem size_record (labels : Array Labelling) (ps : List (Nat × String)) :
    (record labels ps).size = labels.size := by
  induction ps generalizing labels with
  | nil => rfl
  | cons p ps ih => rw [record_cons, ih, Array.size_modify]

/-- The labels of one step after recording: its earlier labels, then those emitted for it. -/
theorem getElem?_record (labels : Array Labelling) (ps : List (Nat × String)) (j : Nat) :
    (record labels ps)[j]? =
      labels[j]?.map fun n => ((ps.filter (·.1 == j)).map (·.2)).foldl Labelling.push n := by
  induction ps generalizing labels with
  | nil => simp
  | cons p ps ih =>
    rw [record_cons, ih, Array.getElem?_modify]
    by_cases hj : p.1 = j
    · simp [hj, Option.map_map, Function.comp_def]
    · simp [hj]

/-- Pushing a label appends it unless present. -/
theorem foldl_push_labels_eq (ls acc : List String) :
    ls.foldl Labelling.push (.labels acc) =
      .labels (ls.foldl (fun acc e => if acc.contains e then acc else acc ++ [e]) acc) := by
  induction ls generalizing acc with
  | nil => rfl
  | cons l ls ih =>
    rw [List.foldl_cons, List.foldl_cons, Labelling.push]
    split <;> exact ih _

/-- Pushing labels one by one keeps the first occurrence of each. -/
theorem foldl_push_labels (as ls : List String) :
    ls.foldl Labelling.push (.labels as.eraseDups) = .labels (as ++ ls).eraseDups := by
  rw [foldl_push_labels_eq, foldl_appendNew]

/-- The labels of one step after recording from no label: the labels emitted for it, first
occurrences kept. -/
theorem record_empty_getElem? (n : Nat) (ps : List (Nat × String)) {j : Nat} (hj : j < n) :
    (record (Array.replicate n .empty) ps)[j]? =
      some (.labels ((ps.filter (·.1 == j)).map (·.2)).eraseDups) := by
  rw [getElem?_record, Array.getElem?_replicate, if_pos hj, Option.map_some]
  simpa [Labelling.empty] using foldl_push_labels [] ((ps.filter (·.1 == j)).map (·.2))

theorem any_labelledChildren (p : Nat → Bool) (label : String) (cs : List Nat) :
    (labelledChildren cfg t label cs).any (fun q => p q.1) = cs.any p := by
  have h := congrArg (fun l => l.any p) (map_fst_labelledChildren cfg t label cs)
  simp only [List.any_map, Function.comp_def] at h
  exact h

theorem fst_mem_of_mem_labelledChildren {label : String} {cs : List Nat} {q : Nat × String}
    (hq : q ∈ labelledChildren cfg t label cs) : q.1 ∈ cs := by
  rw [← map_fst_labelledChildren cfg t label cs]
  exact List.mem_map_of_mem hq

theorem exists_mem_labelledChildren (cfg : Config) (t : Store) (label : String) {cs : List Nat}
    {c : Nat} (hc : c ∈ cs) :
    ∃ l, (c, l) ∈ labelledChildren cfg t label cs := by
  rw [← map_fst_labelledChildren cfg t label cs, List.mem_map] at hc
  obtain ⟨⟨c', l⟩, hq, rfl⟩ := hc
  exact ⟨l, hq⟩

/-- The walk pushes the labels the reference emits, unless it overflows, and then it fails. -/
theorem visit_toOption (hg : ∀ p : Nat, ∀ c ∈ g[p]?.getD [], c < t.size) (d node : Nat)
    (label : String) (labels : Array Labelling) :
    (visit cfg t g d node label labels).toOption =
      if overflows g d node then none else some (record labels (preorder cfg t g d node label)) := by
  induction d generalizing node label labels with
  | zero =>
    cases hcs : g[node]?.getD [] with
    | nil => simp [visit, overflows, preorder, hcs, record, Except.toOption]
    | cons c cs => simp [visit, overflows, hcs, Except.toOption]
  | succ d ih =>
    rw [visit, childLabels_eq label (hg node),
      foldlM_toOption (fun q => overflows g d q.1)
        (fun ls q => record ls (preorder cfg t g d q.1 q.2)) _ _ (fun q _ ls => ih q.1 q.2 ls),
      any_labelledChildren, foldl_record]
    rfl

/-- The walk from a root pushes the labels the reference emits to the whole depth, unless it
overflows, and then it fails. -/
theorem walk_toOption (hg : ∀ p : Nat, ∀ c ∈ g[p]?.getD [], c < t.size) (node : Nat)
    (label : String) (labels : Array Labelling) :
    (walk cfg t g node label labels).toOption =
      if overflows g t.size node then none
      else some (record labels (preorder cfg t g t.size node label)) := by
  rw [walk_eq_visit]
  exact visit_toOption hg t.size node label labels

/-- A walk that does not overflow at depth `d` emits the same at any greater depth. -/
theorem preorder_of_not_overflows {d d' node : Nat} {label : String}
    (h : overflows g d node = false) (hd : d ≤ d') :
    preorder cfg t g d' node label = preorder cfg t g d node label := by
  induction d generalizing d' node label with
  | zero =>
    have hcs : g[node]?.getD [] = [] := by simpa [overflows] using h
    cases d' with
    | zero => rfl
    | succ d' => simp [preorder, hcs, labelledChildren]
  | succ d ih =>
    obtain ⟨d', rfl⟩ : ∃ e, d' = e + 1 := ⟨d' - 1, by omega⟩
    simp only [preorder]
    congr 1
    apply List.flatMap_congr
    intro q hq
    have hc : overflows g d q.1 = false := by
      simp only [overflows, List.any_eq_false] at h
      simpa using h _ (fst_mem_of_mem_labelledChildren hq)
    exact ih hc (by omega)

theorem mem_preorder_self (d node : Nat) (label : String) :
    (node, label) ∈ preorder cfg t g d node label := by
  cases d <;> simp [preorder]

/-- The reference emits its root and, besides it, only steps with a parent. -/
theorem mem_preorder {d node j : Nat} {label l : String}
    (h : (j, l) ∈ preorder cfg t g d node label) : j = node ∨ ∃ p : Nat, j ∈ g[p]?.getD [] := by
  induction d generalizing node label with
  | zero => simp_all [preorder]
  | succ d ih =>
    simp only [preorder, List.mem_cons, Prod.mk.injEq, List.mem_flatMap] at h
    obtain ⟨rfl, -⟩ | ⟨q, hq, hj⟩ := h
    · exact .inl rfl
    · obtain rfl | hp := ih hj
      · exact .inr ⟨node, fst_mem_of_mem_labelledChildren hq⟩
      · exact .inr hp

/-- In a walk that does not overflow, every child of an emitted step is emitted too. -/
theorem child_mem_preorder {d r p c : Nat} {lr lp : String} (h : overflows g d r = false)
    (hp : (p, lp) ∈ preorder cfg t g d r lr) (hc : c ∈ g[p]?.getD []) :
    ∃ l, (c, l) ∈ preorder cfg t g d r lr := by
  induction d generalizing r lr with
  | zero =>
    simp only [preorder, List.mem_singleton, Prod.mk.injEq] at hp
    obtain ⟨rfl, -⟩ := hp
    simp_all [overflows]
  | succ d ih =>
    simp only [overflows, List.any_eq_false, Bool.not_eq_true] at h
    simp only [preorder, List.mem_cons, Prod.mk.injEq, List.mem_flatMap] at hp ⊢
    obtain ⟨rfl, -⟩ | ⟨q, hq, hpq⟩ := hp
    · obtain ⟨l, hl⟩ := exists_mem_labelledChildren cfg t lr hc
      exact ⟨l, .inr ⟨(c, l), hl, mem_preorder_self d c l⟩⟩
    · obtain ⟨l, hl⟩ := ih (h _ (fst_mem_of_mem_labelledChildren hq)) hpq
      exact ⟨l, .inr ⟨q, hq, hl⟩⟩

end ChaseProse.Numbering
