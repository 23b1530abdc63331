import ChaseProse.Chase.Store
import ChaseProse.Config
import ChaseProse.Notice
/-! Numbering: every step is labelled by its place in the derivation forest, `L.k` for a derived
child and `L.Tk` for a temporary one, walked with an explicit stack from each root. -/
namespace ChaseProse.Numbering
open ChaseProse.Chase

inductive NumberingError where
  | cycle (index : Nat) (name : String)
  deriving DecidableEq, Repr

def NumberingError.code : NumberingError → String
  | .cycle .. => "NUMBERING_CYCLE"

def NumberingError.message : NumberingError → String
  | .cycle i name => "derivation cycle through step " ++ toString i ++ " ('" ++ name ++ "')"

structure Report where
  roots : Nat
  labels : Nat
  unreachable : List Nat
  deriving DecidableEq, Repr

/-- One child of a parent labelled `label`: its label, after the labels so far and the counts of
derived and placeholder children so far. -/
def childStep (cfg : Config) (t : Store) (label : String) (acc : List (Nat × String) × Nat × Nat)
    (c : Nat) : List (Nat × String) × Nat × Nat :=
  let (out, derived, temps) := acc
  match t.step? c with
  | some s =>
    if !s.hasRule then (out ++ [(c, label)], derived, temps)
    else if cfg.isPlaceholder s.name then
      (out ++ [(c, label ++ ".T" ++ toString (temps + 1))], derived, temps + 1)
    else (out ++ [(c, label ++ "." ++ toString (derived + 1))], derived + 1, temps)
  | none => acc

/-- The labels of a parent's children, in order: derived children and placeholders are counted
apart, and a child without a rule keeps the parent's label. -/
def childLabels (cfg : Config) (t : Store) (label : String) (children : List Nat) :
    List (Nat × String) :=
  (children.foldl (childStep cfg t label) ([], 0, 0)).1

def nameAt (t : Store) (i : Nat) : String := ((t.step? i).map (·.name)).getD ""

theorem length_childStep_le (cfg : Config) (t : Store) (label : String)
    (acc : List (Nat × String) × Nat × Nat) (c : Nat) :
    (childStep cfg t label acc c).1.length ≤ acc.1.length + 1 := by
  obtain ⟨out, derived, temps⟩ := acc
  simp only [childStep]
  cases t.step? c with
  | none => simp
  | some s =>
    by_cases hr : s.hasRule <;> by_cases hp : cfg.isPlaceholder s.name <;> simp [hr, hp]

theorem length_childLabels_le (cfg : Config) (t : Store) (label : String) (cs : List Nat) :
    (childLabels cfg t label cs).length ≤ cs.length := by
  -- each child adds at most one label to those of the children before it
  suffices h : ∀ acc,
      (cs.foldl (childStep cfg t label) acc).1.length ≤ acc.1.length + cs.length by
    simpa [childLabels] using h ([], 0, 0)
  induction cs with
  | nil => simp
  | cons c cs ih =>
    intro acc
    have := ih (childStep cfg t label acc c)
    have := length_childStep_le cfg t label acc c
    simp only [List.foldl_cons, List.length_cons]
    omega

/-- A frame of the walk's stack: a step, the label it is to get, and its depth below the root. -/
structure Frame where
  node : Nat
  label : String
  depth : Nat

/-- The number of edges of the graph; no step has more children. -/
def edgeCount (g : Array (List Nat)) : Nat := (g.toList.map List.length).foldl (· + ·) 0

theorem length_children_le_edgeCount (g : Array (List Nat)) (n : Nat) :
    (g[n]?.getD []).length ≤ edgeCount g := by
  cases h : g[n]? with
  | none => simp
  | some cs =>
    have hmem : cs.length ∈ g.toList.map List.length :=
      List.mem_map_of_mem (Array.mem_toList_iff.mpr (Array.mem_of_getElem? h))
    obtain ⟨l₁, l₂, hl⟩ := List.append_of_mem hmem
    rw [Option.getD_some, edgeCount, ← List.sum_eq_foldl_nat, hl, List.sum_append_nat,
      List.sum_cons]
    omega

/-- The weight of a frame with `k` levels left below it: one more than `e` frames with a level
fewer, so it outweighs all the children it can push. -/
def frameWeight (e : Nat) : Nat → Nat
  | 0 => 1
  | k + 1 => e * frameWeight e k + 1

theorem frameWeight_pos (e k : Nat) : 0 < frameWeight e k := by
  cases k <;> simp [frameWeight]

/-- The measure of the walk's stack: the weights of its frames, `size - depth` levels left
below a frame at `depth`. -/
def stackWeight (g : Array (List Nat)) (size : Nat) : List Frame → Nat
  | [] => 0
  | f :: stack => frameWeight (edgeCount g) (size - f.depth) + stackWeight g size stack

theorem stackWeight_append (g : Array (List Nat)) (size : Nat) (xs ys : List Frame) :
    stackWeight g size (xs ++ ys) = stackWeight g size xs + stackWeight g size ys := by
  induction xs with
  | nil => simp [stackWeight]
  | cons f xs ih => simp [stackWeight, ih, Nat.add_assoc]

/-- The frames of the children of a step at depth `d`, the first child first. -/
def childFrames (d : Nat) (ps : List (Nat × String)) : List Frame :=
  ps.map fun p => ⟨p.1, p.2, d + 1⟩

theorem stackWeight_childFrames (g : Array (List Nat)) (size d : Nat) (ps : List (Nat × String)) :
    stackWeight g size (childFrames d ps) =
      ps.length * frameWeight (edgeCount g) (size - (d + 1)) := by
  induction ps with
  | nil => simp [childFrames, stackWeight]
  | cons p ps ih =>
    simp only [childFrames, List.map_cons, stackWeight] at ih ⊢
    rw [ih, List.length_cons, Nat.succ_mul, Nat.add_comm]

/-- Popping a frame lightens the stack by its weight. -/
theorem stackWeight_lt_cons (g : Array (List Nat)) (size : Nat) (f : Frame) (stack : List Frame) :
    stackWeight g size stack < stackWeight g size (f :: stack) := by
  have := frameWeight_pos (edgeCount g) (size - f.depth)
  simp only [stackWeight]
  omega

/-- Popping a frame above depth `size` and pushing its children lightens the stack. -/
theorem stackWeight_push_lt (cfg : Config) (t : Store) (g : Array (List Nat)) (f : Frame)
    (stack : List Frame) (hlt : f.depth < t.size) :
    stackWeight g t.size (childFrames f.depth (childLabels cfg t f.label (g[f.node]?.getD [])) ++
      stack) < stackWeight g t.size (f :: stack) := by
  obtain ⟨k, hk⟩ : ∃ k, t.size - f.depth = k + 1 := ⟨t.size - f.depth - 1, by omega⟩
  have hk' : t.size - (f.depth + 1) = k := by omega
  rw [stackWeight_append, stackWeight, stackWeight_childFrames, hk, hk', frameWeight]
  -- at most `edgeCount g` children, each with a level fewer than the frame
  have hlen := Nat.le_trans (length_childLabels_le cfg t f.label _)
    (length_children_le_edgeCount g f.node)
  have hle := Nat.mul_le_mul_right (frameWeight (edgeCount g) k) hlen
  exact Nat.add_lt_add_right (Nat.lt_succ_of_le hle) _

/-- Runs the walk's stack, its top first. The top frame's step gets its label, and its children
are pushed with their labels, the first child on top, so the steps are labelled depth first in
pre-order. A step with children at depth `size` or more lies on a cycle, reported at its first
child. -/
def walkLoop (cfg : Config) (t : Store) (g : Array (List Nat)) :
    List Frame → Array Labelling → Except NumberingError (Array Labelling)
  | [], labels => .ok labels
  | f :: stack, labels =>
    let children := g[f.node]?.getD []
    match children with
    | [] => walkLoop cfg t g stack (labels.modify f.node (·.push f.label))
    | c :: _ =>
      if t.size ≤ f.depth then .error (.cycle c (nameAt t c))
      else
        walkLoop cfg t g (childFrames f.depth (childLabels cfg t f.label children) ++ stack)
          (labels.modify f.node (·.push f.label))
termination_by stack => stackWeight g t.size stack
decreasing_by
  · exact stackWeight_lt_cons g t.size f stack
  · exact stackWeight_push_lt cfg t g f stack (Nat.lt_of_not_le (by assumption))

/-- Labels `root` with `label` and then its descendants: the stack loop from the root alone. -/
def walk (cfg : Config) (t : Store) (g : Array (List Nat)) (root : Nat) (label : String)
    (labels : Array Labelling) : Except NumberingError (Array Labelling) :=
  walkLoop cfg t g [⟨root, label, 0⟩] labels

/-- Walks from the extra roots: steps still unlabelled that no step cites, in order. Returns
the notices given so far even when a walk fails. -/
def walkOrphans (cfg : Config) (t : Store) (g : Array (List Nat)) (hasParent : Nat → Bool) :
    List Nat → Nat → Array Labelling → List Nat →
      List Notice × Except NumberingError (Array Labelling × List Nat)
  | [], _, labels, found => ([], .ok (labels, found))
  | i :: rest, ordinal, labels, found =>
    if !((labels[i]?.map (·.toList.isEmpty)).getD false) || hasParent i then
      walkOrphans cfg t g hasParent rest ordinal labels found
    else
      let label := toString (ordinal + 1)
      let notice := Notice.unreachable i label (nameAt t i)
      match walk cfg t g i label labels with
      | .error e => ([notice], .error e)
      | .ok labels =>
        let (ns, r) := walkOrphans cfg t g hasParent rest (ordinal + 1) labels (found ++ [i])
        (notice :: ns, r)

/-- Labels every step, replacing earlier labels; fails on a derivation cycle, reached from a
root or left unlabelled. -/
def number (cfg : Config) (t : Store) : List Notice × Except NumberingError (Store × Report) :=
  let g := t.graph
  let n := t.size
  let cited := g.toList.flatten
  let hasParent (i : Nat) : Bool := cited.contains i
  let grounds := (List.range n).filter fun i => ((t.step? i).map (·.isGround)).getD false
  let start : Array Labelling := Array.replicate n .empty
  let rooted := grounds.zipIdx.foldlM
    (fun labels (r, k) => walk cfg t g r (toString (k + 1)) labels) start
  match rooted with
  | .error e => ([], .error e)
  | .ok labels =>
    let (notices, r) := walkOrphans cfg t g hasParent (List.range n) grounds.length labels []
    (notices, do
      let (labels, unreachable) ← r
      match labels.toList.findIdx? (·.toList.isEmpty) with
      | some i => throw (.cycle i (nameAt t i))
      | none =>
        let steps := t.steps.zipIdx.map fun (s, i) =>
          { s with labelling := labels[i]?.getD .empty }
        return (⟨steps⟩, ⟨grounds.length, (labels.toList.map (·.toList.length)).foldl (· + ·) 0, unreachable⟩))

end ChaseProse.Numbering
