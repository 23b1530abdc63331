import ChaseProse.Chase.Step
/-! A checked trace: every step names a fact whose arity matches its pattern. Steps are known
by their index; a fact may be carried by several steps. The derivation graph links a step to
the later or earlier steps that cite its fact. -/
namespace ChaseProse.Chase

structure Store where
  steps : Array Step
  deriving Inhabited

namespace Store

/-- The first step whose fact does not parse or whose arity differs from its pattern's. -/
def check (steps : List Step) : Except ChaseError Unit :=
  steps.zipIdx.forM fun (s, i) => do
    let f ← s.fact
    if f.arity != s.pattern.arity then
      throw (.arityMismatch i s.name f.arity s.pattern.arity)

def ofSteps (steps : List Step) : Except ChaseError Store := do
  check steps
  return ⟨steps.toArray⟩

def size (t : Store) : Nat := t.steps.size

def step? (t : Store) (i : Nat) : Option Step := t.steps[i]?

/-- Indices of the steps carrying `name`, ascending. -/
def indicesOf (t : Store) (name : String) : List Nat :=
  (t.steps.toList.zipIdx.filter (·.1.name == name)).map (·.2)

def firstNamed? (t : Store) (name : String) : Option Step :=
  t.steps.toList.find? (·.name == name)

/-- Whether some provenance entry of step `c` is the fact of step `p`, for `c ≠ p`. -/
def cites (t : Store) (c p : Nat) : Bool :=
  c != p &&
    match t.step? c, t.step? p with
    | some sc, some sp => sc.provenance.entries.contains sp.name
    | _, _ => false

/-- The children of `p`: the steps citing its fact, ascending, without repeats. -/
def children (t : Store) (p : Nat) : List Nat :=
  (List.range t.size).filter fun c => t.cites c p

/-- The child lists of every step. -/
def graph (t : Store) : Array (List Nat) :=
  let link (acc : Array (List Nat)) (c p : Nat) : Array (List Nat) :=
    if p == c then acc else acc.modify p fun l => if l.contains c then l else l ++ [c]
  t.steps.toList.zipIdx.foldl
    (fun acc (s, c) =>
      s.provenance.entries.foldl (fun acc e => (t.indicesOf e).foldl (fun acc p => link acc c p) acc)
        acc)
    (Array.replicate t.size [])

end Store

end ChaseProse.Chase
