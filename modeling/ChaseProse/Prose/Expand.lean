import ChaseProse.Prose.Bindings
import ChaseProse.Prose.Dictionary
import ChaseProse.Chase.Store
import ChaseProse.Config
/-! Expanding a provenance: an entry without a template that some step derives is replaced by that
step's provenance, one level per round, each entry at most once. -/
namespace ChaseProse.Prose
open ChaseProse.Chase

inductive BodyEntry where
  | fact (g : Grounded)
  | absence
  | undescribed (text : String)
  deriving DecidableEq, Repr

structure Expansion where
  entries : List BodyEntry
  /-- The facts replaced by their provenance, in the order they were expanded. -/
  intermediates : List Grounded

/-- The step an entry expands into: a fact without a template whose first step has a
non-empty provenance. -/
def expandable? (d : Dictionary) (t : Store) (e : String) : Option (Fact × Step) := do
  let f ← (Fact.parse e).toOption
  if (d.lookup? f.predicate f.arity).isSome then none
  let s ← t.firstNamed? e
  if s.provenance.isEmpty then none
  return (f, s)

/-- One round: absence markers stay, entries expanded before drop out, expandable entries
give way to their step's provenance. -/
def expandRound (cfg : Config) (d : Dictionary) (t : Store) :
    List String → List String → List Grounded → List String × List String × List Grounded × Bool
  | [], done, inter => ([], done, inter, false)
  | e :: rest, done, inter =>
    if cfg.isAbsenceMarker e then
      let (next, done, inter, changed) := expandRound cfg d t rest done inter
      (e :: next, done, inter, changed)
    else if done.contains e then expandRound cfg d t rest done inter
    else
      match expandable? d t e with
      | some (f, s) =>
        let (next, done, inter, _) :=
          expandRound cfg d t rest (done ++ [e]) (inter ++ [⟨f, s.pattern⟩])
        (s.provenance.entries ++ next, done, inter, true)
      | none =>
        let (next, done, inter, changed) := expandRound cfg d t rest done inter
        (e :: next, done, inter, changed)

/-- Rounds until nothing changes; each changing round expands a new step name, so the number
of steps bounds the rounds. -/
def expandRounds (cfg : Config) (d : Dictionary) (t : Store) :
    Nat → List String → List String → List Grounded → List String × List Grounded
  | 0, cur, _, inter => (cur, inter)
  | fuel + 1, cur, done, inter =>
    let (next, done, inter, changed) := expandRound cfg d t cur done inter
    if changed then expandRounds cfg d t fuel next done inter else (next, inter)

/-- The pattern of the first step carrying the entry, or constants. -/
def patternOf (t : Store) (e : String) (f : Fact) : Pattern :=
  ((t.firstNamed? e).map (·.pattern)).getD (Pattern.constants f.arity)

def classify (cfg : Config) (d : Dictionary) (t : Store) :
    List String → List String → List BodyEntry
  | [], _ => []
  | e :: rest, seen =>
    if cfg.isAbsenceMarker e then .absence :: classify cfg d t rest seen
    else if seen.contains e then classify cfg d t rest seen
    else
      let entry := match Fact.parse e with
        | .ok f =>
          if (d.lookup? f.predicate f.arity).isSome then BodyEntry.fact ⟨f, patternOf t e f⟩
          else .undescribed e
        | .error _ => .undescribed e
      entry :: classify cfg d t rest (seen ++ [e])

/-- The expansion of a provenance: its distinct entries as facts with a template or as
undescribed text, absence markers in place, and the facts expanded on the way. -/
def expand (cfg : Config) (d : Dictionary) (t : Store) (p : Provenance) : Expansion :=
  let (cur, inter) := expandRounds cfg d t (t.size + 1) p.entries [] []
  ⟨classify cfg d t cur [], inter⟩

namespace Expansion

/-- The facts available to bind rule variables: described facts, parseable undescribed
entries as constants, then the intermediates. -/
def candidates (x : Expansion) : List Grounded :=
  x.entries.filterMap (fun
    | .fact g => some g
    | .undescribed e => (Fact.parse e).toOption.map fun f => ⟨f, Pattern.constants f.arity⟩
    | .absence => none) ++ x.intermediates

def undescribed (x : Expansion) : List String :=
  x.entries.filterMap fun | .undescribed e => some e | _ => none

end Expansion

end ChaseProse.Prose
