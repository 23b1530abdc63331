import ChaseProse.Aggregate.Contributors
import ChaseProse.Rule.Parser
import ChaseProse.Chase.Store
import ChaseProse.Config
/-! Repairing the provenance of running sums: a running `msum` step is widened with the provenance
of the earlier steps of its group, then narrowed to the facts that explain its sum. -/
namespace ChaseProse.Aggregate
open ChaseProse.Chase ChaseProse.Rule

/-- A running-sum step: its parsed rule, which has an `msum` definition, and its head fact. -/
structure SumStep where
  rule : Rule
  head : Fact

namespace SumStep

/-- Head positions that do not hold the sum's target. -/
def groupPositions (a : SumStep) : List Nat :=
  let target := (a.rule.sumAggregate?.map (·.target))
  (a.rule.head.terms.zipIdx.filter fun (t, _) => target.isNone || t.var? != target).map (·.2)

def sameGroup (a b : SumStep) : Bool :=
  a.rule.sumAggregate? == b.rule.sumAggregate? && a.head.predicate == b.head.predicate &&
    a.head.arity == b.head.arity && a.groupPositions.all fun p => a.head.arg? p == b.head.arg? p

end SumStep

/-- The running-sum step at a trace step: a rule mentioning `msum` that parses, has an `msum`
definition, on a fact that parses. A rule that does not parse is reported. -/
def sumStep (i : Nat) (s : Step) : Option Notice × Option SumStep :=
  if !s.hasRule || !Text.containsText s.rule "msum" then (none, none)
  else
    match Rule.parse s.rule with
    | .error e => (some (.ruleUnparsed i e), none)
    | .ok rule =>
      match rule.sumAggregate?, s.fact with
      | some _, .ok head => (none, some ⟨rule, head⟩)
      | _, _ => (none, none)

structure Report where
  aggregates : Nat := 0
  exactSingle : Nat := 0
  pair : Nat := 0
  fallback : Nat := 0
  firstInGroup : Nat := 0
  unparsed : Nat := 0
  deriving DecidableEq, Repr

def Report.record (r : Report) : Resolution → Report
  | .single _ => { r with aggregates := r.aggregates + 1, exactSingle := r.exactSingle + 1 }
  | .pair .. => { r with aggregates := r.aggregates + 1, pair := r.pair + 1 }
  | .fallback _ => { r with aggregates := r.aggregates + 1, fallback := r.fallback + 1 }

/-- Appends the entries not yet present. -/
def union (acc : List String) (more : List String) : List String :=
  more.foldl (fun acc e => if acc.contains e then acc else acc ++ [e]) acc

/-- Widens with the earlier step `j` when it is a running sum of the group of `cur`, counting
it. -/
def widenStep (steps : Array Step) (sums : List (Option SumStep)) (cur : SumStep)
    (acc : List String × Nat) (j : Nat) : List String × Nat :=
  match sums[j]?, steps[j]? with
  | some (some c), some s =>
    if cur.sameGroup c then (union acc.1 s.recordedProvenance.entries, acc.2 + 1) else acc
  | _, _ => acc

/-- The widened provenance of the sum step at `i`, read from `steps`, and how many earlier
steps share its group. -/
def widened (steps : Array Step) (sums : List (Option SumStep)) (i : Nat) (cur : SumStep) :
    List String × Nat :=
  let own := union [] (((steps[i]?).map (·.recordedProvenance.entries)).getD [])
  (List.range i).foldl (widenStep steps sums cur) (own, 0)

/-- A step given the provenance `entries`; the provenance it recorded is kept, once. -/
def repaired (s : Step) (entries : List String) : Step :=
  { s with priorProvenance := some (s.priorProvenance.getD s.provenance), provenance := ⟨entries⟩ }

/-- The turn of the loop at step `i`, over the steps as the turns before left them: a running
sum with earlier steps of its group is widened and narrowed to its contributors. -/
def resolveAt (cfg : Config) (sums : List (Option SumStep))
    (acc : List Notice × Array Step × Report) (i : Nat) : List Notice × Array Step × Report :=
  let (ns, steps, r) := acc
  match sums[i]? with
  | some (some cur) =>
    let (cands, matched) := widened steps sums i cur
    if matched = 0 then
      (ns, steps, { r with aggregates := r.aggregates + 1, firstInGroup := r.firstInGroup + 1 })
    else
      let res := contributors cands cur.rule cur.head cfg.tolerance
      let name := ((steps[i]?).map (·.name)).getD ""
      (ns ++ [.resolved i name res], steps.modify i (repaired · res.entries), r.record res)
  | _ => acc

/-- Resolves every running sum of the trace, in place and in trace order. -/
def resolve (cfg : Config) (t : Store) : List Notice × Store × Report :=
  let found := t.steps.toList.zipIdx.map fun (s, i) => sumStep i s
  let sums := found.map (·.2)
  let unparsedNotices := found.filterMap (·.1)
  let (notices, steps, report) := (List.range t.size).foldl (resolveAt cfg sums)
    ([], t.steps, { unparsed := unparsedNotices.length })
  (unparsedNotices ++ notices, ⟨steps⟩, report)

end ChaseProse.Aggregate
