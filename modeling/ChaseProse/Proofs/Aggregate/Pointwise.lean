import ChaseProse.Aggregate.Resolve
import ChaseProse.Proofs.Basic
/-! Resolving running sums in place is a pointwise function of the trace: each turn reads the
input's recorded provenance, and resolving twice is resolving once. -/
namespace ChaseProse.Chase.Store

/-- Two traces with the same step at every index are equal. -/
theorem ext_step? {t t' : Store} (h : ∀ i, t.step? i = t'.step? i) : t = t' := by
  cases t
  cases t'
  simp only [Store.mk.injEq]
  exact Array.ext_getElem? h

end ChaseProse.Chase.Store

namespace ChaseProse.Aggregate
open ChaseProse.Chase

/-! ### A repair keeps what the step recorded -/

@[simp] theorem recordedProvenance_repaired (s : Step) (entries : List String) :
    (repaired s entries).recordedProvenance = s.recordedProvenance := by
  cases h : s.priorProvenance <;> simp [repaired, Step.recordedProvenance, h]

theorem repaired_repaired (s : Step) (entries entries' : List String) :
    repaired (repaired s entries) entries' = repaired s entries' := by
  simp [repaired]

@[simp] theorem sumStep_repaired (i : Nat) (s : Step) (entries : List String) :
    sumStep i (repaired s entries) = sumStep i s := rfl

theorem union_eraseDups (l more : List String) : union l.eraseDups more = (l ++ more).eraseDups :=
  foldl_appendNew l more

/-! ### The pointwise specification -/

section Spec

variable (cfg : Config) (t : Store)

/-- Every step of a trace read as a running sum, with the notice of a rule that does not
parse. -/
def classified : List (Option Notice × Option SumStep) :=
  t.steps.toList.zipIdx.map fun (s, i) => sumStep i s

/-- The running sums of a trace, step by step. -/
def sumSteps : List (Option SumStep) := (classified t).map (·.2)

/-- The running sum at step `i`, if it is one. -/
def sumAt (i : Nat) : Option SumStep := (t.step? i).bind fun s => (sumStep i s).2

/-- The provenance step `j` recorded. -/
def recordedAt (j : Nat) : List String := ((t.step? j).map (·.recordedProvenance.entries)).getD []

/-- The running sums before `i` in the group of `cur`. -/
def groupBefore (i : Nat) (cur : SumStep) : List Nat :=
  (List.range i).filter fun j => ((sumAt t j).map cur.sameGroup).getD false

/-- The candidates of the running sum `cur` at `i`: what it recorded, then what each earlier
sum of its group recorded, first occurrences kept. -/
def candidates (i : Nat) (cur : SumStep) : List String :=
  (recordedAt t i ++ (groupBefore t i cur).flatMap (recordedAt t)).eraseDups

/-- Step `i` as resolved: a running sum with earlier sums of its group takes the contributors
among its candidates as provenance and keeps the provenance it recorded; any other step is
left alone. -/
def resolvedStep (i : Nat) (s : Step) : Step :=
  match sumAt t i with
  | some cur =>
    if groupBefore t i cur = [] then s
    else
      { s with priorProvenance := some (s.priorProvenance.getD s.provenance),
               provenance := ⟨(contributors (candidates t i cur) cur.rule cur.head cfg.tolerance).entries⟩ }
  | none => s

/-- What the turn at `i` adds to the report, from the input alone. -/
def reportAt (r : Report) (i : Nat) : Report :=
  match sumAt t i with
  | some cur =>
    if groupBefore t i cur = [] then
      { r with aggregates := r.aggregates + 1, firstInGroup := r.firstInGroup + 1 }
    else r.record (contributors (candidates t i cur) cur.rule cur.head cfg.tolerance)
  | none => r

/-- The steps after the loop's first `k` turns: those before `k` resolved, the rest as given. -/
def resolvedBefore (k : Nat) : Array Step :=
  t.steps.mapIdx fun j s => if j < k then resolvedStep cfg t j s else s

end Spec

variable {cfg : Config} {t : Store}

theorem getElem?_classified (i : Nat) : (classified t)[i]? = (t.step? i).map (sumStep i) := by
  simp [classified, List.getElem?_zipIdx, Store.step?, Function.comp_def]

theorem getElem?_sumSteps (i : Nat) :
    (sumSteps t)[i]? = (t.step? i).map fun s => (sumStep i s).2 := by
  simp [sumSteps, getElem?_classified, Function.comp_def]

theorem groupBefore_succ (i : Nat) (cur : SumStep) :
    groupBefore t (i + 1) cur =
      groupBefore t i cur ++ if ((sumAt t i).map cur.sameGroup).getD false then [i] else [] := by
  rw [groupBefore, List.range_succ, List.filter_append]
  split <;> simp_all [groupBefore]

theorem resolvedStep_eq_repaired {i : Nat} {s : Step} {cur : SumStep} (h : sumAt t i = some cur)
    (hg : groupBefore t i cur ≠ []) :
    resolvedStep cfg t i s =
      repaired s (contributors (candidates t i cur) cur.rule cur.head cfg.tolerance).entries := by
  simp [resolvedStep, h, hg, repaired]

theorem resolvedStep_of_not_grouped {i : Nat} {s : Step}
    (h : ∀ cur, sumAt t i = some cur → groupBefore t i cur = []) : resolvedStep cfg t i s = s := by
  unfold resolvedStep
  split
  · rename_i cur hcur
    simp [h cur hcur]
  · rfl

/-- A step is resolved to itself or repaired. -/
theorem resolvedStep_cases (i : Nat) (s : Step) :
    resolvedStep cfg t i s = s ∨ ∃ entries, resolvedStep cfg t i s = repaired s entries := by
  unfold resolvedStep
  split
  · split
    · exact .inl rfl
    · exact .inr ⟨_, rfl⟩
  · exact .inl rfl

@[simp] theorem recordedProvenance_resolvedStep (i : Nat) (s : Step) :
    (resolvedStep cfg t i s).recordedProvenance = s.recordedProvenance := by
  rcases @resolvedStep_cases cfg t i s with h | ⟨_, h⟩ <;> simp [h]

@[simp] theorem sumStep_resolvedStep (i j : Nat) (s : Step) :
    sumStep j (resolvedStep cfg t i s) = sumStep j s := by
  rcases @resolvedStep_cases cfg t i s with h | ⟨_, h⟩ <;> simp [h]

/-! ### One turn of the loop -/

section Turn

-- steps that agree with the input on what each step recorded, as every turn finds them
variable {steps : Array Step}
  (hsteps : ∀ j, steps[j]?.map (·.recordedProvenance) = (t.step? j).map (·.recordedProvenance))
include hsteps

/-- Widening over the steps before `n` collects what the earlier sums of the group recorded
and counts them. -/
theorem foldl_widenStep (cur : SumStep) (l : List String) (n : Nat) :
    (List.range n).foldl (widenStep steps (sumSteps t) cur) (l.eraseDups, 0) =
      ((l ++ (groupBefore t n cur).flatMap (recordedAt t)).eraseDups, (groupBefore t n cur).length) := by
  induction n with
  | zero => simp [groupBefore]
  | succ n ih =>
    rw [List.range_succ, List.foldl_append, ih, List.foldl_cons, List.foldl_nil, groupBefore_succ]
    have hn := hsteps n
    unfold widenStep
    rw [getElem?_sumSteps]
    cases ht : t.step? n with
    | none => simp [sumAt, ht]
    | some s0 =>
      rw [ht] at hn
      obtain ⟨s, hs, hrec⟩ := Option.map_eq_some_iff.mp hn
      rw [hs]
      cases hc : (sumStep n s0).2 with
      | none => simp [sumAt, ht, hc]
      | some c =>
        by_cases hg : cur.sameGroup c = true
        · simp [sumAt, ht, hc, hg, recordedAt, hrec, union_eraseDups]
        · simp [sumAt, ht, hc, hg]

theorem widened_eq (i : Nat) (cur : SumStep) :
    widened steps (sumSteps t) i cur = (candidates t i cur, (groupBefore t i cur).length) := by
  have hown : (steps[i]?.map (·.recordedProvenance.entries)).getD [] = recordedAt t i := by
    have hi := congrArg (Option.map Provenance.entries) (hsteps i)
    simp only [Option.map_map, Function.comp_def] at hi
    rw [recordedAt, hi]
  unfold widened
  rw [hown, show union [] (recordedAt t i) = union ([] : List String).eraseDups (recordedAt t i) from rfl,
    union_eraseDups, foldl_widenStep hsteps]
  rfl

end Turn

theorem getElem?_resolvedBefore (k j : Nat) :
    (resolvedBefore cfg t k)[j]? = (t.step? j).map fun s => if j < k then resolvedStep cfg t j s else s := by
  simp [resolvedBefore, Array.getElem?_mapIdx, Store.step?]

theorem recordedProvenance_resolvedBefore (k j : Nat) :
    (resolvedBefore cfg t k)[j]?.map (·.recordedProvenance) = (t.step? j).map (·.recordedProvenance) := by
  rw [getElem?_resolvedBefore, Option.map_map]
  congr 1
  funext s
  split <;> simp

theorem getElem?_resolvedBefore_succ (k j : Nat) :
    (resolvedBefore cfg t (k + 1))[j]? =
      if j = k then (t.step? k).map (resolvedStep cfg t k) else (resolvedBefore cfg t k)[j]? := by
  rw [getElem?_resolvedBefore, getElem?_resolvedBefore]
  by_cases hjk : j = k
  · subst hjk
    simp
  · have hlt : (j < k + 1) = (j < k) := propext (by omega)
    simp [hjk, hlt]

theorem resolvedBefore_zero : resolvedBefore cfg t 0 = t.steps := by
  apply Array.ext_getElem?
  intro j
  simp [getElem?_resolvedBefore, Store.step?]

/-- One more turn resolves step `k`. -/
theorem resolvedBefore_succ (k : Nat) :
    resolvedBefore cfg t (k + 1) = (resolvedBefore cfg t k).modify k (resolvedStep cfg t k) := by
  apply Array.ext_getElem?
  intro j
  rw [getElem?_resolvedBefore_succ, Array.getElem?_modify]
  by_cases hjk : j = k
  · subst hjk
    simp [getElem?_resolvedBefore]
  · simp [hjk, Ne.symm hjk]

theorem modify_of_fixed {a : Array Step} {k : Nat} {f : Step → Step} (h : ∀ s, f s = s) :
    a.modify k f = a := by
  have hf : f = id := funext h
  subst hf
  apply Array.ext_getElem?
  intro j
  rw [Array.getElem?_modify]
  split <;> simp

/-- The turn at `k`, over the steps resolved before `k`, resolves step `k` as well and adds to
the report what the input gives. -/
theorem resolveAt_resolvedBefore (acc : List Notice × Array Step × Report) (k : Nat)
    (hacc : acc.2.1 = resolvedBefore cfg t k) :
    (resolveAt cfg (sumSteps t) acc k).2.1 = resolvedBefore cfg t (k + 1) ∧
      (resolveAt cfg (sumSteps t) acc k).2.2 = reportAt cfg t acc.2.2 k := by
  obtain ⟨ns, steps, r⟩ := acc
  dsimp only at hacc
  subst hacc
  rw [resolvedBefore_succ]
  unfold resolveAt
  rw [getElem?_sumSteps]
  -- a step that is no running sum, or the first of its group, is left alone
  have hfixed : (∀ cur, sumAt t k = some cur → groupBefore t k cur = []) →
      (resolvedBefore cfg t k).modify k (resolvedStep cfg t k) = resolvedBefore cfg t k :=
    fun h => modify_of_fixed fun _ => resolvedStep_of_not_grouped h
  cases ht : t.step? k with
  | none =>
    have hsum : sumAt t k = none := by simp [sumAt, ht]
    simp only [Option.map_none]
    exact ⟨(hfixed fun cur h => by simp [hsum] at h).symm, by simp [reportAt, hsum]⟩
  | some s =>
    cases hc : (sumStep k s).2 with
    | none =>
      have hsum : sumAt t k = none := by simp [sumAt, ht, hc]
      simp only [Option.map_some, hc]
      exact ⟨(hfixed fun cur h => by simp [hsum] at h).symm, by simp [reportAt, hsum]⟩
    | some cur =>
      have hsum : sumAt t k = some cur := by simp [sumAt, ht, hc]
      simp only [Option.map_some, hc]
      rw [widened_eq (@recordedProvenance_resolvedBefore cfg t k)]
      by_cases hg : groupBefore t k cur = []
      · have hlen : (groupBefore t k cur).length = 0 := by simp [hg]
        dsimp only
        rw [if_pos hlen]
        refine ⟨(hfixed fun c h => ?_).symm, by simp [reportAt, hsum, hg]⟩
        rw [hsum, Option.some.injEq] at h
        exact h ▸ hg
      · have hlen : (groupBefore t k cur).length ≠ 0 := by simpa using hg
        have hstep : resolvedStep cfg t k = fun s' =>
            repaired s' (contributors (candidates t k cur) cur.rule cur.head cfg.tolerance).entries :=
          funext fun _ => resolvedStep_eq_repaired hsum hg
        simp [hlen, reportAt, hsum, hg, hstep]

/-- The loop after `k` turns holds the steps resolved before `k` and the report the input
gives for them. -/
theorem foldl_resolveAt (k : Nat) (ns : List Notice) (r : Report) :
    ((List.range k).foldl (resolveAt cfg (sumSteps t)) (ns, t.steps, r)).2.1 = resolvedBefore cfg t k ∧
      ((List.range k).foldl (resolveAt cfg (sumSteps t)) (ns, t.steps, r)).2.2 =
        (List.range k).foldl (reportAt cfg t) r := by
  induction k with
  | zero => exact ⟨resolvedBefore_zero.symm, rfl⟩
  | succ k ih =>
    obtain ⟨h1, h2⟩ := ih
    simp only [List.range_succ, List.foldl_append, List.foldl_cons, List.foldl_nil]
    obtain ⟨e1, e2⟩ := resolveAt_resolvedBefore _ k h1
    exact ⟨e1, e2.trans (congrArg (reportAt cfg t · k) h2)⟩

/-- The whole loop: the trace resolved pointwise, and the report counted from the input. -/
theorem resolve_eq (cfg : Config) (t : Store) :
    (resolve cfg t).2 = (⟨resolvedBefore cfg t t.size⟩, (List.range t.size).foldl (reportAt cfg t)
      { unparsed := ((classified t).filterMap (·.1)).length }) := by
  obtain ⟨h1, h2⟩ :=
    @foldl_resolveAt cfg t t.size [] { unparsed := ((classified t).filterMap (·.1)).length }
  rw [← h1, ← h2]
  rfl

theorem step?_resolve (i : Nat) : (resolve cfg t).2.1.step? i = (t.step? i).map (resolvedStep cfg t i) := by
  rw [resolve_eq]
  show (resolvedBefore cfg t t.size)[i]? = _
  rw [getElem?_resolvedBefore]
  cases ht : t.step? i with
  | none => rfl
  | some s =>
    have hi : i < t.size := (Array.getElem?_eq_some_iff.mp ht).1
    simp [hi]

/-- Resolving keeps what each step is. -/
theorem resolvedStep_keeps (i : Nat) (s : Step) :
    (resolvedStep cfg t i s).name = s.name ∧ (resolvedStep cfg t i s).pattern = s.pattern ∧
      (resolvedStep cfg t i s).rule = s.rule ∧ (resolvedStep cfg t i s).labelling = s.labelling := by
  rcases @resolvedStep_cases cfg t i s with h | ⟨_, h⟩ <;> rw [h] <;> exact ⟨rfl, rfl, rfl, rfl⟩

theorem resolvedStep_resolvedStep (i : Nat) (s : Step) :
    resolvedStep cfg t i (resolvedStep cfg t i s) = resolvedStep cfg t i s := by
  by_cases h : ∀ cur, sumAt t i = some cur → groupBefore t i cur = []
  · rw [resolvedStep_of_not_grouped h, resolvedStep_of_not_grouped h]
  · obtain ⟨cur, hcur, hg⟩ : ∃ cur, sumAt t i = some cur ∧ groupBefore t i cur ≠ [] := by
      simpa using h
    rw [resolvedStep_eq_repaired hcur hg, resolvedStep_eq_repaired hcur hg, repaired_repaired]

/-! ### Resolving again -/

section Again

theorem classified_resolve : classified (resolve cfg t).2.1 = classified t := by
  apply List.ext_getElem?
  intro i
  rw [getElem?_classified, getElem?_classified, step?_resolve, Option.map_map]
  simp only [Function.comp_def, sumStep_resolvedStep]

theorem sumAt_resolve (i : Nat) : sumAt (resolve cfg t).2.1 i = sumAt t i := by
  simp only [sumAt, step?_resolve, Option.bind_map, Function.comp_def, sumStep_resolvedStep]

theorem recordedAt_resolve (j : Nat) : recordedAt (resolve cfg t).2.1 j = recordedAt t j := by
  simp [recordedAt, step?_resolve, Function.comp_def]

theorem groupBefore_resolve (i : Nat) (cur : SumStep) :
    groupBefore (resolve cfg t).2.1 i cur = groupBefore t i cur := by
  simp only [groupBefore, sumAt_resolve]

theorem candidates_resolve (i : Nat) (cur : SumStep) :
    candidates (resolve cfg t).2.1 i cur = candidates t i cur := by
  have hrec : recordedAt (resolve cfg t).2.1 = recordedAt t := funext recordedAt_resolve
  simp only [candidates, groupBefore_resolve, hrec]

/-- The resolved trace gives every step the resolution the input gives it. -/
theorem resolvedStep_resolve (i : Nat) : resolvedStep cfg (resolve cfg t).2.1 i = resolvedStep cfg t i := by
  funext s
  simp only [resolvedStep, sumAt_resolve, groupBefore_resolve, candidates_resolve]

theorem reportAt_resolve : reportAt cfg (resolve cfg t).2.1 = reportAt cfg t := by
  funext r i
  simp only [reportAt, sumAt_resolve, groupBefore_resolve, candidates_resolve]

end Again

/-- Resolving running sums in place is the pointwise specification. Every step is resolved from
the input alone and keeps its name, pattern, rule and labels; after any number of turns of the
loop every step still shows the provenance the input recorded, which is all a turn reads; and
resolving the result again gives the same steps and the same report. -/
theorem resolve_eq_pointwise (cfg : Config) (t : Store) :
    (∀ i, (resolve cfg t).2.1.step? i = (t.step? i).map (resolvedStep cfg t i)) ∧
    (∀ i s', (resolve cfg t).2.1.step? i = some s' → ∃ s, t.step? i = some s ∧
      s'.name = s.name ∧ s'.pattern = s.pattern ∧ s'.rule = s.rule ∧ s'.labelling = s.labelling) ∧
    (∀ k ns r j, ((List.range k).foldl (resolveAt cfg (sumSteps t)) (ns, t.steps, r)).2.1[j]?.map
      (·.recordedProvenance) = (t.step? j).map (·.recordedProvenance)) ∧
    (resolve cfg (resolve cfg t).2.1).2.1 = (resolve cfg t).2.1 ∧
    (resolve cfg (resolve cfg t).2.1).2.2 = (resolve cfg t).2.2 := by
  refine ⟨step?_resolve, fun i s' h => ?_, fun k ns r j => ?_, ?_, ?_⟩
  · rw [step?_resolve] at h
    obtain ⟨s, hs, rfl⟩ := Option.map_eq_some_iff.mp h
    exact ⟨s, hs, resolvedStep_keeps i s⟩
  · rw [(foldl_resolveAt k ns r).1]
    exact recordedProvenance_resolvedBefore k j
  · apply Store.ext_step?
    intro i
    rw [step?_resolve, resolvedStep_resolve, step?_resolve, Option.map_map]
    simp only [Function.comp_def, resolvedStep_resolvedStep]
  · -- the second pass runs over as many steps as the first
    have hsize : (resolve cfg t).2.1.size = t.size := by
      rw [resolve_eq]
      exact Array.size_mapIdx
    calc (resolve cfg (resolve cfg t).2.1).2.2
        = (List.range (resolve cfg t).2.1.size).foldl (reportAt cfg (resolve cfg t).2.1)
            { unparsed := ((classified (resolve cfg t).2.1).filterMap (·.1)).length } := by
          rw [resolve_eq cfg (resolve cfg t).2.1]
      _ = (List.range t.size).foldl (reportAt cfg t)
            { unparsed := ((classified t).filterMap (·.1)).length } := by
          rw [reportAt_resolve, classified_resolve, hsize]
      _ = (resolve cfg t).2.2 := by rw [resolve_eq]

/-- A running sum over `item`, the first of its group. -/
def runningTotal : Step :=
  { name := "tot(g,2)", pattern := ⟨[1, 1]⟩, provenance := ⟨["item(g,2)"]⟩,
    rule := "tot(G,S) :- item(G,V), S = msum(V)." }

/-- A trace whose only running sum is the first of its group. -/
def firstSum : Store := ⟨#[{ name := "item(g,2)", pattern := ⟨[1, 1]⟩ }, runningTotal]⟩

theorem resolve_eq_pointwise_firstSum :
    (resolve {} firstSum).2.1.step? 1 = some runningTotal ∧
      ∃ s, firstSum.step? 1 = some s ∧ runningTotal.name = s.name ∧
        runningTotal.pattern = s.pattern ∧ runningTotal.rule = s.rule ∧
        runningTotal.labelling = s.labelling := by
  have h : (resolve {} firstSum).2.1.step? 1 = some runningTotal := by decide +kernel
  exact ⟨h, (resolve_eq_pointwise {} firstSum).2.1 1 runningTotal h⟩

end ChaseProse.Aggregate
