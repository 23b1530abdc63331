import ChaseProse.Prose.Engine
/-! The conditions a deferred step carries on: each ends in the next explained sentence, or is
counted as dropped at the end. -/
namespace ChaseProse.Prose
open ChaseProse.Chase

namespace Outcome

def isDeferred : Outcome → Bool
  | .deferred => true
  | _ => false

def isEmitted : Outcome → Bool
  | .emitted _ => true
  | _ => false

end Outcome

/-! ### The conditions pending at a step, read off the outcomes -/

section Pending

variable (deferred emission : Nat → Bool) (own : Nat → List Clause)

/-- Some step from `j` up to `e`, `e` left out, is an emission point. -/
def emittedBetween (j e : Nat) : Bool := ((List.range e).filter (j ≤ ·)).any emission

/-- The clauses of the deferred steps before `e` that no emission point follows before `e`,
in order. -/
def pending (e : Nat) : List Clause :=
  ((List.range e).filter fun j => deferred j && !emittedBetween emission j e).flatMap own

theorem emittedBetween_self (e : Nat) : emittedBetween emission e e = false := by
  simp only [emittedBetween, List.any_filter, List.any_eq_false, List.mem_range]
  intro j hj
  simp [Nat.not_le.mpr hj]

theorem emittedBetween_succ (j e : Nat) :
    emittedBetween emission j (e + 1) = (emittedBetween emission j e || (j ≤ e && emission e)) := by
  unfold emittedBetween
  rw [List.range_succ, List.filter_append, List.any_append]
  by_cases h : j ≤ e <;> simp [h]

/-- An emission point takes every pending clause; any other step adds its own if deferred. -/
theorem pending_succ (e : Nat) :
    pending deferred emission own (e + 1) =
      if emission e then [] else pending deferred emission own e ++ if deferred e then own e else [] := by
  unfold pending
  by_cases he : emission e = true
  · -- every step up to `e` is followed by the emission point `e`
    have hnil : (List.range (e + 1)).filter (fun j => deferred j && !emittedBetween emission j (e + 1))
        = [] := by
      refine List.filter_eq_nil_iff.mpr fun j hj => ?_
      have hje : j ≤ e := Nat.lt_succ_iff.mp (List.mem_range.mp hj)
      simp [emittedBetween_succ, hje, he]
    simp [hnil, he]
  · have hsame : ∀ j ∈ List.range e, (deferred j && !emittedBetween emission j (e + 1)) =
        (deferred j && !emittedBetween emission j e) := by
      intro j _
      simp [emittedBetween_succ, he]
    rw [List.range_succ, List.filter_append, List.filter_congr hsame, List.flatMap_append]
    by_cases hd : deferred e = true <;> simp [he, hd, emittedBetween_succ, emittedBetween_self]

/-- The clauses pending at `e` depend only on the steps before `e`. -/
theorem pending_congr {deferred' emission' : Nat → Bool} {e : Nat}
    (h : ∀ j < e, deferred j = deferred' j ∧ emission j = emission' j) :
    pending deferred emission own e = pending deferred' emission' own e := by
  induction e with
  | zero => rfl
  | succ e ih =>
    obtain ⟨hd, he⟩ := h e (Nat.lt_succ_self e)
    rw [pending_succ, pending_succ, hd, he, ih fun j hj => h j (Nat.lt_succ_of_lt hj)]

/-- When no step is both deferred and an emission point, the clauses of all deferred steps
are those pending at each emission point, in turn, followed by those pending at the end. -/
theorem flatMap_deferred_eq (hex : ∀ j, emission j = true → deferred j = false) (n : Nat) :
    ((List.range n).filter deferred).flatMap own =
      ((List.range n).filter emission).flatMap (pending deferred emission own) ++
        pending deferred emission own n := by
  induction n with
  | zero => rfl
  | succ n ih =>
    rw [pending_succ]
    simp only [List.range_succ, List.filter_append, List.flatMap_append, ih]
    by_cases he : emission n = true
    · simp [he, hex n he]
    · by_cases hd : deferred n = true <;> simp [he, hd]

end Pending

/-- Conditions carried as one list of clauses: their texts and their atoms. -/
def Carried.ofClauses (cs : List Clause) : Carried := ⟨cs.map (·.text), cs.map (·.atom)⟩

theorem Carried.ofClauses_nil : Carried.ofClauses [] = {} := rfl

theorem Carried.ofClauses_carry (cs ds : List Clause) :
    (Carried.ofClauses cs).carry ds = Carried.ofClauses (cs ++ ds) := by
  simp [Carried.ofClauses, Carried.carry]

/-! ### A trace read back -/

/-- Step `i` of the trace `outs` is deferred. -/
def deferredAt (outs : List (Outcome × Carried)) (i : Nat) : Bool :=
  (outs[i]?.map (·.1.isDeferred)).getD false

/-- The conditions passed into step `i` of the trace `outs`: those the step before leaves. -/
def carriedBefore (outs : List (Outcome × Carried)) : Nat → Carried
  | 0 => {}
  | i + 1 => (outs[i]?.map (·.2)).getD {}

namespace Explainer

variable (x : Explainer)

/-- Step `i` takes the path of a derived fact: it is in the trace, not excluded, and neither
an input fact nor without a rule. -/
def derivedAt (i : Nat) : Bool :=
  match x.store.step? i with
  | some s => !s.labelling.isExcluded && !s.isGround && s.hasRule
  | none => false

/-- The condition clauses of step `i` itself. -/
def ownConditions (i : Nat) : List Clause :=
  match x.store.step? i with
  | some s =>
    match s.fact with
    | .ok f => (x.draft i s f).conditions
    | .error _ => []
  | none => []

/-- Step `i` of the trace `outs` is an emission point: a derived fact that is explained. -/
def emissionAt (outs : List (Outcome × Carried)) (i : Nat) : Bool :=
  x.derivedAt i && (outs[i]?.map (·.1.isEmitted)).getD false

/-- The conditions carried to step `e` of the trace `outs`: those of the steps deferred since
the last emission point before `e`, in order. -/
def carriedTo (outs : List (Outcome × Carried)) (e : Nat) : List Clause :=
  pending (deferredAt outs) (x.emissionAt outs) x.ownConditions e

/-! ### What one step does with the carried conditions -/

/-- What step `i` does with the carried conditions, whatever they are. -/
inductive Carrying where
  /-- passes them through unchanged -/
  | passes
  /-- is deferred and adds its own -/
  | defers
  /-- puts them in the sentence of the fact `f` of `s`, whose head reads `head`, and carries
  nothing on -/
  | emits (s : Step) (f : Fact) (head : String)

def Carrying.isDefers : Carrying → Bool
  | .defers => true
  | _ => false

def Carrying.isEmits : Carrying → Bool
  | .emits .. => true
  | _ => false

/-- How step `i` treats the carried conditions: a derived step is deferred when its head has
no template and emits otherwise, unless its fact does not parse. -/
def carrying (i : Nat) : Carrying :=
  match x.store.step? i with
  | some s =>
    if x.derivedAt i then
      match s.fact with
      | .ok f =>
        match (x.draft i s f).head with
        | some h => .emits s f h
        | none => .defers
      | .error _ => .passes
    else .passes
  | none => .passes

variable {x}

theorem isDeferred_extensional (i : Nat) (s : Step) : (x.extensional i s).1.isDeferred = false := by
  unfold extensional
  dsimp only
  split <;> rfl

/-- A step off the derived path is skipped or explained on its own: it passes the conditions
through and is not deferred. -/
theorem step_of_not_derived {i : Nat} (h : x.derivedAt i = false) (c : Carried) :
    (x.step i c).2.1 = c ∧ (x.step i c).1.isDeferred = false := by
  unfold derivedAt at h
  unfold step
  cases hs : x.store.step? i with
  | none => exact ⟨rfl, rfl⟩
  | some s =>
    simp only [hs] at h
    by_cases hx : s.labelling.isExcluded = true
    · simp [hx, Outcome.isDeferred]
    · have hr : (s.isGround || !s.hasRule) = true := by
        cases hg : s.isGround <;> cases hrule : s.hasRule <;> simp_all
      simp [hx, hr, isDeferred_extensional]

theorem step_of_derived {i : Nat} {s : Step} (hs : x.store.step? i = some s)
    (h : x.derivedAt i = true) (c : Carried) : x.step i c = x.intensional i s c := by
  unfold derivedAt at h
  simp only [hs, Bool.and_eq_true, Bool.not_eq_true'] at h
  obtain ⟨⟨hx, hg⟩, hr⟩ := h
  simp [step, hs, hx, hg, hr]

theorem step_of_passes {i : Nat} (h : x.carrying i = .passes) (c : Carried) :
    (x.step i c).2.1 = c ∧ (x.step i c).1.isDeferred = false ∧
      (x.derivedAt i && (x.step i c).1.isEmitted) = false := by
  cases hd : x.derivedAt i with
  | false => simpa using step_of_not_derived hd c
  | true =>
    -- a derived step passes only when its fact does not parse
    unfold carrying at h
    cases hs : x.store.step? i with
    | none => simp [derivedAt, hs] at hd
    | some s =>
      simp only [hs, hd, if_true] at h
      rw [step_of_derived hs hd]
      cases hf : s.fact with
      | ok f =>
        rw [hf] at h
        cases hh : (x.draft i s f).head <;> simp [hh] at h
      | error e => simp [intensional, hf, Outcome.isDeferred, Outcome.isEmitted]

/-- A step that does not pass the conditions through is a derived step of the trace whose fact
parses; its head decides whether it defers or emits. -/
theorem derived_of_carrying {i : Nat} (h : x.carrying i ≠ .passes) :
    ∃ s f, x.store.step? i = some s ∧ x.derivedAt i = true ∧ s.fact = .ok f ∧
      x.carrying i = match (x.draft i s f).head with
        | some head => .emits s f head
        | none => .defers := by
  unfold carrying at h ⊢
  cases hs : x.store.step? i with
  | none => simp [hs] at h
  | some s =>
    cases hd : x.derivedAt i with
    | false => simp [hs, hd] at h
    | true =>
      cases hf : s.fact with
      | ok f => exact ⟨s, f, rfl, rfl, hf, by simp [hf]⟩
      | error e => simp [hs, hd, hf] at h

theorem step_of_defers {i : Nat} (h : x.carrying i = .defers) (c : Carried) :
    (x.step i c).1 = .deferred ∧ (x.step i c).2.1 = c.carry (x.ownConditions i) ∧
      x.derivedAt i = true := by
  obtain ⟨s, f, hs, hd, hf, hc⟩ := derived_of_carrying (by rw [h]; simp)
  rw [h] at hc
  cases hh : (x.draft i s f).head with
  | some head => simp [hh] at hc
  | none =>
    rw [step_of_derived hs hd]
    simp [intensional, ownConditions, hs, hf, hh, hd]

theorem step_of_emits {i : Nat} {s : Step} {f : Fact} {head : String}
    (h : x.carrying i = .emits s f head) (c : Carried) :
    x.store.step? i = some s ∧ s.fact = .ok f ∧ (x.draft i s f).head = some head ∧
      x.derivedAt i = true ∧ (x.step i c).1 = .emitted ((x.draft i s f).record s head c) ∧
      (x.step i c).2.1 = {} := by
  obtain ⟨s', f', hs, hd, hf, hc⟩ := derived_of_carrying (by rw [h]; simp)
  rw [h] at hc
  cases hh : (x.draft i s' f').head with
  | none => simp [hh] at hc
  | some head' =>
    simp only [hh, Carrying.emits.injEq] at hc
    obtain ⟨rfl, rfl, rfl⟩ := hc
    rw [step_of_derived hs hd]
    simp [intensional, hs, hf, hh, hd]

/-! ### A whole run -/

/-- Past the end of the trace there is no step to defer or emit. -/
theorem carrying_of_size_le {i : Nat} (h : x.store.size ≤ i) : x.carrying i = .passes := by
  have hs : x.store.step? i = none := Array.getElem?_eq_none_iff.mpr h
  simp [carrying, hs]

variable (x) in
/-- The conditions carried into step `i` of a run. -/
def carriedAt : Nat → Carried
  | 0 => {}
  | i + 1 => (x.step i (carriedAt i)).2.1

variable (x) in
/-- One turn of the run's loop. -/
def runStep (acc : List (Outcome × Carried) × Carried × List Notice) (i : Nat) :
    List (Outcome × Carried) × Carried × List Notice :=
  (acc.1 ++ [((x.step i acc.2.1).1, (x.step i acc.2.1).2.1)], (x.step i acc.2.1).2.1,
    acc.2.2 ++ (x.step i acc.2.1).2.2)

theorem run_eq_foldl : x.run.1 = ((List.range x.store.size).foldl x.runStep ([], {}, [])).1 := rfl

/-- After `n` turns the loop holds the outcomes so far, each with the conditions it leaves,
and carries the conditions into step `n`. -/
theorem foldl_runStep (n : Nat) :
    ((List.range n).foldl x.runStep ([], {}, [])).1 =
      (List.range n).map (fun i => ((x.step i (x.carriedAt i)).1, x.carriedAt (i + 1))) ∧
    ((List.range n).foldl x.runStep ([], {}, [])).2.1 = x.carriedAt n := by
  induction n with
  | zero => exact ⟨rfl, rfl⟩
  | succ n ih =>
    obtain ⟨h1, h2⟩ := ih
    rw [List.range_succ, List.foldl_append, List.foldl_cons, List.foldl_nil]
    simp only [runStep, h1, h2, List.map_append, List.map_cons, List.map_nil]
    exact ⟨rfl, rfl⟩

theorem getElem?_run (i : Nat) :
    x.run.1[i]? = if i < x.store.size then some ((x.step i (x.carriedAt i)).1, x.carriedAt (i + 1))
      else none := by
  rw [run_eq_foldl, (foldl_runStep _).1, List.getElem?_map]
  by_cases hi : i < x.store.size <;> simp [hi]

theorem length_run : x.run.1.length = x.store.size := by
  rw [run_eq_foldl, (foldl_runStep _).1, List.length_map, List.length_range]

theorem carriedBefore_run {i : Nat} (hi : i ≤ x.store.size) : carriedBefore x.run.1 i = x.carriedAt i := by
  cases i with
  | zero => rfl
  | succ i => simp [carriedBefore, getElem?_run, Nat.lt_of_succ_le hi]

theorem lastCarried_run : ((x.run.1.getLast?).map (·.2)).getD {} = x.carriedAt x.store.size := by
  rw [List.getLast?_eq_getElem?, length_run]
  cases h : x.store.size with
  | zero => simp [getElem?_run, h, carriedAt]
  | succ n => simp [getElem?_run, h]

theorem deferredAt_run (i : Nat) : deferredAt x.run.1 i = (x.carrying i).isDefers := by
  unfold deferredAt
  rw [getElem?_run]
  split
  · cases hc : x.carrying i with
    | passes => simpa [Carrying.isDefers] using (step_of_passes hc _).2.1
    | defers => simp [Carrying.isDefers, (step_of_defers hc _).1, Outcome.isDeferred]
    | emits s f head => simp [Carrying.isDefers, (step_of_emits hc _).2.2.2.2.1, Outcome.isDeferred]
  · rw [carrying_of_size_le (by omega)]
    rfl

theorem emissionAt_run (i : Nat) : x.emissionAt x.run.1 i = (x.carrying i).isEmits := by
  unfold emissionAt
  rw [getElem?_run]
  split
  · cases hc : x.carrying i with
    | passes => simpa [Carrying.isEmits] using (step_of_passes hc _).2.2
    | defers => simp [Carrying.isEmits, (step_of_defers hc _).1, Outcome.isEmitted]
    | emits s f head =>
      obtain ⟨-, -, -, hd, ho, -⟩ := step_of_emits hc (x.carriedAt i)
      simp [Carrying.isEmits, hd, ho, Outcome.isEmitted]
  · rw [carrying_of_size_le (by omega)]
    simp [Carrying.isEmits]

/-- The invariant of a run: the conditions carried into step `e` are those pending there. -/
theorem carriedAt_eq (e : Nat) : x.carriedAt e = Carried.ofClauses (x.carriedTo x.run.1 e) := by
  have hspec : x.carriedTo x.run.1 = pending (fun j => (x.carrying j).isDefers)
      (fun j => (x.carrying j).isEmits) x.ownConditions := by
    funext e
    exact pending_congr _ _ _ fun j _ => ⟨deferredAt_run j, emissionAt_run j⟩
  rw [hspec]
  induction e with
  | zero => rfl
  | succ e ih =>
    rw [pending_succ, carriedAt]
    cases hc : x.carrying e with
    | passes => simp [Carrying.isDefers, Carrying.isEmits, (step_of_passes hc _).1, ih]
    | defers =>
      rw [(step_of_defers hc _).2.1, ih, Carried.ofClauses_carry]
      simp [Carrying.isDefers, Carrying.isEmits]
    | emits s f head =>
      rw [(step_of_emits hc _).2.2.2.2.2]
      simp [Carrying.isEmits, Carried.ofClauses_nil]

/-- An emission point of a run: its record is built from its draft with the pending
conditions carried. -/
theorem record_of_emission {e : Nat} {r : Record} {c : Carried}
    (hr : x.run.1[e]? = some (.emitted r, c)) (hd : x.derivedAt e = true) :
    ∃ s f head, x.store.step? e = some s ∧ s.fact = .ok f ∧ (x.draft e s f).head = some head ∧
      x.ownConditions e = (x.draft e s f).conditions ∧
      r = (x.draft e s f).record s head (Carried.ofClauses (x.carriedTo x.run.1 e)) := by
  rw [getElem?_run] at hr
  split at hr
  case isFalse => cases hr
  simp only [Option.some.injEq, Prod.mk.injEq] at hr
  obtain ⟨ho, -⟩ := hr
  cases hc : x.carrying e with
  | passes =>
    have h := (step_of_passes hc (x.carriedAt e)).2.2
    simp [hd, ho, Outcome.isEmitted] at h
  | defers => simp [(step_of_defers hc _).1] at ho
  | emits s f head =>
    obtain ⟨hs, hf, hh, -, ho', -⟩ := step_of_emits hc (x.carriedAt e)
    rw [ho', Outcome.emitted.injEq, carriedAt_eq] at ho
    exact ⟨s, f, head, hs, hf, hh, by simp [ownConditions, hs, hf], ho.symm⟩

/-- At an emission point the sentence reads the pending conditions, then the step's own, and
the atoms list the pending ones after the negated atoms and before the definitions'. -/
theorem emission_sentence {e : Nat} {r : Record} {c : Carried}
    (hr : x.run.1[e]? = some (.emitted r, c)) (hd : x.derivedAt e = true) :
    ∃ s f head, x.store.step? e = some s ∧ s.fact = .ok f ∧ (x.draft e s f).head = some head ∧
      r.sentence = finishSentence (dropLead (sentenceText (x.draft e s f).body
        ((x.carriedTo x.run.1 e ++ x.ownConditions e).map (·.text)) head
        ((x.draft e s f).definitions.map (·.text)))) ∧
      r.bodyAtoms = ",".intercalate ((x.draft e s f).positive ++ (x.draft e s f).negated ++
        (x.carriedTo x.run.1 e).map (·.atom) ++ (x.draft e s f).definitions.map (·.atom) ++
        (x.ownConditions e).map (·.atom)) := by
  obtain ⟨s, f, head, hs, hf, hh, hown, rfl⟩ := x.record_of_emission hr hd
  refine ⟨s, f, head, hs, hf, hh, ?_, ?_⟩ <;> simp [Draft.record, Carried.ofClauses, hown]

/-- The three things a step of a run can do with the carried conditions: pass them through,
add its own, or take them all. -/
theorem carried_of_outcome {i : Nat} {o : Outcome} {c : Carried} (h : x.run.1[i]? = some (o, c)) :
    ((o = .skipped ∨ (∃ r, o = .undescribed r) ∨ (∃ r, o = .emitted r ∧ x.derivedAt i = false)) →
      c = carriedBefore x.run.1 i) ∧
    (o = .deferred → c = (carriedBefore x.run.1 i).carry (x.ownConditions i)) ∧
    (∀ r, o = .emitted r → x.derivedAt i = true → c = {}) := by
  rw [getElem?_run] at h
  split at h
  case isFalse => cases h
  rename_i hi
  simp only [Option.some.injEq, Prod.mk.injEq] at h
  obtain ⟨rfl, rfl⟩ := h
  rw [carriedBefore_run (Nat.le_of_lt hi), carriedAt]
  cases hc : x.carrying i with
  | passes =>
    obtain ⟨hpass, hdef, hemit⟩ := step_of_passes hc (x.carriedAt i)
    refine ⟨fun _ => hpass, fun ho => ?_, fun r ho hd => ?_⟩
    · simp [ho, Outcome.isDeferred] at hdef
    · simp [ho, hd, Outcome.isEmitted] at hemit
  | defers =>
    obtain ⟨ho, hcarry, hd⟩ := step_of_defers hc (x.carriedAt i)
    refine ⟨fun h => ?_, fun _ => hcarry, fun r h => ?_⟩
    · rw [ho] at h
      simp at h
    · rw [ho] at h
      cases h
  | emits s f head =>
    obtain ⟨-, -, -, hd, ho, hnil⟩ := step_of_emits hc (x.carriedAt i)
    refine ⟨fun h => ?_, fun h => ?_, fun _ _ _ => hnil⟩
    · rw [ho] at h
      simp [hd] at h
    · rw [ho] at h
      cases h

end Explainer

/-- An emission point is not deferred. -/
theorem deferredAt_of_emissionAt (x : Explainer) (outs : List (Outcome × Carried)) {j : Nat}
    (h : x.emissionAt outs j = true) : deferredAt outs j = false := by
  unfold Explainer.emissionAt at h
  unfold deferredAt
  cases hj : outs[j]? with
  | none => rfl
  | some oc =>
    rw [hj] at h
    cases hoc : oc.1 <;> simp_all [Outcome.isEmitted, Outcome.isDeferred]

theorem droppedConditions_count (outs : List (Outcome × Carried)) (r : Report) :
    (outs.foldl (fun r (o, _) => r.count o) r).droppedConditions = r.droppedConditions := by
  induction outs generalizing r with
  | nil => rfl
  | cons oc outs ih =>
    obtain ⟨o, _⟩ := oc
    rw [List.foldl_cons, ih]
    cases o <;> rfl

theorem trace_explain (cfg : Config) (dict : Dictionary) (t : Store) :
    (explain cfg dict t).trace = (Explainer.make cfg dict t).1.run.1 := by
  unfold explain
  rfl

/-- The conditions dropped at the end are those still carried after the last step. -/
theorem droppedConditions_explain (cfg : Config) (dict : Dictionary) (t : Store) :
    (explain cfg dict t).report.droppedConditions =
      ((Explainer.make cfg dict t).1.carriedAt t.size).clauses.length := by
  rw [show t.size = (Explainer.make cfg dict t).1.store.size from rfl, ← Explainer.lastCarried_run]
  unfold explain
  dsimp only
  split
  · rename_i hempty
    rw [droppedConditions_count]
    simp only [Carried.isEmpty, Bool.and_eq_true, List.isEmpty_iff] at hempty
    rw [hempty.1]
    rfl
  · rfl

/-- Carried conditions are neither lost nor repeated. At every emission point `e` of the trace,
the sentence takes the conditions of the steps deferred since the last emission point, then its
own, and its atoms list theirs right after the negated atoms and before the definitions'. A
skipped or undescribed step, or a fact explained on its own, passes the carried conditions
through; a deferred step adds its own and an emission point carries nothing on. The conditions
still pending after the last step are counted as dropped, and the deferred conditions, in
order, are those of the sentences in turn followed by the dropped ones. -/
theorem explain_carried_conditions (cfg : Config) (dict : Dictionary) (t : Store) :
    let x := (Explainer.make cfg dict t).1
    let outs := (explain cfg dict t).trace
    (∀ e r c, outs[e]? = some (.emitted r, c) → x.derivedAt e = true →
      ∃ s f head, t.step? e = some s ∧ s.fact = .ok f ∧ (x.draft e s f).head = some head ∧
        r.sentence = finishSentence (Explainer.dropLead (Explainer.sentenceText (x.draft e s f).body
          ((x.carriedTo outs e ++ x.ownConditions e).map (·.text)) head
          ((x.draft e s f).definitions.map (·.text)))) ∧
        r.bodyAtoms = ",".intercalate ((x.draft e s f).positive ++ (x.draft e s f).negated ++
          (x.carriedTo outs e).map (·.atom) ++ (x.draft e s f).definitions.map (·.atom) ++
          (x.ownConditions e).map (·.atom))) ∧
    (∀ i o c, outs[i]? = some (o, c) →
      ((o = .skipped ∨ (∃ r, o = .undescribed r) ∨ (∃ r, o = .emitted r ∧ x.derivedAt i = false)) →
        c = carriedBefore outs i) ∧
      (o = .deferred → c = (carriedBefore outs i).carry (x.ownConditions i)) ∧
      (∀ r, o = .emitted r → x.derivedAt i = true → c = {})) ∧
    (explain cfg dict t).report.droppedConditions = (x.carriedTo outs t.size).length ∧
    ((List.range t.size).filter (deferredAt outs)).flatMap x.ownConditions =
      ((List.range t.size).filter (x.emissionAt outs)).flatMap (x.carriedTo outs) ++
        x.carriedTo outs t.size := by
  intro x outs
  -- the trace is the run of the explainer the rules were parsed into
  have houts : outs = x.run.1 := trace_explain cfg dict t
  rw [houts]
  refine ⟨fun e r c he hd => x.emission_sentence he hd, fun i o c hi => x.carried_of_outcome hi, ?_,
    flatMap_deferred_eq _ _ _ (fun j => deferredAt_of_emissionAt x x.run.1) t.size⟩
  rw [droppedConditions_explain, x.carriedAt_eq]
  simp [Carried.ofClauses]

/-- A trace whose second step is deferred with the condition `V > 3` and whose third is
explained. -/
def deferredCondition : Store :=
  ⟨#[{ name := "p(a,5)", pattern := ⟨[1, 1]⟩ },
    { name := "mid(a)", pattern := ⟨[1]⟩, provenance := ⟨["p(a,5)"]⟩,
      rule := "mid(X) :- p(X,V), V > 3." },
    { name := "out(a)", pattern := ⟨[1]⟩, provenance := ⟨["mid(a)"]⟩, rule := "out(X) :- mid(X)." }]⟩

/-- Templates for `p` and `out`, none for `mid`. -/
def valueDictionary : Dictionary :=
  ⟨[⟨"p", ["A", "B"], "A has value B", [.entity, .value]⟩, ⟨"out", ["A"], "A is out", []⟩]⟩

example : (Explainer.make {} valueDictionary deferredCondition).1.carriedTo
    (explain {} valueDictionary deferredCondition).trace 2 = [⟨"5 is over 3", "5>3"⟩] := by
  decide +kernel

theorem explain_carried_conditions_deferredCondition :
    let x := (Explainer.make {} valueDictionary deferredCondition).1
    let outs := (explain {} valueDictionary deferredCondition).trace
    let r : Record := ⟨"Since \"a\" has value 5, and 5 is over 3, then \"a\" is out.", .empty,
      "out(a)", .intensional, "p(a,5),5>3"⟩
    outs[2]? = some (.emitted r, ({} : Carried)) ∧ x.derivedAt 2 = true ∧
      ∃ s f head, deferredCondition.step? 2 = some s ∧ s.fact = .ok f ∧
        (x.draft 2 s f).head = some head ∧
        r.sentence = finishSentence (Explainer.dropLead (Explainer.sentenceText (x.draft 2 s f).body
          ((x.carriedTo outs 2 ++ x.ownConditions 2).map (·.text)) head
          ((x.draft 2 s f).definitions.map (·.text)))) ∧
        r.bodyAtoms = ",".intercalate ((x.draft 2 s f).positive ++ (x.draft 2 s f).negated ++
          (x.carriedTo outs 2).map (·.atom) ++ (x.draft 2 s f).definitions.map (·.atom) ++
          (x.ownConditions 2).map (·.atom)) := by
  intro x outs r
  have hout : outs[2]? = some (.emitted r, ({} : Carried)) := by decide +kernel
  have hderived : x.derivedAt 2 = true := by decide +kernel
  exact ⟨hout, hderived, (explain_carried_conditions {} valueDictionary deferredCondition).1 2 r {}
    hout hderived⟩

end ChaseProse.Prose
