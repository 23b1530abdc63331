import ChaseProse.Proofs.Prose.Carried
/-! One record per explained step, read off the step and the dictionary alone, with counts that
cover every step once. -/
namespace ChaseProse.Prose
open ChaseProse.Chase ChaseProse.Rule

/-- What becomes of a step: skipped, deferred, or recorded with a record of some kind. -/
inductive Fate where
  | skipped
  | deferred
  | recorded (k : RecordKind)
  deriving DecidableEq

def Outcome.fate : Outcome → Fate
  | .skipped => .skipped
  | .deferred => .deferred
  | .emitted r | .undescribed r => .recorded r.kind

theorem Outcome.fate_eq_skipped {o : Outcome} : o.fate = .skipped ↔ o = .skipped := by
  cases o <;> simp [Outcome.fate]

theorem Outcome.fate_eq_deferred {o : Outcome} : o.fate = .deferred ↔ o = .deferred := by
  cases o <;> simp [Outcome.fate]

theorem Outcome.fate_eq_recorded {o : Outcome} {k : RecordKind} :
    o.fate = .recorded k ↔ ∃ r, o.record? = some r ∧ r.kind = k := by
  cases o <;> simp [Outcome.fate, Outcome.record?]

/-- The fate of a step by the rules of the explanation, from the step and the dictionary. -/
def fateOf (dict : Dictionary) (s : Step) : Fate :=
  if s.labelling.isExcluded then .skipped
  else
    match s.fact with
    | .error _ => .recorded .undescribed
    | .ok f =>
      if (dict.lookup? f.predicate f.arity).isSome then
        .recorded (if s.isGround || !s.hasRule then .extensional else .intensional)
      else if s.isGround || !s.hasRule then .recorded .undescribed
      else .deferred

namespace Explainer

variable {x : Explainer} {i : Nat} {s : Step}

theorem draft_head_isSome (f : Fact) :
    (x.draft i s f).head.isSome = (x.dict.lookup? f.predicate f.arity).isSome := by
  unfold draft
  simp [describe]

/-- An input fact or a fact without a rule: its template's sentence when the fact parses and
has a template, else the fact as written. -/
theorem extensional_fate :
    (x.extensional i s).1.fate = match s.fact with
      | .ok f => .recorded (if (x.dict.lookup? f.predicate f.arity).isSome then .extensional
          else .undescribed)
      | .error _ => .recorded .undescribed := by
  unfold extensional
  cases hf : s.fact with
  | error e => simp [Outcome.fate, Record.undescribedStep]
  | ok f =>
    cases hl : x.dict.lookup? f.predicate f.arity <;>
      simp [describe, hl, Outcome.fate, Record.undescribedStep]

/-- A derived fact: undescribed when it does not parse, deferred without a head template,
else explained. -/
theorem intensional_fate (c : Carried) :
    (x.intensional i s c).1.fate = match s.fact with
      | .ok f => if (x.dict.lookup? f.predicate f.arity).isSome then .recorded .intensional
          else .deferred
      | .error _ => .recorded .undescribed := by
  unfold intensional
  cases hf : s.fact with
  | error e => simp [Outcome.fate, Record.undescribedStep]
  | ok f =>
    have hh := @draft_head_isSome x i s f
    cases hd : (x.draft i s f).head with
    | none =>
      rw [hd, Option.isSome_none] at hh
      simp [← hh, hd, Outcome.fate]
    | some head =>
      rw [hd, Option.isSome_some] at hh
      simp [← hh, hd, Outcome.fate, Draft.record]

/-- What becomes of a step of the trace, whatever conditions are carried to it. -/
theorem step_fate (hs : x.store.step? i = some s) (c : Carried) :
    (x.step i c).1.fate = fateOf x.dict s := by
  unfold step fateOf
  rw [hs]
  by_cases hx : s.labelling.isExcluded = true
  · simp [hx, Outcome.fate]
  · simp only [hx, if_false, Bool.false_eq_true]
    by_cases hg : (s.isGround || !s.hasRule) = true
    · rw [if_pos hg, extensional_fate]
      cases s.fact with
      | error e => rfl
      | ok f => cases hl : x.dict.lookup? f.predicate f.arity <;> simp [hg, hl]
    · rw [if_neg hg, intensional_fate]
      cases s.fact with
      | error e => rfl
      | ok f => cases hl : x.dict.lookup? f.predicate f.arity <;> simp [hg, hl]

/-- Every record of a step names its fact and carries its labels; a fact explained on its own
has no atoms, and an undescribed one is its own sentence. -/
theorem step_record (hs : x.store.step? i = some s) (c : Carried) {r : Record}
    (hr : (x.step i c).1.record? = some r) :
    r.derivedFact = s.name ∧ r.labelling = s.labelling ∧
      (r.kind = .undescribed → r.sentence = s.name ∧ r.bodyAtoms = "") ∧
      (r.kind = .extensional → r.bodyAtoms = "") := by
  unfold step at hr
  rw [hs] at hr
  by_cases hx : s.labelling.isExcluded = true
  · simp [hx, Outcome.record?] at hr
  by_cases hg : (s.isGround || !s.hasRule) = true
  · simp only [hx, hg, if_true, if_false, Bool.false_eq_true] at hr
    unfold extensional at hr
    cases hf : s.fact with
    | error e =>
      simp [hf, Outcome.record?, Record.undescribedStep] at hr
      subst hr
      simp
    | ok f =>
      cases hd : describe x.cfg x.dict f s.pattern [] <;>
        simp [hf, hd, Outcome.record?, Record.undescribedStep] at hr <;> subst hr <;> simp
  · simp only [hx, hg, if_false, Bool.false_eq_true] at hr
    unfold intensional at hr
    split at hr
    · simp [Outcome.record?, Record.undescribedStep] at hr
      subst hr
      simp
    · dsimp only at hr
      split at hr
      · simp [Outcome.record?] at hr
      · simp [Outcome.record?, Draft.record] at hr
        subst hr
        simp

end Explainer

/-! ### The conditions of each fate -/

section Fate

variable {dict : Dictionary} {s : Step}

theorem fateOf_eq_skipped : fateOf dict s = .skipped ↔ s.labelling.isExcluded = true := by
  unfold fateOf
  split
  · simp_all
  · split <;> (try split) <;> (try split) <;> simp_all

theorem fateOf_eq_deferred : fateOf dict s = .deferred ↔ s.labelling.isExcluded = false ∧
    s.isGround = false ∧ s.hasRule = true ∧
      ∃ f, s.fact = .ok f ∧ dict.lookup? f.predicate f.arity = none := by
  unfold fateOf
  by_cases hx : s.labelling.isExcluded = true
  · simp [hx]
  cases hf : s.fact with
  | error e => simp [hx]
  | ok f =>
    cases hl : dict.lookup? f.predicate f.arity <;> cases s.isGround <;> cases s.hasRule <;>
      simp [hx, hl]

theorem fateOf_eq_recorded (k : RecordKind) : fateOf dict s = .recorded k ↔
    s.labelling.isExcluded = false ∧
      match k with
      | .undescribed => (∃ err, s.fact = .error err) ∨ ((s.isGround || !s.hasRule) = true ∧
          ∃ f, s.fact = .ok f ∧ dict.lookup? f.predicate f.arity = none)
      | .extensional => (s.isGround || !s.hasRule) = true ∧
          ∃ f, s.fact = .ok f ∧ (dict.lookup? f.predicate f.arity).isSome
      | .intensional => s.isGround = false ∧ s.hasRule = true ∧
          ∃ f, s.fact = .ok f ∧ (dict.lookup? f.predicate f.arity).isSome := by
  unfold fateOf
  by_cases hx : s.labelling.isExcluded = true
  · simp [hx]
  cases hf : s.fact with
  | error e => cases k <;> simp [hx]
  | ok f =>
    cases hl : dict.lookup? f.predicate f.arity <;> cases s.isGround <;> cases s.hasRule <;>
      cases k <;> simp [hx, hl]

end Fate

/-! ### Counting -/

/-- The four outcome counters together. -/
def Report.outcomes (r : Report) : Nat := r.emitted + r.deferred + r.skipped + r.undescribed

theorem Report.outcomes_count (r : Report) (o : Outcome) : (r.count o).outcomes = r.outcomes + 1 := by
  cases o <;> simp [Report.count, Report.outcomes] <;> omega

/-- Counting a trace adds one to the counters per step and leaves the rule count alone. -/
theorem outcomes_foldl_count (outs : List (Outcome × Carried)) (r : Report) :
    (outs.foldl (fun r (o, _) => r.count o) r).outcomes = r.outcomes + outs.length ∧
      (outs.foldl (fun r (o, _) => r.count o) r).unparsedRules = r.unparsedRules := by
  induction outs generalizing r with
  | nil => simp
  | cons oc outs ih =>
    obtain ⟨o, _⟩ := oc
    rw [List.foldl_cons]
    obtain ⟨h1, h2⟩ := ih (r.count o)
    refine ⟨by rw [h1, Report.outcomes_count, List.length_cons]; omega, ?_⟩
    rw [h2]
    cases o <;> rfl

/-- The rules of the trace that do not parse: those of the steps with a rule that the rule
reader refuses. -/
theorem unparsed_make (cfg : Config) (dict : Dictionary) (t : Store) :
    (Explainer.make cfg dict t).2.2 =
      t.steps.toList.countP fun s => s.hasRule && (Rule.parse s.rule).toOption.isNone := by
  unfold Explainer.make
  dsimp only
  rw [← List.countP_eq_length_filter, List.countP_map]
  conv => rhs; rw [← List.zipIdx_map_fst 0 t.steps.toList, List.countP_map]
  -- each entry is refused exactly when its step has a rule that does not parse
  apply List.countP_congr
  rintro ⟨s, k⟩ -
  cases hr : s.hasRule
  · simp [hr]
  · cases hp : Rule.parse s.rule <;> simp [hr, hp, Except.toOption]

theorem report_explain (cfg : Config) (dict : Dictionary) (t : Store) :
    (explain cfg dict t).report.outcomes = t.size ∧
      (explain cfg dict t).report.unparsedRules = (Explainer.make cfg dict t).2.2 := by
  have hlen : (Explainer.make cfg dict t).1.run.1.length = t.size := Explainer.length_run
  obtain ⟨h1, h2⟩ := outcomes_foldl_count (Explainer.make cfg dict t).1.run.1
    { unparsedRules := (Explainer.make cfg dict t).2.2 }
  unfold explain
  dsimp only
  split <;> exact ⟨by simpa [Report.outcomes, hlen] using h1, h2⟩

/-- The explanation of a trace lists, in step order, the records of the steps that are neither
skipped nor deferred, each naming its step's fact and labels. A step is skipped exactly when
it is excluded, and deferred exactly when it is derived, has a rule, and its fact parses but has
no template. Its record is undescribed, the fact as written with no atoms, exactly when its fact
does not parse or an input fact or a fact without a rule has no template; extensional, with no
atoms, when such a fact has one; and intensional for a derived fact with a template. The
counters cover every step once, and the rule count is the number of steps whose rule the rule
reader refuses. -/
theorem explain_records (cfg : Config) (dict : Dictionary) (t : Store) :
    let e := explain cfg dict t
    e.trace.length = t.size ∧ e.records = e.trace.filterMap (·.1.record?) ∧
    (∀ i s o c, t.step? i = some s → e.trace[i]? = some (o, c) →
      (∀ r, o.record? = some r → r.derivedFact = s.name ∧ r.labelling = s.labelling ∧
        (r.kind = .undescribed → r.sentence = s.name ∧ r.bodyAtoms = "") ∧
        (r.kind = .extensional → r.bodyAtoms = "")) ∧
      (o = .skipped ↔ s.labelling.isExcluded = true) ∧
      (o = .deferred ↔ s.labelling.isExcluded = false ∧ s.isGround = false ∧ s.hasRule = true ∧
        ∃ f, s.fact = .ok f ∧ dict.lookup? f.predicate f.arity = none) ∧
      ((∃ r, o.record? = some r ∧ r.kind = .undescribed) ↔ s.labelling.isExcluded = false ∧
        ((∃ err, s.fact = .error err) ∨ ((s.isGround || !s.hasRule) = true ∧
          ∃ f, s.fact = .ok f ∧ dict.lookup? f.predicate f.arity = none))) ∧
      ((∃ r, o.record? = some r ∧ r.kind = .extensional) ↔ s.labelling.isExcluded = false ∧
        (s.isGround || !s.hasRule) = true ∧
          ∃ f, s.fact = .ok f ∧ (dict.lookup? f.predicate f.arity).isSome) ∧
      ((∃ r, o.record? = some r ∧ r.kind = .intensional) ↔ s.labelling.isExcluded = false ∧
        s.isGround = false ∧ s.hasRule = true ∧
          ∃ f, s.fact = .ok f ∧ (dict.lookup? f.predicate f.arity).isSome)) ∧
    e.report.emitted + e.report.deferred + e.report.skipped + e.report.undescribed = t.size ∧
    e.report.unparsedRules =
      t.steps.toList.countP fun s => s.hasRule && (Rule.parse s.rule).toOption.isNone := by
  intro e
  let x := (Explainer.make cfg dict t).1
  have htrace : e.trace = x.run.1 := trace_explain cfg dict t
  obtain ⟨hcount, hunparsed⟩ := report_explain cfg dict t
  refine ⟨htrace ▸ Explainer.length_run, rfl, fun i s o c hs ho => ?_, hcount,
    hunparsed.trans (unparsed_make cfg dict t)⟩
  -- the entry of step `i` is the outcome of explaining it with the conditions carried to it
  rw [htrace, Explainer.getElem?_run] at ho
  split at ho
  case isFalse => cases ho
  simp only [Option.some.injEq, Prod.mk.injEq] at ho
  obtain ⟨rfl, -⟩ := ho
  have hs' : x.store.step? i = some s := hs
  have hfate : (x.step i (x.carriedAt i)).1.fate = fateOf dict s := Explainer.step_fate hs' _
  refine ⟨fun r hr => Explainer.step_record hs' _ hr, ?_, ?_, ?_, ?_, ?_⟩
  · rw [← Outcome.fate_eq_skipped, hfate, fateOf_eq_skipped]
  · rw [← Outcome.fate_eq_deferred, hfate, fateOf_eq_deferred]
  · rw [← Outcome.fate_eq_recorded, hfate, fateOf_eq_recorded]
  · rw [← Outcome.fate_eq_recorded, hfate, fateOf_eq_recorded]
  · rw [← Outcome.fate_eq_recorded, hfate, fateOf_eq_recorded]

/-- In the trace whose second step has no template for its head, that step is deferred, and the
conditions of deferral hold of it. -/
theorem explain_records_deferredCondition :
    let e := explain {} valueDictionary deferredCondition
    let s := Step.mk "mid(a)" ⟨[1]⟩ ⟨["p(a,5)"]⟩ "mid(X) :- p(X,V), V > 3." .empty none
    deferredCondition.step? 1 = some s ∧
      e.trace[1]? = some (.deferred, ⟨["5 is over 3"], ["5>3"]⟩) ∧
      (Outcome.deferred = .deferred ↔ s.labelling.isExcluded = false ∧ s.isGround = false ∧
        s.hasRule = true ∧ ∃ f, s.fact = .ok f ∧ valueDictionary.lookup? f.predicate f.arity = none) := by
  intro e s
  have hs : deferredCondition.step? 1 = some s := rfl
  have ho : e.trace[1]? = some (.deferred, ⟨["5 is over 3"], ["5>3"]⟩) := by decide +kernel
  exact ⟨hs, ho, ((explain_records {} valueDictionary deferredCondition).2.2.1 1 s _ _ hs ho).2.2.1⟩

end ChaseProse.Prose
