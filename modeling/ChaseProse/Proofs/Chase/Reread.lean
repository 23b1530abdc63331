import ChaseProse.Proofs.Json.ReadBack
import ChaseProse.Proofs.Chase.TextForms
import ChaseProse.Chase.Wire
import ChaseProse.Pipeline
/-! Steps written as documents and read back: a decoded step written and decoded again is the same
step, and a checked store of such steps re-reads as itself. -/
namespace ChaseProse.Chase
open ChaseProse.Json

/-- A step that its document carries: markers of signed 64 bits, and provenances that their
text forms carry. -/
structure Step.Rereadable (s : Step) : Prop where
  bounded : ∀ m ∈ s.pattern.markers, -2 ^ 63 ≤ m ∧ m < 2 ^ 63
  provenance : s.provenance.Rereadable
  prior : ∀ p ∈ s.priorProvenance, p.Rereadable

theorem readLabelling_toValue (l : Labelling) : readLabelling? l.toValue = some l := by
  cases l with
  | excluded => decide
  | labels ls =>
    simp only [Labelling.toValue, Value.ofStrings, readLabelling?, List.mapM_map]
    rw [mapM_eq_some_self (by simp [Value.str?])]
    rfl

theorem Labelling.eq_empty_of_toValue? {l : Labelling} (h : l.toValue? = none) : l = .empty := by
  unfold Labelling.toValue? at h
  split at h
  · rfl
  · cases h

theorem Labelling.readLabelling_of_toValue? {l : Labelling} {v : Value} (h : l.toValue? = some v) :
    readLabelling? v = some l := by
  unfold Labelling.toValue? at h
  split at h
  · cases h
  · cases h
    exact readLabelling_toValue l

theorem readStep_toValue {s : Step} (hs : s.Rereadable) : readStep? s.toValue = some s := by
  obtain ⟨name, pattern, provenance, rule, labelling, prior⟩ := s
  have hpat := Pattern.parse_render hs.bounded
  have hprov := Provenance.parse_render hs.provenance
  have hprior : ∀ p, prior = some p → Provenance.parse p.render = p :=
    fun p hp => Provenance.parse_render (hs.prior p hp)
  -- the number is left out exactly when there are no labels
  cases hl : labelling.toValue? with
  | none =>
    obtain rfl := Labelling.eq_empty_of_toValue? hl
    cases prior <;> simp [Step.toValue, readStep?, stepFields, stepOfFields, readPattern?,
      readProvenance?, readRule?, Value.str?, Except.toOption, hpat, hprov, hl, hprior]
  | some v =>
    have hv := Labelling.readLabelling_of_toValue? hl
    cases prior <;> simp [Step.toValue, readStep?, stepFields, stepOfFields, readPattern?,
      readProvenance?, readRule?, Value.str?, Except.toOption, hpat, hprov, hl, hprior, hv]


theorem readsBack_ofStrings {d : Dialect} {depth : Nat} (hd : depth < d.maxDepth) (ls : List String) :
    ReadsBack d depth (.ofStrings ls) :=
  readsBack_arr hd fun x hx => by
    obtain ⟨s, -, rfl⟩ := List.mem_map.mp hx
    exact readsBack_str d (depth + 1) s

theorem Labelling.readsBack_toValue {d : Dialect} {depth : Nat} (hd : depth < d.maxDepth)
    (l : Labelling) : ReadsBack d depth l.toValue := by
  cases l with
  | excluded => exact readsBack_minusOne d depth
  | labels ls => exact readsBack_ofStrings hd ls

/-- A step's document reads back: its fields are texts, lists of texts or `-1`. -/
theorem Step.readsBack_toValue {d : Dialect} {depth : Nat} (hd : depth + 1 < d.maxDepth)
    (s : Step) : ReadsBack d depth s.toValue := by
  apply readsBack_obj (by omega)
  intro kv hkv
  simp only [List.mem_append, List.mem_cons, List.mem_nil_iff, or_false, Option.mem_toList,
    Option.map_eq_some_iff] at hkv
  rcases hkv with ((rfl | rfl | rfl | rfl) | ⟨v, hv, rfl⟩) | ⟨p, -, rfl⟩
  · exact readsBack_str d _ _
  · exact readsBack_str d _ _
  · exact readsBack_str d _ _
  · exact readsBack_str d _ _
  · unfold Labelling.toValue? at hv
    split at hv
    · cases hv
    · cases hv
      exact Labelling.readsBack_toValue hd _
  · exact readsBack_str d _ _

/-- A field read by `read`, or `default` when it is missing. -/
def fieldOr {α : Type} (default : α) (read : Value → Option α) : Option Value → Option α
  | some v => read v
  | none => some default

/-- The prior provenance field: missing and `null` both mean none. -/
def priorField : Option Value → Option (Option Provenance)
  | some .null | none => some none
  | some v => (readProvenance? v).map some

/-- Reading the step fields one after the other, each missing one taking its default. -/
theorem stepOfFields_eq (get : String → Option Value) :
    stepOfFields get = do
      let name ← (← get "name").str?
      let pattern ← readPattern? (← get "pattern")
      let provenance ← fieldOr ⟨[]⟩ readProvenance? (get "provenance")
      let rule ← fieldOr "" readRule? (get "rule")
      let labelling ← fieldOr .empty readLabelling? (get "number")
      let priorProvenance ← priorField (get "original_provenance")
      return { name, pattern, provenance, rule, labelling, priorProvenance } := by
  unfold stepOfFields
  cases get "provenance" <;> cases get "rule" <;> cases get "number" <;>
    rcases get "original_provenance" with _ | ⟨_ | _ | _ | _ | _ | _⟩ <;> rfl

theorem stepOfFields_pattern {get : String → Option Value} {s : Step}
    (h : stepOfFields get = some s) : ∃ w, get "pattern" = some w ∧ readPattern? w = some s.pattern := by
  simp only [stepOfFields_eq, Option.bind_eq_bind, Option.bind_eq_some_iff, Option.pure_def,
    Option.some.injEq] at h
  obtain ⟨-, -, -, -, w, hw, p, hp, -, -, -, -, -, -, -, -, rfl⟩ := h
  exact ⟨w, hw, hp⟩

/-- A decoded step came from the step fields of some lookup. -/
theorem exists_stepOfFields {v : Value} {s : Step} (h : readStep? v = some s) :
    ∃ get, stepOfFields get = some s := by
  unfold readStep? at h
  split at h
  · split at h
    · cases h
    · exact ⟨_, h⟩
  · split at h
    · cases h
    · exact ⟨_, h⟩
  · cases h

/-- A decoded step has a pattern read from text, so markers of signed 64 bits. -/
theorem bounded_of_readStep {v : Value} {s : Step} (h : readStep? v = some s) :
    ∀ m ∈ s.pattern.markers, -2 ^ 63 ≤ m ∧ m < 2 ^ 63 := by
  obtain ⟨get, hget⟩ := exists_stepOfFields h
  obtain ⟨w, -, hw⟩ := stepOfFields_pattern hget
  cases w with
  | str t => exact Pattern.bounded_of_parse (toOption_eq_some_iff.mp hw)
  | _ => cases hw

/-- The document of a step the document carries reads back as the step. -/
theorem read_toValue {s : Step} (hs : s.Rereadable) :
    (Json.read? .document s.toValue.compact).bind readStep? = some s := by
  rw [read?_compact (Step.readsBack_toValue (by decide) s), Option.bind_some, readStep_toValue hs]

/-- A step decoded from a document, written back and decoded again, is the same step, field by
field. A provenance given as text always comes back; one given as a list comes back when its
entries are `Rereadable`. -/
theorem readStep_compact_of_decoded {v : Value} {s : Step} (hv : readStep? v = some s)
    (hprov : s.provenance.Rereadable ∨ ∃ text, s.provenance = Provenance.parse text)
    (hprior : ∀ p ∈ s.priorProvenance, p.Rereadable ∨ ∃ text, p = Provenance.parse text) :
    (Json.read? .document s.toValue.compact).bind readStep? = some s := by
  have hread : ∀ p : Provenance, (p.Rereadable ∨ ∃ text, p = Provenance.parse text) →
      p.Rereadable := by
    rintro p (hp | ⟨text, rfl⟩)
    · exact hp
    · exact Provenance.rereadable_parse text
  exact read_toValue ⟨bounded_of_readStep hv, hread _ hprov, fun p hp => hread p (hprior p hp)⟩

/-- A step whose provenance text holds a quoted comma, brackets and blanks, excluded, with a
prior provenance given as a list. -/
def quotedCommaStep : Step where
  name := "p(\"a,b\",1)"
  pattern := ⟨[0, -1]⟩
  provenance := ⟨["q(\"x, y\")", "r([1,2])"]⟩
  labelling := .excluded
  priorProvenance := some ⟨["q(\"x, y\")", "s(2)"]⟩

/-- The document `quotedCommaStep` is decoded from. -/
def quotedCommaDocument : Value :=
  .obj [("name", .str "p(\"a,b\",1)"), ("pattern", .str " ( 0 , -1 ) "),
    ("provenance", .str " [q(\"x, y\"), , r([1,2])] "), ("number", .num "-3"),
    ("original_provenance", .arr [.str "q(\"x, y\")", .str "s(2)"])]

theorem readStep_compact_quotedComma :
    readStep? quotedCommaDocument = some quotedCommaStep ∧
      (quotedCommaStep.provenance.Rereadable ∨
        ∃ text, quotedCommaStep.provenance = Provenance.parse text) ∧
      (∀ p ∈ quotedCommaStep.priorProvenance, p.Rereadable ∨ ∃ text, p = Provenance.parse text) ∧
      (Json.read? .document quotedCommaStep.toValue.compact).bind readStep? =
        some quotedCommaStep := by
  have hv : readStep? quotedCommaDocument = some quotedCommaStep := by decide +kernel
  have hprov : quotedCommaStep.provenance.Rereadable ∨
      ∃ text, quotedCommaStep.provenance = Provenance.parse text :=
    .inr ⟨" [q(\"x, y\"), , r([1,2])] ", by decide +kernel⟩
  have hprior : ∀ p ∈ quotedCommaStep.priorProvenance,
      p.Rereadable ∨ ∃ text, p = Provenance.parse text := by
    intro p hp
    cases hp
    exact .inl ⟨by decide, by decide +kernel,
      ⟨by decide +kernel, fun _ => by decide +kernel, by decide +kernel, fun h => absurd rfl h, trivial⟩⟩
  exact ⟨hv, hprov, hprior, readStep_compact_of_decoded hv hprov hprior⟩

/-- A store whose steps their documents carry, and which passes the fact and arity checks, is
re-read from its own document as itself. -/
theorem reread_eq_ok {t : Store} (hs : ∀ s ∈ t.steps.toList, s.Rereadable)
    (hc : Store.check t.steps.toList = .ok ()) : Pipeline.reread t = .ok t := by
  have hdoc : Json.read? .document (stepsToValue t.steps.toList).compact =
      some (stepsToValue t.steps.toList) :=
    read?_compact (readsBack_arr (by decide) fun x hx => by
      obtain ⟨s, -, rfl⟩ := List.mem_map.mp hx
      exact Step.readsBack_toValue (by decide) s)
  have hsteps : readSteps? (stepsToValue t.steps.toList) = some t.steps.toList := by
    simp only [stepsToValue, readSteps?, List.mapM_map]
    exact mapM_eq_some_self fun s hs' => readStep_toValue (hs s hs')
  simp only [Pipeline.reread, hdoc, Option.bind_some, hsteps, Store.ofSteps, hc]
  rfl

end ChaseProse.Chase
