import ChaseProse.Prose.Expand
import Mathlib.Logic.Relation
import Mathlib.Data.List.Nodup
/-! Expanding a provenance computes a closure: the loop stops, with the reachable entries that do
not expand and the intermediates, each once. -/
namespace ChaseProse.Prose
open ChaseProse.Chase

section Closure

variable (cfg : Config) (d : Dictionary) (t : Store)

/-- An entry expands: it is no absence marker, and `expandable?` finds the step it expands
into. -/
def expands (e : String) : Bool := !cfg.isAbsenceMarker e && (expandable? d t e).isSome

/-- The provenance an entry expands into, empty for one that does not. -/
def expansionOf (e : String) : List String :=
  ((expandable? d t e).map fun fs => fs.2.provenance.entries).getD []

/-- The intermediate fact an entry gives when it expands: the fact with its step's pattern. -/
def intermediateOf (e : String) : Option Grounded :=
  (expandable? d t e).map fun fs => ⟨fs.1, fs.2.pattern⟩

/-- `e` leads to `x` when `e` expands and `x` is an entry of the provenance it expands into. -/
def ExpandsTo (e x : String) : Prop := expands cfg d t e = true ∧ x ∈ expansionOf d t e

/-- The entries reached from a provenance by expanding, the provenance's own included. -/
def Reachable (p : Provenance) (x : String) : Prop :=
  ∃ e ∈ p.entries, Relation.ReflTransGen (ExpandsTo cfg d t) e x

/-- `g` is the intermediate of `e`: its fact read from `e`, with the pattern of the first step
carrying `e`. -/
def IsIntermediate (e : String) (g : Grounded) : Prop :=
  ∃ f s, Fact.parse e = .ok f ∧ t.firstNamed? e = some s ∧ g = ⟨f, s.pattern⟩

/-- How an entry that does not expand is shown: a fact with a template, with the pattern of the
first step carrying it or all constants, else as undescribed text. -/
def leafEntry (e : String) : BodyEntry :=
  match Fact.parse e with
  | .ok f =>
    if (d.lookup? f.predicate f.arity).isSome then .fact ⟨f, patternOf t e f⟩ else .undescribed e
  | .error _ => .undescribed e

/-- The expansion loop on its state (the entries, the names expanded so far, the intermediates):
it runs `k` rounds and stops in `fin`, the last round being the first that changes nothing. -/
inductive Runs : List String × List String × List Grounded → Nat →
    List String × List String × List Grounded → Prop
  | stop {cur done inter next done' inter'} :
      expandRound cfg d t cur done inter = (next, done', inter', false) →
      Runs (cur, done, inter) 1 (next, done', inter')
  | more {cur done inter next done' inter' k fin} :
      expandRound cfg d t cur done inter = (next, done', inter', true) →
      Runs (next, done', inter') k fin → Runs (cur, done, inter) (k + 1) fin

/-- What a round does, given the names expanded before it: it expands the names `new`, keeps
the rest of its entries or drops them as expanded before, and puts each provenance expanded in
place of its name. -/
structure RoundFacts (cur done next new : List String) : Prop where
  nodup : (done ++ new).Nodup
  new_mem : ∀ e ∈ new, e ∈ cur ∧ expands cfg d t e = true
  kept : ∀ x ∈ cur, x ∈ next ∨ x ∈ done ++ new
  expansion_mem : ∀ e ∈ new, ∀ x ∈ expansionOf d t e, x ∈ next
  next_mem : ∀ x ∈ next, (x ∈ cur ∧ expands cfg d t x = false) ∨ ∃ e ∈ new, x ∈ expansionOf d t e
  absences : next.countP cfg.isAbsenceMarker =
    cur.countP cfg.isAbsenceMarker + (new.flatMap (expansionOf d t)).countP cfg.isAbsenceMarker

/-- What holds of the loop's state from the start: the names expanded are distinct, expand and
give the intermediates; every name expanded has its provenance expanded or still among the
entries, and so has every entry of the start; everything is reachable; and the absence markers
are those of the start and of the provenances expanded. -/
structure Closing (p : Provenance) (cur done : List String) (inter : List Grounded) : Prop where
  nodup : done.Nodup
  expands_done : ∀ e ∈ done, expands cfg d t e = true
  inter_eq : inter = done.filterMap (intermediateOf d t)
  closed : ∀ e ∈ done, ∀ x ∈ expansionOf d t e, x ∈ done ∨ x ∈ cur
  start : ∀ x ∈ p.entries, x ∈ done ∨ x ∈ cur
  reach_cur : ∀ x ∈ cur, Reachable cfg d t p x
  reach_done : ∀ e ∈ done, Reachable cfg d t p e
  absences : cur.countP cfg.isAbsenceMarker =
    p.entries.countP cfg.isAbsenceMarker + (done.flatMap (expansionOf d t)).countP cfg.isAbsenceMarker

end Closure

variable {cfg : Config} {d : Dictionary} {t : Store}

theorem expandable?_eq_some_iff {e : String} {f : Fact} {s : Step} :
    expandable? d t e = some (f, s) ↔
      Fact.parse e = .ok f ∧ d.lookup? f.predicate f.arity = none ∧ t.firstNamed? e = some s ∧
        s.provenance.entries ≠ [] := by
  constructor
  · -- one case per step of `expandable?`: the parse, the dictionary, the step, its provenance
    intro h
    cases hp : Fact.parse e with
    | error err => simp [expandable?, hp, Except.toOption] at h
    | ok f' =>
      cases hl : d.lookup? f'.predicate f'.arity with
      | some _ => simp [expandable?, hp, hl, Except.toOption] at h
      | none =>
        cases hs : t.firstNamed? e with
        | none => simp [expandable?, hp, hs, Except.toOption] at h
        | some s' =>
          by_cases he : s'.provenance.entries = []
          · simp [expandable?, hp, hs, he, Except.toOption, Provenance.isEmpty] at h
          · simp [expandable?, hp, hl, hs, he, Except.toOption, Provenance.isEmpty] at h
            obtain ⟨rfl, rfl⟩ := h
            exact ⟨rfl, hl, rfl, he⟩
  · rintro ⟨hp, hl, hs, he⟩
    simp [expandable?, hp, hl, hs, he, Except.toOption, Provenance.isEmpty]

theorem expands_iff {e : String} :
    expands cfg d t e = true ↔ cfg.isAbsenceMarker e = false ∧ ∃ fs, expandable? d t e = some fs := by
  simp [expands, Option.isSome_iff_exists]

theorem expansionOf_of_expandable {e : String} {f : Fact} {s : Step}
    (h : expandable? d t e = some (f, s)) : expansionOf d t e = s.provenance.entries := by
  simp [expansionOf, h]

theorem expands_of_absence {e : String} (h : cfg.isAbsenceMarker e = true) : expands cfg d t e = false := by
  simp [expands, h]

theorem expands_of_expandable_none {e : String} (h : expandable? d t e = none) :
    expands cfg d t e = false := by
  simp [expands, h]

/-- A name that expands is the name of a step, so there are at most as many as steps. -/
theorem mem_names_of_expands {e : String} (h : expands cfg d t e = true) :
    e ∈ t.steps.toList.map (·.name) := by
  obtain ⟨-, ⟨f, s⟩, hfs⟩ := expands_iff.mp h
  have hs : t.steps.toList.find? (·.name == e) = some s := (expandable?_eq_some_iff.mp hfs).2.2.1
  have hname : s.name = e := by simpa using List.find?_some hs
  exact List.mem_map.mpr ⟨s, List.mem_of_find?_eq_some hs, hname⟩

/-! ### One round -/

section RoundFacts

variable {e : String} {rest done next new : List String}

/-- An entry that does not expand stays in place. -/
theorem RoundFacts.keep (h : RoundFacts cfg d t rest done next new) (he : expands cfg d t e = false) :
    RoundFacts cfg d t (e :: rest) done (e :: next) new := by
  obtain ⟨hnodup, hnew, hkept, hexp, hnext, habs⟩ := h
  refine ⟨hnodup, fun e' he' => ?_, fun x hx => ?_, fun e' he' x hx => ?_, fun x hx => ?_, ?_⟩
  · exact ⟨List.mem_cons_of_mem _ (hnew e' he').1, (hnew e' he').2⟩
  · rcases List.mem_cons.mp hx with rfl | hx
    · exact .inl List.mem_cons_self
    · exact (hkept x hx).imp (List.mem_cons_of_mem _) id
  · exact List.mem_cons_of_mem _ (hexp e' he' x hx)
  · rcases List.mem_cons.mp hx with rfl | hx
    · exact .inl ⟨List.mem_cons_self, he⟩
    · exact (hnext x hx).imp (fun h => ⟨List.mem_cons_of_mem _ h.1, h.2⟩) id
  · simp only [List.countP_cons, habs]
    omega

/-- An entry expanded before drops out. -/
theorem RoundFacts.drop (h : RoundFacts cfg d t rest done next new) (hd : e ∈ done)
    (ha : cfg.isAbsenceMarker e = false) : RoundFacts cfg d t (e :: rest) done next new := by
  obtain ⟨hnodup, hnew, hkept, hexp, hnext, habs⟩ := h
  refine ⟨hnodup, fun e' he' => ?_, fun x hx => ?_, hexp, fun x hx => ?_, ?_⟩
  · exact ⟨List.mem_cons_of_mem _ (hnew e' he').1, (hnew e' he').2⟩
  · rcases List.mem_cons.mp hx with rfl | hx
    · exact .inr (List.mem_append_left _ hd)
    · exact hkept x hx
  · exact (hnext x hx).imp (fun h => ⟨List.mem_cons_of_mem _ h.1, h.2⟩) id
  · simp [habs, ha]

/-- An entry that expands, for the first time, gives way to its provenance. -/
theorem RoundFacts.expand (h : RoundFacts cfg d t rest (done ++ [e]) next new)
    (he : expands cfg d t e = true) :
    RoundFacts cfg d t (e :: rest) done (expansionOf d t e ++ next) (e :: new) := by
  obtain ⟨hnodup, hnew, hkept, hexp, hnext, habs⟩ := h
  have ha : cfg.isAbsenceMarker e = false := (expands_iff.mp he).1
  refine ⟨by simpa using hnodup, fun e' he' => ?_, fun x hx => ?_, fun e' he' x hx => ?_,
    fun x hx => ?_, ?_⟩
  · rcases List.mem_cons.mp he' with rfl | he'
    · exact ⟨List.mem_cons_self, he⟩
    · exact ⟨List.mem_cons_of_mem _ (hnew e' he').1, (hnew e' he').2⟩
  · rcases List.mem_cons.mp hx with rfl | hx
    · exact .inr (by simp)
    · exact (hkept x hx).imp (List.mem_append_right _) (by simp)
  · rcases List.mem_cons.mp he' with rfl | he'
    · exact List.mem_append_left _ hx
    · exact List.mem_append_right _ (hexp e' he' x hx)
  · rcases List.mem_append.mp hx with hx | hx
    · exact .inr ⟨e, List.mem_cons_self, hx⟩
    · exact (hnext x hx).imp (fun h => ⟨List.mem_cons_of_mem _ h.1, h.2⟩)
        fun ⟨e', he', hx'⟩ => ⟨e', List.mem_cons_of_mem _ he', hx'⟩
  · simp only [List.countP_append, List.countP_cons, List.flatMap_cons, habs, ha,
      Bool.false_eq_true, if_false]
    omega

end RoundFacts

/-- One round, given names expanded before that all expand and are distinct: it expands the
names `new`, changes something exactly when there are any, and adds their intermediates. -/
theorem expandRound_facts {cur done next done' : List String} {inter inter' : List Grounded}
    {changed : Bool} (h : expandRound cfg d t cur done inter = (next, done', inter', changed))
    (hnd : done.Nodup) (hd : ∀ e ∈ done, expands cfg d t e = true) :
    ∃ new, done' = done ++ new ∧ inter' = inter ++ new.filterMap (intermediateOf d t) ∧
      (changed = false ↔ new = []) ∧ RoundFacts cfg d t cur done next new := by
  induction cur generalizing done inter next done' inter' changed with
  | nil =>
    simp only [expandRound, Prod.mk.injEq] at h
    obtain ⟨rfl, rfl, rfl, rfl⟩ := h
    exact ⟨[], by simp, by simp, by simp, by simpa using hnd, by simp, by simp, by simp,
      by simp, by simp⟩
  | cons e rest ih =>
    by_cases ha : cfg.isAbsenceMarker e = true
    · -- an absence marker stays where it is
      rcases hr : expandRound cfg d t rest done inter with ⟨next₁, done₁, inter₁, changed₁⟩
      simp only [expandRound, ha, if_true, hr, Prod.mk.injEq] at h
      obtain ⟨rfl, rfl, rfl, rfl⟩ := h
      obtain ⟨new, rfl, rfl, hchanged, hf⟩ := ih hr hnd hd
      exact ⟨new, rfl, rfl, hchanged, hf.keep (expands_of_absence ha)⟩
    · have ha : cfg.isAbsenceMarker e = false := by simpa using ha
      by_cases hdone : e ∈ done
      · -- expanded before: it drops out
        have hr : expandRound cfg d t rest done inter = (next, done', inter', changed) := by
          simpa [expandRound, ha, hdone] using h
        obtain ⟨new, rfl, rfl, hchanged, hf⟩ := ih hr hnd hd
        exact ⟨new, rfl, rfl, hchanged, hf.drop hdone ha⟩
      · cases hx : expandable? d t e with
        | none =>
          -- nothing to expand into: it stays
          rcases hr : expandRound cfg d t rest done inter with ⟨next₁, done₁, inter₁, changed₁⟩
          simp only [expandRound, ha, hdone, hx, hr, List.contains_iff_mem] at h
          obtain ⟨rfl, rfl, rfl, rfl⟩ := h
          obtain ⟨new, rfl, rfl, hchanged, hf⟩ := ih hr hnd hd
          exact ⟨new, rfl, rfl, hchanged, hf.keep (expands_of_expandable_none hx)⟩
        | some fs =>
          -- it expands: its provenance takes its place, and the rest goes on knowing it
          obtain ⟨f, s⟩ := fs
          have he : expands cfg d t e = true := expands_iff.mpr ⟨ha, _, hx⟩
          rcases hr : expandRound cfg d t rest (done ++ [e]) (inter ++ [⟨f, s.pattern⟩])
            with ⟨next₁, done₁, inter₁, changed₁⟩
          simp only [expandRound, ha, hdone, hx, hr, List.contains_iff_mem] at h
          obtain ⟨rfl, rfl, rfl, rfl⟩ := h
          have hnd' : (done ++ [e]).Nodup := by
            simpa [List.nodup_append] using ⟨hnd, fun a ha hae => hdone (hae ▸ ha)⟩
          have hd' : ∀ e' ∈ done ++ [e], expands cfg d t e' = true := by
            intro e' he'
            rcases List.mem_append.mp he' with he' | he'
            · exact hd e' he'
            · rw [List.mem_singleton.mp he']; exact he
          obtain ⟨new, rfl, rfl, -, hf⟩ := ih hr hnd' hd'
          refine ⟨e :: new, by simp, by simp [intermediateOf, hx], by simp, ?_⟩
          rw [← expansionOf_of_expandable hx]
          exact hf.expand he

/-! ### The loop -/

variable {p : Provenance}

theorem closing_start : Closing cfg d t p p.entries [] [] :=
  ⟨List.nodup_nil, by simp, rfl, by simp, fun _ hx => .inr hx,
    fun x hx => ⟨x, hx, Relation.ReflTransGen.refl⟩, by simp, by simp⟩

theorem Reachable.step {e x : String} (he : Reachable cfg d t p e) (hx : ExpandsTo cfg d t e x) :
    Reachable cfg d t p x := by
  obtain ⟨e₀, he₀, hpath⟩ := he
  exact ⟨e₀, he₀, hpath.tail hx⟩

/-- A round keeps the invariant. -/
theorem Closing.round {cur done next new : List String} {inter : List Grounded}
    (h : Closing cfg d t p cur done inter) (hf : RoundFacts cfg d t cur done next new) :
    Closing cfg d t p next (done ++ new) (inter ++ new.filterMap (intermediateOf d t)) := by
  obtain ⟨hnodup, hexp, hinter, hclosed, hstart, hrcur, hrdone, habs⟩ := h
  -- an entry of the old state is kept or expanded by now
  have move : ∀ x, x ∈ done ∨ x ∈ cur → x ∈ done ++ new ∨ x ∈ next := fun x hx =>
    hx.elim (fun hx => .inl (List.mem_append_left _ hx)) fun hx => (hf.kept x hx).symm
  refine ⟨hf.nodup, fun e he => ?_, by simp [hinter], fun e he x hx => ?_,
    fun x hx => move x (hstart x hx), fun x hx => ?_, fun e he => ?_, ?_⟩
  · rcases List.mem_append.mp he with he | he
    · exact hexp e he
    · exact (hf.new_mem e he).2
  · rcases List.mem_append.mp he with he | he
    · exact move x (hclosed e he x hx)
    · exact .inr (hf.expansion_mem e he x hx)
  · rcases hf.next_mem x hx with ⟨hx, -⟩ | ⟨e, he, hx⟩
    · exact hrcur x hx
    · exact (hrcur e (hf.new_mem e he).1).step ⟨(hf.new_mem e he).2, hx⟩
  · rcases List.mem_append.mp he with he | he
    · exact hrdone e he
    · exact hrcur e (hf.new_mem e he).1
  · rw [hf.absences, habs, List.flatMap_append, List.countP_append]
    omega

theorem Closing.length_le {cur done : List String} {inter : List Grounded}
    (h : Closing cfg d t p cur done inter) : done.length ≤ t.size := by
  have hle := h.nodup.length_le_of_subset fun e he => mem_names_of_expands (h.expands_done e he)
  simpa [Store.size] using hle

/-- A run keeps the invariant, ends with no entry left that expands, and every round but the
last expands a new name. -/
theorem Runs.closing {st fin : List String × List String × List Grounded} {k : Nat}
    (hrun : Runs cfg d t st k fin) (h : Closing cfg d t p st.1 st.2.1 st.2.2) :
    Closing cfg d t p fin.1 fin.2.1 fin.2.2 ∧ (∀ x ∈ fin.1, expands cfg d t x = false) ∧
      st.2.1.length + k ≤ fin.2.1.length + 1 := by
  induction hrun with
  | stop hr =>
    obtain ⟨new, rfl, rfl, hchanged, hf⟩ := expandRound_facts hr h.nodup h.expands_done
    obtain rfl := hchanged.mp rfl
    refine ⟨by simpa using h.round hf, fun x hx => ?_, by simp⟩
    rcases hf.next_mem x hx with ⟨-, hx⟩ | ⟨e, he, -⟩
    · exact hx
    · simp at he
  | more hr _ ih =>
    obtain ⟨new, rfl, rfl, hchanged, hf⟩ := expandRound_facts hr h.nodup h.expands_done
    have hne : new ≠ [] := fun hnil => absurd (hchanged.mpr hnil) (by simp)
    obtain ⟨hclosing, hstop, hlen⟩ := ih (h.round hf)
    refine ⟨hclosing, hstop, ?_⟩
    have : 0 < new.length := List.length_pos_iff.mpr hne
    dsimp only at hlen ⊢
    simp only [List.length_append] at hlen
    omega

/-- The bounded loop runs to its end: with more rounds to spare than names left to expand, it
stops by itself, and returns what the unbounded loop returns. -/
theorem expandRounds_runs {cur done : List String} {inter : List Grounded} {fuel : Nat}
    (h : Closing cfg d t p cur done inter) (hfuel : t.size - done.length < fuel) :
    ∃ k fin, Runs cfg d t (cur, done, inter) k fin ∧
      expandRounds cfg d t fuel cur done inter = (fin.1, fin.2.2) := by
  induction fuel generalizing cur done inter with
  | zero => omega
  | succ fuel ih =>
    rcases hr : expandRound cfg d t cur done inter with ⟨next, done', inter', changed⟩
    obtain ⟨new, rfl, rfl, hchanged, hf⟩ := expandRound_facts hr h.nodup h.expands_done
    cases changed with
    | false => exact ⟨1, _, .stop hr, by simp [expandRounds, hr]⟩
    | true =>
      -- a changing round expands a new name, and names are bounded by the steps
      have hne : new ≠ [] := fun hnil => absurd (hchanged.mpr hnil) (by simp)
      have hclosing := h.round hf
      have hlen : done.length + 1 ≤ (done ++ new).length := by
        have := List.length_pos_iff.mpr hne
        simp only [List.length_append]
        omega
      have hbound := hclosing.length_le
      obtain ⟨k, fin, hrun, heq⟩ := ih hclosing (by omega)
      exact ⟨k + 1, fin, .more hr hrun, by simp [expandRounds, hr, heq]⟩

/-- Reaching an entry from the provenance ends among the names expanded or the entries left,
once no entry left expands. -/
theorem mem_of_reachable {cur done : List String} {inter : List Grounded}
    (h : Closing cfg d t p cur done inter) (hstop : ∀ x ∈ cur, expands cfg d t x = false)
    {x : String} (hx : Reachable cfg d t p x) : x ∈ done ∨ x ∈ cur := by
  obtain ⟨e, he, hpath⟩ := hx
  induction hpath with
  | refl => exact h.start e he
  | tail _ hstep ih =>
    rcases ih with hy | hy
    · exact h.closed _ hy _ hstep.2
    · exact absurd hstep.1 (by simp [hstop _ hy])

/-! ### The result -/

theorem leafEntry_ne_absence (e : String) : leafEntry d t e ≠ .absence := by
  unfold leafEntry
  split
  · split <;> simp
  · simp

theorem classify_cons_fresh {e : String} {rest seen : List String}
    (ha : cfg.isAbsenceMarker e = false) (hs : e ∉ seen) :
    classify cfg d t (e :: rest) seen = leafEntry d t e :: classify cfg d t rest (seen ++ [e]) := by
  simp only [classify, ha, Bool.false_eq_true, if_false, List.contains_iff_mem, hs]
  rfl

/-- Classifying keeps every absence marker and shows the first occurrence of every other entry
not seen before. -/
theorem classify_spec (cfg : Config) (d : Dictionary) (t : Store) (cur seen : List String) :
    ∃ ls : List String, ls.Nodup ∧ (∀ x, x ∈ ls ↔ x ∈ cur ∧ cfg.isAbsenceMarker x = false ∧ x ∉ seen) ∧
      (classify cfg d t cur seen).filter (· != .absence) = ls.map (leafEntry d t) ∧
      (classify cfg d t cur seen).count .absence = cur.countP cfg.isAbsenceMarker := by
  induction cur generalizing seen with
  | nil => exact ⟨[], List.nodup_nil, by simp, by simp [classify], by simp [classify]⟩
  | cons e rest ih =>
    by_cases ha : cfg.isAbsenceMarker e = true
    · -- an absence marker: shown as such, whatever was seen
      obtain ⟨ls, hnd, hmem, hfilter, hcount⟩ := ih seen
      refine ⟨ls, hnd, fun x => ?_, by simp [classify, ha, hfilter], by simp [classify, ha, hcount]⟩
      rw [hmem]
      constructor
      · exact fun ⟨hx, hxa, hxs⟩ => ⟨List.mem_cons_of_mem _ hx, hxa, hxs⟩
      · rintro ⟨hx, hxa, hxs⟩
        rcases List.mem_cons.mp hx with rfl | hx
        · simp [ha] at hxa
        · exact ⟨hx, hxa, hxs⟩
    · have ha : cfg.isAbsenceMarker e = false := by simpa using ha
      by_cases hs : e ∈ seen
      · -- seen before: dropped
        obtain ⟨ls, hnd, hmem, hfilter, hcount⟩ := ih seen
        have hc : classify cfg d t (e :: rest) seen = classify cfg d t rest seen := by
          simp [classify, ha, hs]
        refine ⟨ls, hnd, fun x => ?_, by rw [hc, hfilter], by simp [hc, hcount, ha]⟩
        rw [hmem]
        constructor
        · exact fun ⟨hx, hxa, hxs⟩ => ⟨List.mem_cons_of_mem _ hx, hxa, hxs⟩
        · rintro ⟨hx, hxa, hxs⟩
          rcases List.mem_cons.mp hx with rfl | hx
          · exact absurd hs hxs
          · exact ⟨hx, hxa, hxs⟩
      · -- first occurrence: shown, and seen from now on
        obtain ⟨ls, hnd, hmem, hfilter, hcount⟩ := ih (seen ++ [e])
        have hne : e ∉ ls := fun he => (hmem e).mp he |>.2.2 (by simp)
        refine ⟨e :: ls, List.nodup_cons.mpr ⟨hne, hnd⟩, fun x => ?_, ?_, ?_⟩
        · rw [List.mem_cons, hmem]
          constructor
          · rintro (rfl | ⟨hx, hxa, hxs⟩)
            · exact ⟨List.mem_cons_self, ha, hs⟩
            · exact ⟨List.mem_cons_of_mem _ hx, hxa, fun h => hxs (List.mem_append_left _ h)⟩
          · rintro ⟨hx, hxa, hxs⟩
            rcases List.mem_cons.mp hx with rfl | hx
            · exact .inl rfl
            · by_cases hxe : x = e
              · exact .inl hxe
              · exact .inr ⟨hx, hxa, by simp [hxs, hxe]⟩
        · rw [classify_cons_fresh ha hs, List.filter_cons, hfilter]
          simp [leafEntry_ne_absence]
        · rw [classify_cons_fresh ha hs, List.count_cons, hcount]
          simp [leafEntry_ne_absence, ha]

theorem forall₂_isIntermediate {es : List String} (h : ∀ e ∈ es, expands cfg d t e = true) :
    List.Forall₂ (IsIntermediate t) es (es.filterMap (intermediateOf d t)) := by
  induction es with
  | nil => exact List.Forall₂.nil
  | cons e es ih =>
    obtain ⟨-, ⟨f, s⟩, hfs⟩ := expands_iff.mp (h e List.mem_cons_self)
    obtain ⟨hparse, -, hnamed, -⟩ := expandable?_eq_some_iff.mp hfs
    rw [List.filterMap_cons, show intermediateOf d t e = some ⟨f, s.pattern⟩ by
      simp [intermediateOf, hfs]]
    exact List.Forall₂.cons ⟨f, s, hparse, hnamed, rfl⟩
      (ih fun e' he' => h e' (List.mem_cons_of_mem _ he'))

/-- Expanding a provenance terminates and computes the expansion closure. The round loop stops
after `k` rounds, at most one more than the names `es` it expands; those are exactly the
reachable entries that expand, each once, and they give the intermediates in order. The entries
that are not absence markers are the reachable entries that do not expand, each once, and every
absence marker of the provenance or of a provenance expanded gives one absence entry. -/
theorem expand_closure (cfg : Config) (d : Dictionary) (t : Store) (p : Provenance) :
    ∃ (k : Nat) (cur es ls : List String),
      Runs cfg d t (p.entries, [], []) k (cur, es, (expand cfg d t p).intermediates) ∧
      k ≤ es.length + 1 ∧
      (expand cfg d t p).entries = classify cfg d t cur [] ∧
      es.Nodup ∧ (∀ e, e ∈ es ↔ Reachable cfg d t p e ∧ expands cfg d t e = true) ∧
      List.Forall₂ (IsIntermediate t) es (expand cfg d t p).intermediates ∧
      ls.Nodup ∧
      (∀ x, x ∈ ls ↔ Reachable cfg d t p x ∧ cfg.isAbsenceMarker x = false ∧
        expands cfg d t x = false) ∧
      (expand cfg d t p).entries.filter (· != .absence) = ls.map (leafEntry d t) ∧
      (expand cfg d t p).entries.count .absence =
        p.entries.countP cfg.isAbsenceMarker +
          (es.flatMap (expansionOf d t)).countP cfg.isAbsenceMarker := by
  obtain ⟨k, ⟨cur, es, inter⟩, hrun, hloop⟩ : ∃ k fin, Runs cfg d t (p.entries, [], []) k fin ∧
      expandRounds cfg d t (t.size + 1) p.entries [] [] = (fin.1, fin.2.2) :=
    expandRounds_runs closing_start (by omega)
  obtain ⟨hclosing, hstop, hlen⟩ := hrun.closing closing_start
  have hexpand : expand cfg d t p = ⟨classify cfg d t cur [], inter⟩ := by
    simp only [expand, hloop]
  obtain ⟨ls, hnd, hmem, hfilter, hcount⟩ := classify_spec cfg d t cur []
  -- once the loop stops, what is reachable is expanded or left
  have hreach : ∀ {x}, Reachable cfg d t p x → x ∈ es ∨ x ∈ cur := mem_of_reachable hclosing hstop
  rw [hexpand]
  refine ⟨k, cur, es, ls, hrun, by simpa using hlen, rfl, hclosing.nodup, fun e => ⟨fun he =>
    ⟨hclosing.reach_done e he, hclosing.expands_done e he⟩, fun ⟨hr, he⟩ => ?_⟩, ?_, hnd,
    fun x => ?_, hfilter, hcount.trans hclosing.absences⟩
  · exact (hreach hr).resolve_right fun hc => absurd he (by simp [hstop e hc])
  · have hinter : inter = es.filterMap (intermediateOf d t) := hclosing.inter_eq
    show List.Forall₂ _ es inter
    rw [hinter]
    exact forall₂_isIntermediate hclosing.expands_done
  · rw [hmem]
    constructor
    · rintro ⟨hx, hxa, -⟩
      exact ⟨hclosing.reach_cur x hx, hxa, hstop x hx⟩
    · rintro ⟨hr, hxa, hx⟩
      refine ⟨(hreach hr).resolve_left fun he => ?_, hxa, List.not_mem_nil⟩
      simp [hclosing.expands_done x he] at hx

end ChaseProse.Prose
