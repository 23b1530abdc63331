import ChaseProse.Proofs.Prose.Carried
/-! Where the negated atoms of a rule stand in the sentence of a derived fact: each once, in rule
order, after the positive atoms. -/

namespace ChaseProse.Prose
open ChaseProse.Chase ChaseProse.Rule

/-! ### The places of a sentence's body -/

/-- What stands at one place of the body: a fact described through the dictionary, an entry kept as
written, or a negated atom of the rule. -/
inductive Slot where
  | fact (g : Grounded)
  | literal (e : String)
  | negation (a : Atom)

def Slot.negation? : Slot → Option Atom
  | .negation a => some a
  | _ => none

def BodyEntry.isAbsence : BodyEntry → Bool
  | .absence => true
  | _ => false

/-- The atom a body entry adds to the record: the fact's compact text, or the entry as written. -/
def BodyEntry.atom? : BodyEntry → Option String
  | .fact g => some g.fact.render
  | .undescribed e => some e
  | .absence => none

/-- The places an entry takes when `before` absence markers come before it: a fact or an entry
kept as written takes one, a marker takes the negated atom of its rank if there is one. -/
def BodyEntry.slots (negs : List Atom) (before : Nat) : BodyEntry → List Slot
  | .fact g => [.fact g]
  | .undescribed e => [.literal e]
  | .absence => (negs[before]?).toList.map .negation

/-- The places the entries take, each entry in turn. -/
def placed (entries : List BodyEntry) (negs : List Atom) : List Slot :=
  entries.zipIdx.flatMap fun p => p.1.slots negs ((entries.take p.2).countP BodyEntry.isAbsence)

/-- The body place by place: the entries' places, then the negated atoms no marker took. -/
def arrange (entries : List BodyEntry) (negs : List Atom) : List Slot :=
  placed entries negs ++ (negs.drop (entries.countP BodyEntry.isAbsence)).map .negation

/-- A marker of rank `k + 1` among the negated atoms is one of rank `k` among all but the first. -/
theorem BodyEntry.slots_succ (negs : List Atom) (k : Nat) (e : BodyEntry) :
    e.slots negs (k + 1) = e.slots negs.tail k := by
  cases e <;> simp [slots, List.getElem?_tail]

@[simp] theorem placed_nil (negs : List Atom) : placed [] negs = [] := rfl

/-- An entry takes its places, and the entries after it see one negated atom fewer if it is a
marker. -/
theorem placed_cons (e : BodyEntry) (es : List BodyEntry) (negs : List Atom) :
    placed (e :: es) negs =
      e.slots negs 0 ++ placed es (if e.isAbsence then negs.tail else negs) := by
  rw [placed, List.zipIdx_cons, List.flatMap_cons, List.zipIdx_succ, List.flatMap_map]
  simp only [List.take_zero, List.countP_nil]
  congr 1
  rw [placed]
  congr 1
  funext p
  simp only [List.take_succ_cons, List.countP_cons]
  split <;> simp_all [BodyEntry.slots_succ]

@[simp] theorem placed_fact (g : Grounded) (es : List BodyEntry) (negs : List Atom) :
    placed (.fact g :: es) negs = .fact g :: placed es negs := by
  simp [placed_cons, BodyEntry.slots, BodyEntry.isAbsence]

@[simp] theorem placed_undescribed (e : String) (es : List BodyEntry) (negs : List Atom) :
    placed (.undescribed e :: es) negs = .literal e :: placed es negs := by
  simp [placed_cons, BodyEntry.slots, BodyEntry.isAbsence]

/-- A marker after the last negated atom holds nothing. -/
@[simp] theorem placed_absence_nil (es : List BodyEntry) :
    placed (.absence :: es) [] = placed es [] := by
  simp [placed_cons, BodyEntry.slots, BodyEntry.isAbsence]

/-- A marker holds the first negated atom left. -/
@[simp] theorem placed_absence_cons (es : List BodyEntry) (a : Atom) (negs : List Atom) :
    placed (.absence :: es) (a :: negs) = .negation a :: placed es negs := by
  simp [placed_cons, BodyEntry.slots, BodyEntry.isAbsence]

@[simp] theorem arrange_nil (negs : List Atom) : arrange [] negs = negs.map .negation := rfl

theorem arrange_cons (e : BodyEntry) (es : List BodyEntry) (negs : List Atom) :
    arrange (e :: es) negs =
      e.slots negs 0 ++ arrange es (if e.isAbsence then negs.tail else negs) := by
  rw [arrange, arrange, placed_cons, List.append_assoc, List.countP_cons]
  split <;> simp_all [List.drop_tail]

/-- Every negated atom has exactly one place, in rule order: markers take them one by one, and
those no marker took come after the entries. -/
theorem filterMap_negation_arrange (entries : List BodyEntry) (negs : List Atom) :
    (arrange entries negs).filterMap Slot.negation? = negs := by
  induction entries generalizing negs with
  | nil => simp [Function.comp_def, Slot.negation?]
  | cons e es ih =>
    rw [arrange_cons, List.filterMap_append, ih]
    cases e with
    | absence => cases negs <;> simp [BodyEntry.slots, BodyEntry.isAbsence, Slot.negation?]
    | fact g => simp [BodyEntry.slots, BodyEntry.isAbsence, Slot.negation?]
    | undescribed t => simp [BodyEntry.slots, BodyEntry.isAbsence, Slot.negation?]

/-- The atom a negated atom adds to the record: its compact text with the bindings filled in. -/
def negatedAtom (b : Bindings) (a : Atom) : String := (instantiate b a).1.fact.render

section Clauses

variable (cfg : Config) (d : Dictionary) (b : Bindings)

/-- The clause of one place, with the nulls the sentence has introduced so far: a negated atom
reads `it is not true that` and the atom described with the bindings filled in. -/
def Slot.clause (seen : NullTracker) : Slot → String × NullTracker
  | .fact g => describeOrLiteral cfg d g.fact g.pattern seen
  | .literal e => (e, seen)
  | .negation a =>
    let g := (instantiate b a).1
    let (text, seen) := describeOrLiteral cfg d g.fact g.pattern seen
    ("it is not true that " ++ text, seen)

@[simp] theorem Slot.clause_fact (g : Grounded) (seen : NullTracker) :
    (Slot.fact g).clause cfg d b seen = describeOrLiteral cfg d g.fact g.pattern seen := rfl

@[simp] theorem Slot.clause_literal (e : String) (seen : NullTracker) :
    (Slot.literal e).clause cfg d b seen = (e, seen) := rfl

theorem Slot.clause_negation (a : Atom) (seen : NullTracker) :
    (Slot.negation a).clause cfg d b seen =
      ("it is not true that " ++
        (describeOrLiteral cfg d (instantiate b a).1.fact (instantiate b a).1.pattern seen).1,
        (describeOrLiteral cfg d (instantiate b a).1.fact (instantiate b a).1.pattern seen).2) :=
  rfl

/-- The clauses of the places in order, one tracker of introduced nulls running through them. -/
def slotClauses : List Slot → NullTracker → List String × NullTracker
  | [], seen => ([], seen)
  | p :: ps, seen =>
    let (c, seen) := p.clause cfg d b seen
    let (cs, seen) := slotClauses ps seen
    (c :: cs, seen)

@[simp] theorem slotClauses_cons (p : Slot) (ps : List Slot) (seen : NullTracker) :
    slotClauses cfg d b (p :: ps) seen =
      ((p.clause cfg d b seen).1 :: (slotClauses cfg d b ps (p.clause cfg d b seen).2).1,
        (slotClauses cfg d b ps (p.clause cfg d b seen).2).2) := rfl

theorem slotClauses_append (ps qs : List Slot) (seen : NullTracker) :
    slotClauses cfg d b (ps ++ qs) seen =
      ((slotClauses cfg d b ps seen).1 ++
        (slotClauses cfg d b qs (slotClauses cfg d b ps seen).2).1,
        (slotClauses cfg d b qs (slotClauses cfg d b ps seen).2).2) := by
  induction ps generalizing seen with
  | nil => rfl
  | cons p ps ih =>
    simp only [List.cons_append, slotClauses, ih]

/-- One clause for each place. -/
theorem length_slotClauses (ps : List Slot) (seen : NullTracker) :
    (slotClauses cfg d b ps seen).1.length = ps.length := by
  induction ps generalizing seen with
  | nil => rfl
  | cons p ps ih => simp [ih]

/-- A negation clause is the clause of its atom's place, and adds the atom with its bindings. -/
theorem negationClause_eq (a : Atom) (seen : NullTracker) (u : List String) :
    ((negationClause cfg d b a seen u).1.text, (negationClause cfg d b a seen u).2.1) =
      (Slot.negation a).clause cfg d b seen ∧
    (negationClause cfg d b a seen u).1.atom = negatedAtom b a := by
  rcases hg : instantiate b a with ⟨g, free⟩
  rcases hd : describeOrLiteral cfg d g.fact g.pattern seen with ⟨text, seen'⟩
  unfold negationClause
  rw [hg]
  dsimp only
  rw [hd]
  unfold Slot.clause negatedAtom
  simp only [hg, hd, and_self]

end Clauses

namespace Explainer

variable (x : Explainer) (b : Bindings)

/-- The negated atoms no marker took: one clause each, in order, after the tracker so far. -/
theorem restNegations_spec (negs : List Atom) (seen : NullTracker) (u : List String) :
    ((x.restNegations b negs seen u).1.map (·.text), (x.restNegations b negs seen u).2.1) =
      slotClauses x.cfg x.dict b (negs.map .negation) seen ∧
    (x.restNegations b negs seen u).1.map (·.atom) = negs.map (negatedAtom b) := by
  induction negs generalizing seen u with
  | nil => exact ⟨rfl, rfl⟩
  | cons a negs ih =>
    obtain ⟨hclause, hatom⟩ := negationClause_eq x.cfg x.dict b a seen u
    rcases hn : negationClause x.cfg x.dict b a seen u with ⟨c, seen1, u1⟩
    rw [hn] at hclause hatom
    obtain ⟨h1, h2⟩ := ih seen1 u1
    rcases hr : x.restNegations b negs seen1 u1 with ⟨cs, seen2, u2⟩
    rw [hr] at h1 h2
    dsimp only at hclause hatom h1 h2
    simp only [restNegations, hn, hr, List.map_cons, slotClauses, ← hclause, ← h1, hatom, h2,
      and_self]

/-- The body clauses are the clauses of the entries' places, one tracker running through them: the
positive atoms are the entries' atoms, the markers take the first negated atoms in order and
leave the others. -/
theorem bodyClauses_spec (entries : List BodyEntry) (negs : List Atom) (seen : NullTracker)
    (u : List String) :
    let r := x.bodyClauses b entries negs seen u
    (r.1, r.2.2.2.2.1) = slotClauses x.cfg x.dict b (placed entries negs) seen ∧
    r.2.1 = entries.filterMap BodyEntry.atom? ∧
    r.2.2.1 = (negs.take (entries.countP BodyEntry.isAbsence)).map (negatedAtom b) ∧
    r.2.2.2.1 = negs.drop (entries.countP BodyEntry.isAbsence) := by
  induction entries generalizing negs seen u with
  | nil => exact ⟨rfl, rfl, rfl, rfl⟩
  | cons e es ih =>
    cases e with
    | fact g =>
      rcases hd : describeOrLiteral x.cfg x.dict g.fact g.pattern seen with ⟨text, seen1⟩
      obtain ⟨h1, h2, h3, h4⟩ := ih negs seen1 u
      rcases hr : x.bodyClauses b es negs seen1 u with ⟨cl, pos, neg, rest, seen2, u2⟩
      rw [hr] at h1 h2 h3 h4
      dsimp only at h1 h2 h3 h4
      have hbc : x.bodyClauses b (.fact g :: es) negs seen u =
          (text :: cl, g.fact.render :: pos, neg, rest, seen2, u2) := by
        rw [bodyClauses, hd]
        dsimp only
        rw [hr]
      have hs : slotClauses x.cfg x.dict b (placed (.fact g :: es) negs) seen =
          (text :: cl, seen2) := by
        simp only [placed_fact, slotClauses_cons, Slot.clause_fact, hd, ← h1]
      rw [hbc, hs]
      simp [BodyEntry.isAbsence, BodyEntry.atom?, h2, h3, h4]
    | undescribed t =>
      obtain ⟨h1, h2, h3, h4⟩ := ih negs seen u
      rcases hr : x.bodyClauses b es negs seen u with ⟨cl, pos, neg, rest, seen2, u2⟩
      rw [hr] at h1 h2 h3 h4
      dsimp only at h1 h2 h3 h4
      have hbc : x.bodyClauses b (.undescribed t :: es) negs seen u =
          (t :: cl, t :: pos, neg, rest, seen2, u2) := by
        rw [bodyClauses, hr]
      have hs : slotClauses x.cfg x.dict b (placed (.undescribed t :: es) negs) seen =
          (t :: cl, seen2) := by
        simp only [placed_undescribed, slotClauses_cons, Slot.clause_literal, ← h1]
      rw [hbc, hs]
      simp [BodyEntry.isAbsence, BodyEntry.atom?, h2, h3, h4]
    | absence =>
      cases negs with
      | nil =>
        rw [bodyClauses, placed_absence_nil]
        simpa [BodyEntry.isAbsence, BodyEntry.atom?, List.filterMap_cons] using ih [] seen u
      | cons a negs =>
        obtain ⟨hclause, hatom⟩ := negationClause_eq x.cfg x.dict b a seen u
        rcases hn : negationClause x.cfg x.dict b a seen u with ⟨c, seen1, u1⟩
        rw [hn] at hclause hatom
        obtain ⟨h1, h2, h3, h4⟩ := ih negs seen1 u1
        rcases hr : x.bodyClauses b es negs seen1 u1 with ⟨cl, pos, neg, rest, seen2, u2⟩
        rw [hr] at h1 h2 h3 h4
        dsimp only at hclause hatom h1 h2 h3 h4
        have hbc : x.bodyClauses b (.absence :: es) (a :: negs) seen u =
            (c.text :: cl, pos, c.atom :: neg, rest, seen2, u2) := by
          rw [bodyClauses, hn]
          dsimp only
          rw [hr]
        have hs : slotClauses x.cfg x.dict b (placed (.absence :: es) (a :: negs)) seen =
            (c.text :: cl, seen2) := by
          simp only [placed_absence_cons, slotClauses_cons, ← hclause, ← h1]
        rw [hbc, hs]
        simp [BodyEntry.isAbsence, BodyEntry.atom?, List.filterMap_cons, List.countP_cons, h2, h3,
          h4, hatom]

/-- The body clauses and then the clauses of the negated atoms no marker took are the clauses of
the arranged places, one tracker running through them, and the head is described after them; the
negated atoms among the atoms are all of them, in order. -/
theorem draft_shape (entries : List BodyEntry) (negs : List Atom) (f : Fact) (p : Pattern) :
    let r := x.bodyClauses b entries negs [] []
    let rn := x.restNegations b r.2.2.2.1 r.2.2.2.2.1 r.2.2.2.2.2
    let c := slotClauses x.cfg x.dict b (arrange entries negs) []
    r.1 ++ rn.1.map (·.text) = c.1 ∧ r.2.1 = entries.filterMap BodyEntry.atom? ∧
      r.2.2.1 ++ rn.1.map (·.atom) = negs.map (negatedAtom b) ∧
      (describe x.cfg x.dict f p rn.2.1).map (·.1) = (describe x.cfg x.dict f p c.2).map (·.1) := by
  obtain ⟨hb1, hb2, hb3, hb4⟩ := x.bodyClauses_spec b entries negs [] []
  rcases hbc : x.bodyClauses b entries negs [] [] with ⟨cl, pos, neg, rest, seen, u⟩
  rw [hbc] at hb1 hb2 hb3 hb4
  dsimp only at hb1 hb2 hb3 hb4 ⊢
  obtain ⟨hr1, hr2⟩ := x.restNegations_spec b rest seen u
  rcases hrn : x.restNegations b rest seen u with ⟨restNeg, seen', u'⟩
  rw [hrn] at hr1 hr2
  dsimp only at hr1 hr2 ⊢
  -- the markers' places, then the places of the negated atoms they left
  have harrange : slotClauses x.cfg x.dict b (arrange entries negs) [] =
      (cl ++ restNeg.map (·.text), seen') := by
    rw [arrange, slotClauses_append, ← hb1, ← hb4, ← hr1]
  rw [harrange, hb3, hr2, hb4, ← List.map_append, List.take_append_drop]
  exact ⟨rfl, hb2, rfl, rfl⟩

/-- A draft's body is the clauses of the arranged places from a tracker with no nulls, the places
taking the negated atoms of the step's rule (none without a rule) with the bindings of its positive
atoms and head; its atoms are the entries' atoms, then the negated atoms; its head is described
after the body, with the tracker the body leaves. -/
theorem draft_parts (i : Nat) (s : Step) (f : Fact) :
    let body := expand x.cfg x.dict x.store s.provenance
    let rule := (x.rules[i]?).getD none
    let b := (rule.map fun r =>
      bindHead (unify r.positiveAtoms body.candidates) r.head ⟨f, s.pattern⟩).getD []
    let negs := (rule.map Rule.negatedAtoms).getD []
    let r := slotClauses x.cfg x.dict b (arrange body.entries negs) []
    (x.draft i s f).body = r.1 ∧
    (x.draft i s f).positive = body.entries.filterMap BodyEntry.atom? ∧
    (x.draft i s f).negated = negs.map (negatedAtom b) ∧
    (x.draft i s f).head = (describe x.cfg x.dict f s.pattern r.2).map (·.1) := by
  dsimp only
  unfold draft
  generalize (x.rules[i]?).getD none = rule
  cases rule with
  | none =>
    simp only [Option.map_none, Option.getD_none]
    exact x.draft_shape [] _ _ _ _
  | some rule =>
    simp only [Option.map_some, Option.getD_some]
    exact x.draft_shape _ _ _ _ _

/-- With a rule, the negated atoms are the rule's, bound by its positive atoms and head. -/
theorem draft_of_rule {i : Nat} {s : Step} {f : Fact} {rule : Rule}
    (hrule : x.rules[i]? = some (some rule)) :
    let body := expand x.cfg x.dict x.store s.provenance
    let b := bindHead (unify rule.positiveAtoms body.candidates) rule.head ⟨f, s.pattern⟩
    let r := slotClauses x.cfg x.dict b (arrange body.entries rule.negatedAtoms) []
    (x.draft i s f).body = r.1 ∧
    (x.draft i s f).positive = body.entries.filterMap BodyEntry.atom? ∧
    (x.draft i s f).negated = rule.negatedAtoms.map (negatedAtom b) ∧
    (x.draft i s f).head = (describe x.cfg x.dict f s.pattern r.2).map (·.1) := by
  have h := x.draft_parts i s f
  simp only [hrule, Option.getD_some, Option.map_some] at h
  exact h

/-- How an explained derived step renders the negated atoms of its rule. The body of its sentence
has one clause for each place of the arranged body, in order, read with one tracker of introduced
nulls from none: the `j`-th absence marker among the expanded entries holds the `j`-th negated
atom, the negated atoms no marker took come after all the entries, and markers past the last
negated atom hold nothing, so the places hold every negated atom exactly once, in rule order. The
head is described with the tracker the body leaves. Among the atoms the negated ones, with the
bindings filled in, come right after the entries' atoms, in rule order. -/
theorem negations_placed_once {i : Nat} {c : Carried} {r : Record} {rule : Rule}
    (hd : x.derivedAt i = true) (hrule : x.rules[i]? = some (some rule))
    (hr : (x.step i c).1 = .emitted r) :
    ∃ s f head, x.store.step? i = some s ∧ s.fact = .ok f ∧
      let body := expand x.cfg x.dict x.store s.provenance
      let b := bindHead (unify rule.positiveAtoms body.candidates) rule.head ⟨f, s.pattern⟩
      let places := arrange body.entries rule.negatedAtoms
      let clauses := slotClauses x.cfg x.dict b places []
      places.filterMap Slot.negation? = rule.negatedAtoms ∧
      clauses.1.length = places.length ∧
      (describe x.cfg x.dict f s.pattern clauses.2).map (·.1) = some head ∧
      r.sentence = finishSentence (dropLead (sentenceText clauses.1
        (c.clauses ++ (x.draft i s f).conditions.map (·.text)) head
        ((x.draft i s f).definitions.map (·.text)))) ∧
      r.bodyAtoms = ",".intercalate (body.entries.filterMap BodyEntry.atom? ++
        rule.negatedAtoms.map (negatedAtom b) ++ c.atoms ++
        (x.draft i s f).definitions.map (·.atom) ++ (x.draft i s f).conditions.map (·.atom)) := by
  cases hc : x.carrying i with
  | passes =>
    have h := (step_of_passes hc c).2.2
    simp [hd, hr, Outcome.isEmitted] at h
  | defers =>
    rw [(step_of_defers hc c).1] at hr
    cases hr
  | emits s f head =>
    obtain ⟨hs, hf, hh, -, ho, -⟩ := step_of_emits hc c
    rw [ho, Outcome.emitted.injEq] at hr
    subst hr
    obtain ⟨hbody, hpos, hneg, hhead⟩ := x.draft_of_rule (s := s) (f := f) hrule
    refine ⟨s, f, head, hs, hf, filterMap_negation_arrange _ _, length_slotClauses .., ?_, ?_, ?_⟩
    · rw [← hhead, hh]
    · simp only [Draft.record, hbody]
    · simp only [Draft.record, hpos, hneg]

end Explainer

/-- A trace whose second step negates `s(X,Y)`, an absence marker standing in its provenance. -/
def negatedLink : Store :=
  ⟨#[{ name := "r(a,b)", pattern := ⟨[1, 1]⟩ },
    { name := "q(a)", pattern := ⟨[1]⟩, provenance := ⟨["r(a,b)", "null"]⟩,
      rule := "q(X) :- r(X,Y), not s(X,Y)." }]⟩

/-- Templates for `r`, `s` and `q`. -/
def linkDictionary : Dictionary :=
  ⟨[⟨"r", ["A", "B"], "A relates to B", []⟩, ⟨"s", ["A", "B"], "A is linked to B", []⟩,
    ⟨"q", ["A"], "A is q", []⟩]⟩

/-- The rule `q(X) :- r(X,Y), not s(X,Y).` -/
def negatedLinkRule : Rule :=
  ⟨⟨"q", [.var "X"]⟩, [.pos ⟨"r", [.var "X", .var "Y"]⟩, .neg ⟨"s", [.var "X", .var "Y"]⟩], [], []⟩

/-- The negated atom takes the marker's place, between the body fact and the head. -/
theorem negations_placed_once_negatedLink :
    let x := (Explainer.make {} linkDictionary negatedLink).1
    let r : Record := ⟨"Since \"a\" relates to \"b\", and it is not true that \"a\" is linked to \"b\", then \"a\" is q.",
      .empty, "q(a)", .intensional, "r(a,b),s(a,b)"⟩
    x.derivedAt 1 = true ∧ x.rules[1]? = some (some negatedLinkRule) ∧
      (x.step 1 {}).1 = .emitted r ∧
      ∃ s f head, x.store.step? 1 = some s ∧ s.fact = .ok f ∧
        let body := expand x.cfg x.dict x.store s.provenance
        let b := bindHead (unify negatedLinkRule.positiveAtoms body.candidates) negatedLinkRule.head
          ⟨f, s.pattern⟩
        let places := arrange body.entries negatedLinkRule.negatedAtoms
        let clauses := slotClauses x.cfg x.dict b places []
        places.filterMap Slot.negation? = negatedLinkRule.negatedAtoms ∧
        clauses.1.length = places.length ∧
        (describe x.cfg x.dict f s.pattern clauses.2).map (·.1) = some head ∧
        r.sentence = finishSentence (Explainer.dropLead (Explainer.sentenceText clauses.1
          (({} : Carried).clauses ++ (x.draft 1 s f).conditions.map (·.text)) head
          ((x.draft 1 s f).definitions.map (·.text)))) ∧
        r.bodyAtoms = ",".intercalate (body.entries.filterMap BodyEntry.atom? ++
          negatedLinkRule.negatedAtoms.map (negatedAtom b) ++ ({} : Carried).atoms ++
          (x.draft 1 s f).definitions.map (·.atom) ++ (x.draft 1 s f).conditions.map (·.atom)) := by
  intro x r
  have hd : x.derivedAt 1 = true := by decide +kernel
  have hrule : x.rules[1]? = some (some negatedLinkRule) := by decide +kernel
  have hr : (x.step 1 {}).1 = .emitted r := by decide +kernel
  exact ⟨hd, hrule, hr, x.negations_placed_once hd hrule hr⟩

end ChaseProse.Prose
