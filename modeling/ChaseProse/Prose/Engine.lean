import ChaseProse.Prose.Clause
import ChaseProse.Prose.Expand
import ChaseProse.Prose.Sentence
import ChaseProse.Rule.Parser
import ChaseProse.Notice
import ChaseProse.Chase.Wire
/-! Explaining a trace step by step: an input fact is its template's sentence, a derived fact reads
`Since …, then …`, and a step without a head template defers its conditions. -/
namespace ChaseProse.Prose
open ChaseProse.Chase ChaseProse.Rule

inductive RecordKind where
  | extensional
  | intensional
  | undescribed
  deriving DecidableEq, Repr

def RecordKind.name : RecordKind → String
  | .extensional => "extensional"
  | .intensional => "intensional"
  | .undescribed => "undescribed"

/-- One sentence of the explanation. -/
structure Record where
  sentence : String
  labelling : Labelling
  derivedFact : String
  kind : RecordKind
  /-- Facts, definitions and conditions used in the sentence, comma-joined. -/
  bodyAtoms : String
  deriving DecidableEq, Repr

/-- A record as the verbalized document writes it; the number is always written. -/
def Record.toValue (r : Record) : Json.Value :=
  .obj [("sentence", .str r.sentence), ("number", r.labelling.toValue), ("derived_fact", .str r.derivedFact),
    ("type", .str r.kind.name), ("body_atoms", .str r.bodyAtoms)]

/-- A fact no template describes: the sentence is the fact text itself. -/
def Record.undescribedStep (s : Step) : Record := ⟨s.name, s.labelling, s.name, .undescribed, ""⟩

inductive Outcome where
  | emitted (r : Record)
  | deferred
  | skipped
  | undescribed (r : Record)
  deriving DecidableEq, Repr

namespace Outcome

def record? : Outcome → Option Record
  | .emitted r | .undescribed r => some r
  | _ => none

def name : Outcome → String
  | .emitted _ => "Emitted"
  | .deferred => "Deferred"
  | .skipped => "Skipped"
  | .undescribed _ => "Undescribed"

end Outcome

/-- Condition clauses of deferred steps, with their atoms, waiting for the next sentence. -/
structure Carried where
  clauses : List String := []
  atoms : List String := []
  deriving DecidableEq, Repr, Inhabited

def Carried.isEmpty (c : Carried) : Bool := c.clauses.isEmpty && c.atoms.isEmpty

def Carried.carry (c : Carried) (cs : List Clause) : Carried :=
  ⟨c.clauses ++ cs.map (·.text), c.atoms ++ cs.map (·.atom)⟩

/-- What the explanation needs of a trace: the steps, their parsed rules, the dictionary and
the settings. -/
structure Explainer where
  cfg : Config
  dict : Dictionary
  store : Store
  rules : List (Option Rule)

/-- Parses every step's rule once, noting each split or failure. -/
def Explainer.make (cfg : Config) (dict : Dictionary) (t : Store) : Explainer × List Notice × Nat :=
  let parsed := t.steps.toList.zipIdx.map fun (s, i) =>
    if !s.hasRule then (none, none)
    else
      match Rule.parse s.rule with
      | .ok r =>
        (some r, some (Notice.ruleSplit i r.bodyOnly (",".intercalate (r.conditions.map Condition.render))
          (",".intercalate (r.assignments.map Assignment.render))))
      | .error e => (none, some (Notice.ruleUnparsed i e))
  let unparsed := (parsed.filter fun (r, n) => r.isNone && n.isSome).length
  (⟨cfg, dict, t, parsed.map (·.1)⟩, parsed.filterMap (·.2), unparsed)

namespace Explainer

/-- A fact with no rule behind it: its template's sentence with fresh nulls. -/
def extensional (x : Explainer) (i : Nat) (s : Step) : Outcome × List Notice :=
  let text := match s.fact with
    | .ok f => (describe x.cfg x.dict f s.pattern []).map (·.1)
    | .error _ => none
  match text with
  | some t => (.emitted ⟨finishSentence t, s.labelling, s.name, .extensional, ""⟩, [])
  | none => (.undescribed (Record.undescribedStep s), [.factUndescribed i s.name])

/-- The body clauses: described facts, undescribed entries as written, and the negated atoms
at the absence markers in turn, the rest of them after. -/
def bodyClauses (x : Explainer) (b : Bindings) :
    List BodyEntry → List Atom → NullTracker → List String →
      List String × List String × List String × List Atom × NullTracker × List String
  | [], negs, seen, unresolved => ([], [], [], negs, seen, unresolved)
  | .fact g :: rest, negs, seen, unresolved =>
    let (text, seen) := describeOrLiteral x.cfg x.dict g.fact g.pattern seen
    let (cl, pos, neg, negs, seen, unresolved) := x.bodyClauses b rest negs seen unresolved
    (text :: cl, g.fact.render :: pos, neg, negs, seen, unresolved)
  | .undescribed e :: rest, negs, seen, unresolved =>
    let (cl, pos, neg, negs, seen, unresolved) := x.bodyClauses b rest negs seen unresolved
    (e :: cl, e :: pos, neg, negs, seen, unresolved)
  | .absence :: rest, [], seen, unresolved => x.bodyClauses b rest [] seen unresolved
  | .absence :: rest, a :: negs, seen, unresolved =>
    let (c, seen, unresolved) := negationClause x.cfg x.dict b a seen unresolved
    let (cl, pos, neg, negs, seen, unresolved) := x.bodyClauses b rest negs seen unresolved
    (c.text :: cl, pos, c.atom :: neg, negs, seen, unresolved)

/-- Negation clauses for the negated atoms no absence marker took. -/
def restNegations (x : Explainer) (b : Bindings) :
    List Atom → NullTracker → List String → List Clause × NullTracker × List String
  | [], seen, unresolved => ([], seen, unresolved)
  | a :: negs, seen, unresolved =>
    let (c, seen, unresolved) := negationClause x.cfg x.dict b a seen unresolved
    let (cs, seen, unresolved) := x.restNegations b negs seen unresolved
    (c :: cs, seen, unresolved)

def conditionClauses (b : Bindings) : List Condition → List String → List Clause × List String
  | [], unresolved => ([], unresolved)
  | c :: cs, unresolved =>
    let (cl, unresolved) := conditionClause b c unresolved
    let (rest, unresolved) := conditionClauses b cs unresolved
    (cl :: rest, unresolved)

def assignmentClauses (b : Bindings) : List Assignment → List String → List Clause × List String
  | [], unresolved => ([], unresolved)
  | a :: as, unresolved =>
    let (cl, unresolved) := assignmentClause b a unresolved
    let (rest, unresolved) := assignmentClauses b as unresolved
    (cl :: rest, unresolved)

/-- The sentence text before finishing: `Since` and the body clauses, each condition after
`, and`, the head after `, then`, each definition after a comma. -/
def sentenceText (body conditions : List String) (head : String) (defs : List String) : String :=
  let bodyText := match body with
    | [] => ""
    | c :: cs => "Since " ++ c ++ String.join (cs.map (", and " ++ ·))
  bodyText ++ String.join (conditions.map (", and " ++ ·)) ++ ", then " ++ head ++
    String.join (defs.map (", " ++ ·))

/-- Drops leading commas and spaces. -/
def dropLead (s : String) : String :=
  String.ofList (s.toList.dropWhile fun c => c == ',' || c == ' ')

/-- What the explanation of a derived fact is built from, apart from the conditions carried
to it: the body clauses with their positive and negated atoms, its own condition clauses, the
head's sentence (none when no template describes the head), the definitions, the variables
left without a value and the notices so far. -/
structure Draft where
  body : List String
  positive : List String
  negated : List String
  conditions : List Clause
  head : Option String
  definitions : List Clause
  unresolved : List String
  notices : List Notice

/-- The draft of step `i`, whose step `s` carries the fact `f`. -/
def draft (x : Explainer) (i : Nat) (s : Step) (f : Fact) : Draft :=
  let derived : Grounded := ⟨f, s.pattern⟩
  let rule := (x.rules[i]?).getD none
  let body := expand x.cfg x.dict x.store s.provenance
  let b := match rule with
    | some r => bindHead (unify r.positiveAtoms body.candidates) r.head derived
    | none => []
  let negs := (rule.map Rule.negatedAtoms).getD []
  let (cl, pos, neg, negs, seen, unresolved) := x.bodyClauses b body.entries negs [] []
  let (restNeg, seen, unresolved) := x.restNegations b negs seen unresolved
  let (conds, unresolved) := conditionClauses b ((rule.map (·.conditions)).getD []) unresolved
  let (defs, unresolved) := assignmentClauses b ((rule.map (·.assignments)).getD []) unresolved
  { body := cl ++ restNeg.map (·.text), positive := pos, negated := neg ++ restNeg.map (·.atom),
    conditions := conds, head := (describe x.cfg x.dict derived.fact derived.pattern seen).map (·.1),
    definitions := defs, unresolved := unresolved,
    notices := body.undescribed.map (Notice.factUndescribed i) }

/-- The record of a derived step whose head reads `head`: the carried conditions come before its
own, in the sentence and among the atoms. -/
def Draft.record (d : Draft) (s : Step) (head : String) (carried : Carried) : Record :=
  let text := sentenceText d.body (carried.clauses ++ d.conditions.map (·.text)) head
    (d.definitions.map (·.text))
  let atoms := d.positive ++ d.negated ++ carried.atoms ++ d.definitions.map (·.atom) ++
    d.conditions.map (·.atom)
  ⟨finishSentence (dropLead text), s.labelling, s.name, .intensional, ",".intercalate atoms⟩

/-- A derived fact. Without a head template its conditions are carried on; otherwise its record
takes the carried conditions and nothing is carried further. -/
def intensional (x : Explainer) (i : Nat) (s : Step) (carried : Carried) :
    Outcome × Carried × List Notice :=
  match s.fact with
  | .error _ => (.undescribed (Record.undescribedStep s), carried, [.factUndescribed i s.name])
  | .ok f =>
    let d := x.draft i s f
    match d.head with
    | none =>
      (.deferred, carried.carry d.conditions,
        d.notices ++ [.stepDeferred i s.name d.conditions.length])
    | some head =>
      let notices := if d.unresolved.isEmpty then d.notices
        else d.notices ++ [.variableUnresolved i (",".intercalate d.unresolved)]
      (.emitted (d.record s head carried), {}, notices)

/-- Explains step `i`, taking and returning the carried conditions. -/
def step (x : Explainer) (i : Nat) (carried : Carried) : Outcome × Carried × List Notice :=
  match x.store.step? i with
  | none => (.skipped, carried, [])
  | some s =>
    if s.labelling.isExcluded then (.skipped, carried, [])
    else if s.isGround || !s.hasRule then
      let (o, ns) := x.extensional i s
      (o, carried, ns)
    else x.intensional i s carried

end Explainer

structure Report where
  emitted : Nat := 0
  deferred : Nat := 0
  skipped : Nat := 0
  undescribed : Nat := 0
  unparsedRules : Nat := 0
  droppedConditions : Nat := 0
  deriving DecidableEq, Repr

def Report.count (r : Report) : Outcome → Report
  | .emitted _ => { r with emitted := r.emitted + 1 }
  | .deferred => { r with deferred := r.deferred + 1 }
  | .skipped => { r with skipped := r.skipped + 1 }
  | .undescribed _ => { r with undescribed := r.undescribed + 1 }

/-- The outcome of every step in order, with the carried conditions after each. -/
def Explainer.run (x : Explainer) : List (Outcome × Carried) × List Notice :=
  let (outs, _, notices) := (List.range x.store.size).foldl (fun (outs, carried, ns) i =>
    let (o, carried, more) := x.step i carried
    (outs ++ [(o, carried)], carried, ns ++ more)) ([], ({} : Carried), [])
  (outs, notices)

/-- The explanation of a trace: the records in order, the counts, the outcome of every step
with the carried conditions after it, and the notices. -/
structure Explanation where
  records : List Record
  report : Report
  trace : List (Outcome × Carried)
  notices : List Notice

/-- Explains a whole trace. Conditions still carried after the last step are dropped, and
counted. -/
def explain (cfg : Config) (dict : Dictionary) (t : Store) : Explanation :=
  let (x, ruleNotices, unparsed) := Explainer.make cfg dict t
  let (outs, notices) := x.run
  let report := outs.foldl (fun r (o, _) => r.count o) { unparsedRules := unparsed }
  let last := ((outs.getLast?).map (·.2)).getD {}
  let (report, tail) :=
    if last.isEmpty then (report, [])
    else ({ report with droppedConditions := last.clauses.length }, [Notice.carriedDropped last.clauses.length])
  ⟨outs.filterMap (·.1.record?), report, outs, ruleNotices ++ notices ++ tail⟩

end ChaseProse.Prose
