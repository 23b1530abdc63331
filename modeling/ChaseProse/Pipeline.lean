import ChaseProse.Files.Document
import ChaseProse.Chase.Wire
import ChaseProse.Chase.Store
import ChaseProse.Numbering
import ChaseProse.Aggregate.Resolve
import ChaseProse.Prose.Engine
/-! The three stages over files, numbering, aggregate repair and verbalization, each in a logged
scope; `chain` runs them in memory, through their document texts. -/
namespace ChaseProse.Pipeline
open ChaseProse.Files ChaseProse.Chase ChaseProse.Json ChaseProse.Prose

inductive Stage where
  | numbering
  | aggregation
  | verbalization
  deriving DecidableEq, Repr

def Stage.name : Stage → String
  | .numbering => "NUMBERING"
  | .aggregation => "AGGREGATION"
  | .verbalization => "VERBALIZATION"

/-- Why a stage failed; the code and text are those of the cause. -/
inductive StageError where
  | chase (e : ChaseError)
  | numbering (e : Numbering.NumberingError)
  | dictionary (e : DictionaryError)
  deriving DecidableEq, Repr

def StageError.code : StageError → String
  | .chase e => e.code
  | .numbering e => e.code
  | .dictionary e => e.code

def StageError.message : StageError → String
  | .chase e => e.message
  | .numbering e => e.message
  | .dictionary e => e.message

/-- The files and the log of a run so far. -/
structure Session where
  world : World
  log : List LogLine := []

/-- A piece of a run: it may fail, and what it logged and wrote before failing stays. -/
abbrev Work := ExceptT StageError (StateM Session)

def emit (l : LogLine) : Work Unit := modify fun s => { s with log := s.log ++ [l] }

def emitNotices (ns : List Notice) : Work Unit := ns.forM fun n => emit n.toLine

def orFail {α ε : Type} (wrap : ε → StageError) : Except ε α → Work α
  | .ok a => pure a
  | .error e => throw (wrap e)

/-- Reads and checks a trace, logging how many steps it has. -/
def loadStore (input : String) : Work Store := do
  let steps ← orFail .chase ((← get).world.readDocument input stepsShape readSteps?)
  let t ← orFail .chase (Store.ofSteps steps)
  emit ⟨"TRACE_LOADED", .info, [("path", input), ("steps", toString t.size)]⟩
  pure t

def loadDictionary (path : String) : Work Dictionary := do
  let ds ← orFail .chase ((← get).world.readDocument path descriptorsShape readDescriptors?)
  orFail .dictionary (Dictionary.ofDescriptors ds)

/-- Writes a stage's document; the world after the attempt is kept, failed or not. -/
def save (tf : TempFiles) (output : String) (v : Value) : Work Unit := do
  let (w, written) := (← get).world.writeJson tf output v
  modify fun s => { s with world := w }
  orFail .chase written
  emit ⟨"OUTPUT_WRITTEN", .info, [("path", output)]⟩

/-- Runs `body` as the stage `stage`. The model takes no time, so the elapsed time is 0. -/
def staged {α : Type} (stage : Stage) (input output : String) (body : Work α)
    (counters : α → List (String × String)) : Work α := do
  emit ⟨stage.name ++ "_BEGIN", .info, [("input", input), ("output", output)]⟩
  try
    let r ← body
    emit ⟨stage.name ++ "_COMPLETE", .info, counters r ++ [("elapsed_ms", "0")]⟩
    pure r
  catch e =>
    emit ⟨stage.name ++ "_FAILED", .error, [("code", e.code), ("reason", e.message)]⟩
    throw e

def numberFile (tf : TempFiles) (cfg : Config) (input output : String) : Work Numbering.Report :=
  staged .numbering input output (do
    let t ← loadStore input
    let (notices, result) := Numbering.number cfg t
    emitNotices notices
    let (t, report) ← orFail .numbering result
    save tf output (stepsToValue t.steps.toList)
    pure report)
    fun r => [("roots", toString r.roots), ("labels", toString r.labels),
      ("unreachable", toString r.unreachable.length)]

def aggregateFile (tf : TempFiles) (cfg : Config) (input output : String) : Work Aggregate.Report :=
  staged .aggregation input output (do
    let t ← loadStore input
    let (notices, t, report) := Aggregate.resolve cfg t
    emitNotices notices
    save tf output (stepsToValue t.steps.toList)
    pure report)
    fun r => [("aggregates", toString r.aggregates), ("exact_single", toString r.exactSingle),
      ("pair", toString r.pair), ("fallback", toString r.fallback),
      ("first_in_group", toString r.firstInGroup)]

def verbalizeFile (tf : TempFiles) (cfg : Config) (input predicates output : String) : Work Prose.Report :=
  staged .verbalization input output (do
    let t ← loadStore input
    let d ← loadDictionary predicates
    let x := explain cfg d t
    emitNotices x.notices
    save tf output (.arr (x.records.map Record.toValue))
    pure x.report)
    fun r => [("emitted", toString r.emitted), ("deferred", toString r.deferred),
      ("skipped", toString r.skipped), ("undescribed", toString r.undescribed)]

/-- The three outputs of a full run, inside the output directory. -/
def stageOutputs (outDir : String) : List String :=
  ["num_chase_graph.json", "aggr_chase_graph.json", "verb_chase_graph.json"].map (Path.join outDir)

structure RunReport where
  numbering : Numbering.Report
  aggregation : Aggregate.Report
  verbalization : Prose.Report

/-- Creates the output directory, then runs the three stages, each reading the last one's
output. -/
def runAll (tf : TempFiles) (cfg : Config) (input predicates outDir : String) : Work RunReport := do
  let (w, made) := (← get).world.makeDirs outDir
  modify fun s => { s with world := w }
  orFail (fun e => .chase (.io outDir ⟨e, none⟩)) made
  let numbered := Path.join outDir "num_chase_graph.json"
  let aggregated := Path.join outDir "aggr_chase_graph.json"
  let numbering ← numberFile tf cfg input numbered
  let aggregation ← aggregateFile tf cfg numbered aggregated
  let verbalization ← verbalizeFile tf cfg aggregated predicates (Path.join outDir "verb_chase_graph.json")
  pure ⟨numbering, aggregation, verbalization⟩

/-- A trace as the next stage reads it: written as a document and read back. -/
def reread (t : Store) : Except ChaseError Store :=
  match (Json.read? .document (stepsToValue t.steps.toList).compact).bind readSteps? with
  | some steps => Store.ofSteps steps
  | none => .error (.malformedDocument "" undecodable)

structure Chained where
  numbered : Store
  numbering : Numbering.Report
  aggregated : Store
  aggregation : Aggregate.Report
  explanation : Explanation

def inStage {α ε : Type} (s : Stage) (wrap : ε → StageError) : Except ε α → Except (Stage × StageError) α
  | .ok a => .ok a
  | .error e => .error (s, wrap e)

/-- The three stages in memory on decoded steps and raw descriptors; the descriptors are read
by the verbalization stage, after the first two succeed. -/
def chain (cfg : Config) (steps : Value) (descriptors : Value) : Except (Stage × StageError) Chained := do
  let ss ← inStage .numbering .chase ((readSteps? steps).elim (.error (.malformedDocument "" undecodable)) .ok)
  let t ← inStage .numbering .chase (Store.ofSteps ss)
  let (numbered, nr) ← inStage .numbering .numbering (Numbering.number cfg t).2
  let t ← inStage .aggregation .chase (reread numbered)
  let (_, aggregated, ar) := Aggregate.resolve cfg t
  let t ← inStage .verbalization .chase (reread aggregated)
  let ds ← inStage .verbalization .chase
    ((readDescriptors? descriptors).elim (.error (.malformedDocument "" undecodable)) .ok)
  let d ← inStage .verbalization .dictionary (Dictionary.ofDescriptors ds)
  pure ⟨numbered, nr, aggregated, ar, explain cfg d t⟩

end ChaseProse.Pipeline
