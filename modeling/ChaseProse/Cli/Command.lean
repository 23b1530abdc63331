import ChaseProse.Pipeline
/-! The commands of the command line: each loads the configuration, runs its stage or stages and
answers with one summary line `{"data": ..., "status": "ok"}`. -/
namespace ChaseProse.Cli
open ChaseProse.Files ChaseProse.Json ChaseProse.Pipeline

inductive Command where
  | number (input output : String)
  | aggregate (input output : String)
  | verbalize (input predicates output : String)
  | run (input predicates outDir : String)
  deriving DecidableEq, Repr

/-- The paths a command reads or writes. -/
def Command.paths : Command → List String
  | .number input output | .aggregate input output => [input, output]
  | .verbalize input predicates output => [input, predicates, output]
  | .run input predicates outDir => [input, predicates, outDir] ++ stageOutputs outDir

inductive CliError where
  | config (e : ConfigError)
  | stage (e : StageError)
  deriving DecidableEq, Repr

namespace CliError

def code : CliError → String
  | .config _ => "CHASE_CLI_CONFIG_ERROR"
  | .stage _ => "CHASE_CLI_STAGE_FAILED"

/-- The cause's code in brackets, then the cause's text. -/
def message : CliError → String
  | .config e => "[" ++ e.code ++ "] " ++ e.message
  | .stage e => "[" ++ e.code ++ "] " ++ e.message

def display (e : CliError) : String := e.code ++ ": " ++ e.message

end CliError

/-- The reason given for a configuration file that is not a configuration. -/
def unreadableConfig : String := "the text is not a configuration object"

/-- The configuration at the path with its log threshold, or the defaults without a path. A
directory opens but cannot be read. -/
def loadConfig (w : World) : Option String → Except ConfigError (Config × Severity)
  | none => .ok ({}, .info)
  | some p => do
    let text ← match w.read p with
      | .error e => throw (.read p e.message)
      | .ok .dir => throw (.read p Errno.isDirectory.message)
      | .ok (.file text) => pure text
    match (Json.readAs? Config.shape text).bind Config.ofValue? with
    | none => throw (.parse unreadableConfig)
    | some c => return (c, ← c.validate)

def numberingSummary (r : Numbering.Report) : Value :=
  .obj [("labels", .ofNat r.labels), ("roots", .ofNat r.roots), ("unreachable", .arr (r.unreachable.map .ofNat))]

def aggregationSummary (r : Aggregate.Report) : Value :=
  .obj [("aggregates", .ofNat r.aggregates), ("exact_single", .ofNat r.exactSingle),
    ("fallback", .ofNat r.fallback), ("first_in_group", .ofNat r.firstInGroup), ("pair", .ofNat r.pair),
    ("unparsed", .ofNat r.unparsed)]

def verbalizationSummary (r : Prose.Report) : Value :=
  .obj [("deferred", .ofNat r.deferred), ("dropped_conditions", .ofNat r.droppedConditions),
    ("emitted", .ofNat r.emitted), ("skipped", .ofNat r.skipped), ("undescribed", .ofNat r.undescribed),
    ("unparsed_rules", .ofNat r.unparsedRules)]

/-- Runs the command's stages and gives the summary's data; temporary files are named by `tf`. -/
def Command.execute (tf : TempFiles) (cfg : Config) : Command → Work Value
  | .number input output => do
    let r ← numberFile tf cfg input output
    pure (.obj [("command", .str "number"), ("numbering", numberingSummary r), ("output", .str output)])
  | .aggregate input output => do
    let r ← aggregateFile tf cfg input output
    pure (.obj [("aggregation", aggregationSummary r), ("command", .str "aggregate"), ("output", .str output)])
  | .verbalize input predicates output => do
    let r ← verbalizeFile tf cfg input predicates output
    pure (.obj [("command", .str "verbalize"), ("output", .str output), ("verbalization", verbalizationSummary r)])
  | .run input predicates outDir => do
    let r ← runAll tf cfg input predicates outDir
    pure (.obj [("aggregation", aggregationSummary r.aggregation), ("command", .str "run"),
      ("numbering", numberingSummary r.numbering), ("outputs", .ofStrings (stageOutputs outDir)),
      ("verbalization", verbalizationSummary r.verbalization)])

/-- What a command leaves: the files, the log with its threshold, the lines on standard output
and how it ended. -/
structure Outcome where
  world : World
  threshold : Severity
  log : List LogLine
  stdout : List String
  result : Except CliError Unit

/-- The log as written: the lines at or above the threshold. -/
def Outcome.stderr (o : Outcome) : String := renderLog o.threshold o.log

/-- Runs a command on the files, with the configuration file at `configPath` if one is given. -/
def runCommand (w : World) (configPath : Option String) (cmd : Command) : Outcome :=
  match loadConfig w configPath with
  | .error e => ⟨w, .info, [], [], .error (.config e)⟩
  | .ok (cfg, threshold) =>
    let loaded : LogLine :=
      ⟨"CONFIG_LOADED", .info, [("source", configPath.getD "defaults"), ("log_level", cfg.logLevel)]⟩
    let (r, s) := ((cmd.execute .unseen cfg).run ⟨w, [loaded]⟩).run
    match r with
    | .ok data =>
      ⟨s.world, threshold, s.log, [(Value.obj [("data", data), ("status", .str "ok")]).compact], .ok ()⟩
    | .error e => ⟨s.world, threshold, s.log, [], .error (.stage e)⟩

end ChaseProse.Cli
