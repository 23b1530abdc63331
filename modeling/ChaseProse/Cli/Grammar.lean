/-! The command line's grammar and the texts made from it: help pages, usage lines and the
similarity test behind "a similar ... exists" tips. -/
namespace ChaseProse.Cli

def programName : String := "chase-verbalizer"

def programVersion : String := "0.1.0"

/-- An option that takes one value. -/
structure OptionSpec where
  long : String
  valueName : String
  help : String
  required : Bool := false
  default? : Option String := none
  deriving DecidableEq, Repr

/-- A subcommand: its positional arguments (value name and help) and its own options. -/
structure CommandSpec where
  name : String
  about : String
  positionals : List (String × String)
  options : List OptionSpec
  deriving Repr

def OptionSpec.display (o : OptionSpec) : String := "--" ++ o.long ++ " <" ++ o.valueName ++ ">"

def positionalDisplay (name : String) : String := "<" ++ name ++ ">"

def configOption : OptionSpec :=
  { long := "config", valueName := "CONFIG",
    help := "Path to pipeline configuration file (defaults apply when omitted)" }

def predicatesOption : OptionSpec :=
  { long := "predicates", valueName := "PREDICATES", help := "Predicate descriptions", required := true }

def outDirOption : OptionSpec :=
  { long := "out-dir", valueName := "OUT_DIR", help := "Directory receiving the three stage outputs",
    default? := some "." }

def numberSpec : CommandSpec :=
  ⟨"number", "Assign hierarchical numbers to every chase step",
    [("INPUT", "Chase trace to read"), ("OUTPUT", "Numbered trace to write")], []⟩

def aggregateSpec : CommandSpec :=
  ⟨"aggregate", "Rewrite the provenance of msum steps to their real contributors",
    [("INPUT", "Numbered chase trace to read"), ("OUTPUT", "Resolved trace to write")], []⟩

def verbalizeSpec : CommandSpec :=
  ⟨"verbalize", "Render every step as a sentence",
    [("INPUT", "Numbered, resolved chase trace to read"), ("OUTPUT", "Verbalized trace to write")],
    [predicatesOption]⟩

def runSpec : CommandSpec :=
  ⟨"run", "Run number, aggregate and verbalize in sequence", [("INPUT", "Raw chase trace to read")],
    [predicatesOption, outDirOption]⟩

def commandSpecs : List CommandSpec := [numberSpec, aggregateSpec, verbalizeSpec, runSpec]

def helpAbout : String := "Print this message or the help of the given subcommand(s)"

/-- Every subcommand name, the built-in `help` last. -/
def commandNames : List String := commandSpecs.map (·.name) ++ ["help"]

def CommandSpec.find? (name : String) : Option CommandSpec := commandSpecs.find? (·.name == name)

/-- The options a subcommand accepts: its own and the global configuration path. -/
def CommandSpec.allOptions (c : CommandSpec) : List OptionSpec := c.options ++ [configOption]

/-- Options in help order: declaration order first (the global option counts as the first),
then by name. -/
def CommandSpec.optionsInHelpOrder (c : CommandSpec) : List OptionSpec :=
  let ranked := c.options.zipIdx ++ [(configOption, 0)]
  (ranked.mergeSort fun a b => a.2 < b.2 || (a.2 == b.2 && decide (a.1.long ≤ b.1.long))).map (·.1)

def spaces (n : Nat) : String := String.ofList (List.replicate n ' ')

/-- Rows of a help section, names padded to the longest and two spaces before the text. -/
def helpSection (title : String) (rows : List (String × String)) : String :=
  let width := (rows.map (·.1.length)).foldl max 0
  title ++ ":\n" ++
    String.join (rows.map fun (n, h) => n ++ spaces (width - n.length + 2) ++ h ++ "\n")

/-- Option rows: a long-only option is indented past the room of a short flag. -/
def optionRows (opts : List OptionSpec) (flags : List (Char × String × String)) :
    List (String × String) :=
  let longest := ((opts.map fun o => o.display.length) ++
    flags.map (fun (f : Char × String × String) => f.2.1.length + 2)).foldl max 0
  let pad (s : String) := s ++ spaces (longest - s.length)
  opts.map (fun o => ("      " ++ pad o.display, o.help ++
      match o.default? with
      | some d => " [default: " ++ d ++ "]"
      | none => "")) ++
    flags.map fun (c, l, h) => ("  -" ++ String.singleton c ++ ", " ++ pad ("--" ++ l), h)

/-- A section whose names are already padded: the text follows after two spaces. -/
def paddedSection (title : String) (rows : List (String × String)) : String :=
  title ++ ":\n" ++ String.join (rows.map fun (n, h) => n ++ "  " ++ h ++ "\n")

/-- The usage of a subcommand in help: `[OPTIONS]`, the required options, the positionals. -/
def CommandSpec.usage (c : CommandSpec) : String :=
  programName ++ " " ++ c.name ++ " [OPTIONS]" ++
    String.join ((c.options.filter (·.required)).map fun o => " " ++ o.display) ++
    String.join (c.positionals.map fun p => " " ++ positionalDisplay p.1)

def topUsage : String := programName ++ " [OPTIONS] <COMMAND>"

def topHelp : String :=
  "Numbers, repairs and verbalizes the chase graph of a rule-based reasoner\n\n" ++
  "Usage: " ++ topUsage ++ "\n\n" ++
  helpSection "Commands" (commandSpecs.map (fun c => ("  " ++ c.name, c.about)) ++ [("  help", helpAbout)]) ++
  "\n" ++
  paddedSection "Options" (optionRows [configOption] [('h', "help", "Print help"), ('V', "version", "Print version")])

def CommandSpec.help (c : CommandSpec) : String :=
  c.about ++ "\n\n" ++ "Usage: " ++ c.usage ++ "\n\n" ++
  helpSection "Arguments" (c.positionals.map fun (n, h) => ("  " ++ positionalDisplay n, h)) ++ "\n" ++
  paddedSection "Options" (optionRows c.optionsInHelpOrder [('h', "help", "Print help")])

def helpCommandHelp : String :=
  helpAbout ++ "\n\n" ++ "Usage: " ++ programName ++ " help [COMMAND]...\n\n" ++
  helpSection "Arguments" [("  [COMMAND]...", "Print help for the subcommand(s)")]

def versionText : String := programName ++ " " ++ programVersion ++ "\n"

/-- The Jaro similarity of two words: matching characters within half the longer length,
less half the transposed ones. -/
def jaro (a b : List Char) : Float :=
  if a.isEmpty && b.isEmpty then 1
  else if a.isEmpty || b.isEmpty then 0
  else
    let range := max a.length b.length / 2 - 1
    -- for each character of `a`, the first free matching position of `b` within the range
    let (used, aHits) := a.zipIdx.foldl (fun (used, hits) (c, i) =>
      let lo := i - range
      let hi := min b.length (i + range + 1)
      match (b.zipIdx.filter fun (d, j) => lo ≤ j && j < hi && d == c && !used.contains j).head? with
      | some (_, j) => (j :: used, hits ++ [c])
      | none => (used, hits)) (([] : List Nat), ([] : List Char))
    let bHits := (b.zipIdx.filter fun (_, j) => used.contains j).map (·.1)
    let m := aHits.length
    if m == 0 then 0
    else
      let t := ((aHits.zip bHits).filter fun (x, y) => x != y).length / 2
      (m.toFloat / a.length.toFloat + m.toFloat / b.length.toFloat + (m - t).toFloat / m.toFloat) / 3

/-- The candidates similar enough to the word to suggest, least similar first. -/
def similar (word : String) (candidates : List String) : List String :=
  let scored := candidates.filterMap fun c =>
    let s := jaro word.toList c.toList
    if s > 0.7 then some (c, s) else none
  (scored.mergeSort fun x y => x.2 ≤ y.2).map (·.1)

end ChaseProse.Cli
