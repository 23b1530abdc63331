import ChaseProse.Cli.Grammar
import ChaseProse.Cli.Command
/-! Reading the command line into the matches of each level, the program and then the subcommand,
with the `error:` text, tips and usage line of a bad argument. -/
namespace ChaseProse.Cli

/-- What the arguments ask for. -/
inductive Invocation where
  | execute (config : Option String) (cmd : Command)
  /-- Help or version text, printed on standard output. -/
  | inform (text : String)
  /-- A usage error, printed on standard error. -/
  | refuse (text : String)
  deriving DecidableEq, Repr

/-- An error text without its last line: the cause, the tips after a blank line, and the
usage. -/
def errorBody (cause : String) (tips : List String) (usage : Option String) : String :=
  "error: " ++ cause ++
    (if tips.isEmpty then "" else "\n" ++ String.join (tips.map fun t => "\n  tip: " ++ t)) ++
    (match usage with
      | some u => "\n\nUsage: " ++ u
      | none => "")

/-- An error text of a command that has a help flag: the body and the pointer to help. -/
def usageError (cause : String) (tips : List String) (usage : Option String) : String :=
  errorBody cause tips usage ++ "\n\nFor more information, try '--help'.\n"

def quoted (s : String) : String := "'" ++ s ++ "'"

/-- The tip naming similar candidates. -/
def similarTip (kind : String) : List String → List String
  | [] => []
  | [c] => ["a similar " ++ kind ++ " exists: " ++ quoted c]
  | cs => ["some similar " ++ kind ++ "s exist: " ++ ", ".intercalate (cs.map quoted)]

def emptyValue (display : String) : String :=
  usageError ("a value is required for " ++ quoted display ++ " but none was supplied") [] none

/-- The tip for a word that reads as a flag but could be meant as a value. -/
def trailingTip (t : String) : String := "to pass " ++ quoted t ++ " as a value, use " ++ quoted ("-- " ++ t)

def unexpected (t : String) (tips : List String) (usage : String) : Invocation :=
  .refuse (usageError ("unexpected argument " ++ quoted t ++ " found") tips (some usage))

/-- The long name and the value written after the first `=`, of a word starting with `--`. -/
def splitLong (t : String) : String × Option String :=
  match (t.drop 2).toString.splitOn "=" with
  | [] => ("", none)
  | [n] => (n, none)
  | n :: rest => (n, some ("=".intercalate rest))

/-- What an argument does when given. -/
inductive Action where
  /-- It takes one value. -/
  | value
  | help
  | version
  deriving DecidableEq, Repr

/-- An argument of a command level. -/
structure ArgSpec where
  id : String
  long? : Option String := none
  short? : Option Char := none
  action : Action := .value
  /-- How usage lines and errors write it. -/
  display : String
  /-- How a group's usage writes it, when it is a positional. -/
  valueName : String := ""
  /-- The place of a positional, from one. -/
  index? : Option Nat := none
  required : Bool := false
  default? : Option String := none
  deriving Repr

def ArgSpec.isPositional (a : ArgSpec) : Bool := a.index?.isSome

/-- A command level: its name in usage lines, its arguments in lookup order, the group of its
record (an id and the member ids), its subcommands, and its help usage and text. -/
structure Level where
  path : String
  args : List ArgSpec
  group : String × List String
  subcommands : List String
  helpUsage : String
  helpText : String

def configArg : ArgSpec := { id := "config", long? := some "config", display := configOption.display }

def helpArg : ArgSpec :=
  { id := "help", long? := some "help", short? := some 'h', action := .help, display := "--help" }

def versionArg : ArgSpec :=
  { id := "version", long? := some "version", short? := some 'V', action := .version,
    display := "--version" }

/-- The program's level: the global configuration path, help and version, and the subcommands. -/
def topLevel : Level :=
  ⟨programName, [configArg, helpArg, versionArg], ("options", ["config"]), commandNames, topUsage,
    topHelp⟩

def positionalArg (i : Nat) (name : String) : ArgSpec :=
  { id := name.toLower, display := positionalDisplay name, valueName := name, index? := some (i + 1),
    required := true }

def optionArg (o : OptionSpec) : ArgSpec :=
  { id := o.long, long? := some o.long, display := o.display, required := o.required,
    default? := o.default? }

/-- A subcommand's level. Its record's fields are declared as the input, the options, then the
other positionals; the configuration path and help follow, outside the record. -/
def CommandSpec.level (c : CommandSpec) : Level :=
  let pos := c.positionals.zipIdx.map fun ((n, _), i) => positionalArg i n
  let fields := pos.take 1 ++ c.options.map optionArg ++ pos.drop 1
  ⟨programName ++ " " ++ c.name, fields ++ [configArg, helpArg], (c.name, fields.map (·.id)), [],
    c.usage, c.help⟩

namespace Level

def find? (l : Level) (id : String) : Option ArgSpec := l.args.find? (·.id == id)

def longs (l : Level) : List String := l.args.filterMap (·.long?)

def hasPositionals (l : Level) : Bool := l.args.any (·.isPositional)

/-- The usage line of an error about the arguments `used`: the required options and the used
ones, then the record's group when it is among them (its members are not repeated), then the
positionals in order, then the subcommand slot. -/
def smartUsage (l : Level) (used : List String) : String :=
  let all := (l.args.filter (·.required)).map (·.id) ++ used
  let (gid, members) := l.group
  let grouped := all.contains gid
  let groupText : List String :=
    if grouped then
      ["<" ++ "|".intercalate (members.filterMap fun i => (l.find? i).map fun a =>
        if a.isPositional then a.valueName else a.display) ++ ">"]
    else []
  let args := (all.filterMap l.find?).filter fun a => !(grouped && members.contains a.id)
  let opts := ((args.filter (!·.isPositional)).map (·.display)).eraseDups
  let poss := (((args.filter (·.isPositional)).mergeSort fun a b =>
    a.index?.getD 0 ≤ b.index?.getD 0).map (·.display)).eraseDups
  l.path ++ String.join ((opts ++ groupText ++ poss).map (" " ++ ·)) ++
    (if l.subcommands.isEmpty then "" else " <COMMAND>")

/-- The usage of an error: the help usage when no argument is in use. -/
def usageFor (l : Level) (used : List String) : String :=
  if used.isEmpty then l.helpUsage else l.smartUsage used

end Level

/-- What a level has matched: the ids of the started arguments and groups in the order they
started, and the values taken. -/
structure Matched where
  present : List String := []
  values : List (String × String) := []
  deriving Repr

namespace Matched

def has (m : Matched) (id : String) : Bool := m.present.contains id

/-- Starts an argument and, when it is a field of the level's record, the record's group. -/
def start (l : Level) (m : Matched) (a : ArgSpec) : Matched :=
  let m := if m.has a.id then m else { m with present := m.present ++ [a.id] }
  if l.group.2.contains a.id && !m.has l.group.1 then { m with present := m.present ++ [l.group.1] }
  else m

def remove (m : Matched) (id : String) : Matched :=
  ⟨m.present.filter (· != id), m.values.filter (·.1 != id)⟩

/-- The started arguments, groups left out. -/
def arguments (l : Level) (m : Matched) : List String := m.present.filter fun id => (l.find? id).isSome

def value? (m : Matched) (id : String) : Option String := (m.values.find? (·.1 == id)).map (·.2)

end Matched

/-- Where a level's reading is: the matches, the values held for an argument, the option
waiting for its value, the place of the next positional, and whether `--` was read. -/
structure ReadState where
  matched : Matched := {}
  pending : Option (String × List String) := none
  awaiting : Option String := none
  position : Nat := 1
  trailing : Bool := false

/-- Takes the values of an argument into the matches. Help and version stop the reading with
their text; an option given twice, or with no value or an empty one, is an error. The matches
keep what was done before the error: an option given twice is dropped, and one with an empty
value stays started. -/
def react (l : Level) (m : Matched) (a : ArgSpec) (vals : List String) : Matched × Option Invocation :=
  match a.action with
  | .help => (m, some (.inform l.helpText))
  | .version => (m, some (.inform versionText))
  | .value =>
    if vals.isEmpty then (m, some (.refuse (emptyValue a.display)))
    else if m.has a.id then
      (m.remove a.id, some (.refuse (usageError
        ("the argument " ++ quoted a.display ++ " cannot be used multiple times") [] (some l.helpUsage))))
    else
      let m := m.start l a
      if vals.any (·.isEmpty) then (m, some (.refuse (emptyValue a.display)))
      else ({ m with values := m.values ++ vals.map fun v => (a.id, v) }, none)

/-- Takes the pending values, if any. -/
def resolvePending (l : Level) (st : ReadState) : ReadState × Option Invocation :=
  match st.pending with
  | none => (st, none)
  | some (id, vals) =>
    match l.find? id with
    | none => ({ st with pending := none }, none)
    | some a =>
      let (m, e) := react l st.matched a vals
      ({ st with matched := m, pending := none }, e)

namespace Level

/-- The level of a subcommand. -/
def sub? (name : String) : Option Level := (CommandSpec.find? name).map (·.level)

/-- An unknown `--name`. A similar option of the level is suggested, and started. Failing that,
at the program's level, a similar option of the first subcommand named later on the line; and
failing that too, passing the word after `--`, where the level takes positionals. -/
def unknownLong (l : Level) (st : ReadState) (name : String) (rest : List String) : Invocation :=
  let own := (similar name l.longs).getLast?
  let elsewhere : Option (String × String) :=
    if own.isSome then none
    else
      let found := l.subcommands.filterMap fun s => do
        let sub ← sub? s
        let c ← (similar name sub.longs).getLast?
        let p ← rest.idxOf? s
        pure (p, s, c)
      ((found.mergeSort fun a b => a.1 ≤ b.1).head?).map fun (_, s, c) => (s, c)
  let m := match own.bind fun s => l.args.find? (·.long? == some s) with
    | some a => st.matched.start l a
    | none => st.matched
  let tips := match own, elsewhere with
    | some s, _ => similarTip "argument" ["--" ++ s]
    | none, some (sub, c) => [quoted (sub ++ " --" ++ c) ++ " exists"]
    | none, none => if !st.trailing && l.hasPositionals then [trailingTip ("--" ++ name)] else []
  unexpected ("--" ++ name) tips (l.usageFor (m.arguments l))

/-- A flag written with a value, `--help=x`. -/
def extraValue (l : Level) (st : ReadState) (a : ArgSpec) (v : String) : Invocation :=
  let used := st.matched.present.filter fun id => !((l.find? id).map (·.required)).getD false
  .refuse (usageError ("unexpected value " ++ quoted v ++ " for " ++ quoted a.display ++
    " found; no more were expected") [] (some (l.smartUsage (used ++ [a.id]))))

/-- A word no positional takes. After `--`, a subcommand's name is pointed out; at the
program's level it is an unknown subcommand. -/
def strayWord (l : Level) (st : ReadState) (t : String) : Invocation :=
  if st.trailing && l.subcommands.contains t then
    unexpected t ["subcommand " ++ quoted t ++ " exists; to use it, remove the " ++ quoted "--" ++
      " before it"] l.helpUsage
  else if l.subcommands.isEmpty then unexpected t [] l.helpUsage
  else
    .refuse (usageError ("unrecognized subcommand " ++ quoted t) (similarTip "subcommand" (similar t l.subcommands))
      (some l.helpUsage))

/-- An unknown short flag, reported by its first letter. -/
def unknownShort (l : Level) (st : ReadState) (c : Char) : Invocation :=
  let flag := "-" ++ String.singleton c
  unexpected flag (if !st.trailing && l.hasPositionals then [trailingTip flag] else []) l.helpUsage

/-- A flag's text, after the pending values are taken. -/
def flag (l : Level) (st : ReadState) (a : ArgSpec) : Invocation :=
  let (st, e) := resolvePending l st
  match e with
  | some i => i
  | none => ((react l st.matched a []).2).getD (.refuse "")

end Level

/-- How the reading of a level stops. -/
inductive Stop where
  | fail (i : Invocation)
  /-- A subcommand is named; the rest of the line is its own. -/
  | enter (name : String) (rest : List String) (st : ReadState)
  | finish (st : ReadState)

/-- `help` followed by names: the help of the subcommand they name. No subcommand has
subcommands of its own, so a second name is unknown. The `help` command has no help flag, so
its errors carry no pointer to one. -/
def helpFor : List String → Invocation
  | [] => .inform topHelp
  | n :: rest =>
    let unknown (m : String) := "unrecognized subcommand " ++ quoted m
    match n, (CommandSpec.find? n), rest with
    | "help", _, [] => .inform helpCommandHelp
    | "help", _, m :: _ =>
      .refuse (errorBody (unknown m) [] (some (programName ++ " help [COMMAND]...")) ++ "\n")
    | _, none, _ => .refuse (usageError (unknown n) [] (some topUsage))
    | _, some c, [] => .inform c.help
    | _, some c, m :: _ => .refuse (usageError (unknown m) [] (some c.usage))

namespace Level

/-- Reads the arguments of a level, left to right. -/
def read (l : Level) (st : ReadState) : List String → Stop
  | [] => .finish st
  | t :: rest =>
    let positional : Stop :=
      match l.args.find? (·.index? == some st.position) with
      | some a =>
        match resolvePending l st with
        | (_, some i) => .fail i
        | (st, none) =>
          l.read { st with pending := some (a.id, [t]), position := st.position + 1, awaiting := none } rest
      | none => .fail (l.strayWord (resolvePending l st).1 t)
    if st.trailing then positional
    else if st.awaiting.isNone && l.subcommands.contains t then
      if t == "help" then .fail (helpFor rest) else .enter t rest st
    else if t == "--" then l.read { st with trailing := true } rest
    else if t.startsWith "--" then
      let (name, value?) := splitLong t
      match l.args.find? (·.long? == some name), value? with
      | none, _ => .fail (l.unknownLong (resolvePending l st).1 name rest)
      | some a, some v =>
        if a.action == .value then
          match resolvePending l st with
          | (_, some i) => .fail i
          | (st, none) =>
            match react l st.matched a [v] with
            | (_, some i) => .fail i
            | (m, none) => l.read { st with matched := m, awaiting := none } rest
        else .fail (l.extraValue st a v)
      | some a, none =>
        if a.action == .value then
          match resolvePending l st with
          | (_, some i) => .fail i
          | (st, none) => l.read { st with pending := some (a.id, []), awaiting := some a.id } rest
        else .fail (l.flag st a)
    else if t.startsWith "-" && t != "-" then
      let c := ((t.drop 1).toString.toList.headD ' ')
      match l.args.find? (·.short? == some c) with
      | some a => .fail (l.flag st a)
      | none => .fail (l.unknownShort (resolvePending l st).1 c)
    else if st.awaiting.isSome then
      l.read { st with pending := st.pending.map (fun (i, vs) => (i, vs ++ [t])), awaiting := none } rest
    else positional

/-- The end of a subcommand's arguments: the pending values are taken and every required
argument must be there. The missing ones are listed options first. -/
def close (l : Level) (st : ReadState) : Except Invocation Matched :=
  match resolvePending l st with
  | (_, some i) => .error i
  | (st, none) =>
    let m := st.matched
    let missing := l.args.filter fun a => a.required && !m.has a.id
    if missing.isEmpty then .ok m
    else
      let listed := (missing.filter (!·.isPositional) ++ missing.filter (·.isPositional)).map (·.display)
      .error (.refuse (usageError ("the following required arguments were not provided:" ++
        String.join (listed.map ("\n  " ++ ·))) []
        (some (l.smartUsage (m.arguments l ++ missing.map (·.id))))))

end Level

/-- The command of a subcommand's matches; the configuration path given after the subcommand
wins over one given before it. -/
def commandOf (c : CommandSpec) (config : Option String) (m : Matched) : Invocation :=
  let get (id : String) : String :=
    ((m.value? id) <|> (((c.level.find? id).bind (·.default?)))).getD ""
  let config := (m.value? "config") <|> config
  match c.name with
  | "number" => .execute config (.number (get "input") (get "output"))
  | "aggregate" => .execute config (.aggregate (get "input") (get "output"))
  | "verbalize" => .execute config (.verbalize (get "input") (get "predicates") (get "output"))
  | _ => .execute config (.run (get "input") (get "predicates") (get "out-dir"))

/-- What the command line asks for. With no subcommand, an empty line shows the help and any
other is an error. -/
def Invocation.ofArgs (args : List String) : Invocation :=
  match topLevel.read {} args with
  | .fail i => i
  | .finish st =>
    match resolvePending topLevel st with
    | (_, some i) => i
    | (st, none) =>
      if st.matched.present.isEmpty then .refuse topHelp
      else .refuse (usageError ("'" ++ programName ++ "' requires a subcommand but one was not provided\n  [subcommands: " ++
        ", ".intercalate commandNames ++ "]") [] (some topUsage))
  | .enter name rest st =>
    match CommandSpec.find? name with
    | none => .refuse (usageError ("unrecognized subcommand " ++ quoted name) [] (some topUsage))
    | some c =>
      match c.level.read {} rest with
      | .fail i => i
      | .enter n _ _ => .refuse (usageError ("unrecognized subcommand " ++ quoted n) [] (some c.usage))
      | .finish sst =>
        match c.level.close sst with
        | .error i => i
        | .ok m =>
          match resolvePending topLevel st with
          | (_, some i) => i
          | (st, none) => commandOf c (st.matched.value? "config") m

end ChaseProse.Cli
