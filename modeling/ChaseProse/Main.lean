import ChaseProse.Cli.Exit
/-! The program on the real file system: the working directory and the files and directories
along the paths a command names are read into a `World`, the run happens on it, what it created
or changed is written back, and its output streams and exit code are passed on. -/
open ChaseProse.Cli ChaseProse.Files

/-- What the disk holds at a path: a file with its text, a directory (which cannot be read as
a file), or nothing readable. -/
def probe (path : String) : IO (Option Node) := do
  try
    return some (.file (← IO.FS.readFile path))
  catch e =>
    match e with
    | .inappropriateType none 21 _ => return some .dir
    | _ => return none

/-- The text of a canonical path, from the root. -/
def rootText (p : List String) : String := "/" ++ "/".intercalate p

/-- Adds the nodes along a walk from `here` (components from the root), stopping at the first
file or missing one. -/
def loadAlong (w : World) (here : List String) : List String → IO World
  | [] => pure w
  | ".." :: rest => loadAlong w here.dropLast rest
  | c :: rest => do
    let here := here ++ [c]
    match ← probe (rootText here) with
    | some .dir => loadAlong (w.put here .dir) here rest
    | some (.file t) => pure (w.put here (.file t))
    | none => pure w

/-- The world the invocation can see: the working directory, and everything along the paths it
names. -/
def loadWorld (args : List String) : IO World := do
  let home := Path.components (← IO.currentDir).toString
  let paths := match Invocation.ofArgs args with
    | .execute config cmd => config.toList ++ cmd.paths
    | _ => []
  paths.foldlM (fun w p => loadAlong w (if p.startsWith "/" then [] else home) (Path.components p))
    (({ home := home } : World).withDirs home)

/-- Writes back every node the run added or changed. -/
def persist (before after : World) : IO Unit :=
  after.nodes.forM fun (p, n) => do
    if before.node? p != some n then
      match n with
      | .dir => IO.FS.createDirAll (rootText p)
      | .file t => IO.FS.writeFile (rootText p) t

def main (args : List String) : IO UInt32 := do
  let w ← loadWorld args
  let x := invoke w args
  persist w x.world
  IO.print x.stdout
  IO.eprint x.stderr
  return x.code.toUInt32
