import ChaseProse.Cli.Args
/-! A whole run of the program on a set of files: the arguments are read, the command runs, and
the run ends with an exit code (0 done, 1 failed, 2 misused), its two output streams and the
files as they are left. A failed command logs `INVOCATION_ABORTED` and prints `CODE: message`. -/
namespace ChaseProse.Cli
open ChaseProse.Files

structure Exit where
  code : Nat
  stdout : String
  stderr : String
  world : World

/-- Lines, each ended by a line feed. -/
def unlines (ls : List String) : String := String.join (ls.map (· ++ "\n"))

/-- Runs the program with the arguments on the files. -/
def invoke (w : World) (args : List String) : Exit :=
  match Invocation.ofArgs args with
  | .inform text => ⟨0, text, "", w⟩
  | .refuse text => ⟨2, "", text, w⟩
  | .execute config cmd =>
    let o := runCommand w config cmd
    match o.result with
    | .ok () => ⟨0, unlines o.stdout, o.stderr, o.world⟩
    | .error e =>
      let aborted : LogLine := ⟨"INVOCATION_ABORTED", .fatal, [("code", e.code), ("reason", e.message)]⟩
      ⟨1, unlines o.stdout, renderLog o.threshold (o.log ++ [aborted]) ++ e.display ++ "\n", o.world⟩

end ChaseProse.Cli
