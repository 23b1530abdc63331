import ChaseProse.Files.World
/-! Temporary files: made under a random name in a directory, written, and renamed onto their
target or removed. The library's random names and the disk's faults are a `TempFiles`. -/
namespace ChaseProse.Files

/-- The steps of writing a document into its temporary file, in the order they run: the value,
the closing line feed, the flush of the buffer and the sync to the disk. -/
inductive WriteStep where
  | serialize
  | newline
  | flush
  | sync
  deriving DecidableEq, Repr

/-- The temporary-file library and the disk under it: the name a new temporary file gets in a
directory of a world, and the fault, if any, of each step of writing into the file at a path. -/
structure TempFiles where
  pick : World → List String → String
  fault : WriteStep → World → List String → Option Errno := fun _ _ _ => none

namespace TempFiles

/-- The library's promise: nothing stands at the picked name. -/
def Fresh (tf : TempFiles) : Prop := ∀ (w : World) (d : List String), w.node? (d ++ [tf.pick w d]) = none

end TempFiles

namespace World

/-- The longest component of any path in the world. -/
def longestName (w : World) : Nat := (w.nodes.flatMap (·.1)).foldr (fun c m => max c.length m) 0

end World

/-- Names that are fresh by construction, `.tmp` and one more `X` than the longest name in the
world has, on a disk that does not fail. -/
def TempFiles.unseen : TempFiles :=
  { pick := fun w _ => ".tmp" ++ String.ofList (List.replicate (w.longestName + 1) 'X') }

namespace World

/-- Creates an empty temporary file beside the path text `temp`, which names a file in the
wanted directory: the directory must resolve, and the temporary file is made in it under the
name the library picks. Gives the new world and the file's canonical path. -/
def createTemp (tf : TempFiles) (w : World) (temp : String) : Except Errno (World × List String) := do
  checkPath .nulInPath temp
  let (d, last) ← w.lead temp
  match last with
  | some n => discard (w.lookup d n)
  | none => pure ()
  let q := d ++ [tf.pick w d]
  pure (w.put q (.file ""), q)

end World
end ChaseProse.Files
