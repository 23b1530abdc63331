import ChaseProse.Files.Temp
import ChaseProse.Chase.Error
import ChaseProse.Json.Shape
import ChaseProse.Json.Write
/-! JSON documents in a `World`: reading for a shape, and writing atomically through a temporary
file renamed onto the target. -/
namespace ChaseProse.Files
open ChaseProse.Chase ChaseProse.Json

/-- The reason given for a document that does not decode. -/
def undecodable : String := "invalid JSON: the text is not a document of the expected shape"

/-- The text of a written document: the value pretty-printed, ended by a line feed. -/
def documentText (v : Value) : String := v.pretty 0 ++ "\n"

/-- What a failed step of writing reports for the target `path`; a fault while the value is
written out is reported as a document that failed to serialize. -/
def WriteStep.failure (path : String) : WriteStep → Errno → ChaseError
  | .serialize, e => .malformedDocument path ("failed to serialize: " ++ e.message)
  | _, e => .io path ⟨e, none⟩

/-- The first fault of writing into the temporary file at `q`, as the write reports it. -/
def TempFiles.writeFault (tf : TempFiles) (w : World) (q : List String) (path : String) :
    Option ChaseError :=
  [WriteStep.serialize, .newline, .flush, .sync].findSome? fun s =>
    (tf.fault s w q).map (s.failure path)

namespace World

/-- The JSON value stored at a path, read for a shape. -/
def readJson (w : World) (path : String) (shape : Shape) : Except ChaseError Value :=
  match w.read path with
  | .error e => .error (.io path ⟨e, none⟩)
  | .ok .dir => .error (.malformedDocument path ("invalid JSON: " ++ Errno.isDirectory.message))
  | .ok (.file text) =>
    match Json.readAs? shape text with
    | some v => .ok v
    | none => .error (.malformedDocument path undecodable)

/-- Reads a document for a shape and decodes it; a value the decoder refuses is a malformed
document. -/
def readDocument {α : Type} (w : World) (path : String) (shape : Shape) (decode : Value → Option α) :
    Except ChaseError α := do
  match decode (← w.readJson path shape) with
  | some a => pure a
  | none => throw (.malformedDocument path undecodable)

/-- The name of a temporary file as faults show it: `.tmp` and six random characters. Only its
length matters, in how long the temporary path is. -/
def tempName : String := ".tmpXXXXXX"

/-- Writes the value as `documentText` gives it, in place of the file at `path`:
a temporary file is made in the target's directory (when it cannot be, the fault names the
directory and the temporary path), the text is written into it, and it is renamed onto the
target. When writing or the rename fails, the temporary file is removed. The world is given back
with the outcome, failed or not. -/
def writeJson (tf : TempFiles) (w : World) (path : String) (v : Value) :
    World × Except ChaseError Unit :=
  let dir := Path.directory path
  let temp := Path.join dir tempName
  match w.createTemp tf temp with
  | .error e => (w, .error (.io dir ⟨e, some temp⟩))
  | .ok (w, q) =>
    let w := w.put q (.file (documentText v))
    match tf.writeFault w q path with
    | some e => (w.erase q, .error e)
    | none =>
      match w.rename q path with
      | .ok w => (w, .ok ())
      | .error e => (w.erase q, .error (.io path ⟨e, none⟩))

end World
end ChaseProse.Files
