import ChaseProse.Chase.Text
/-! Provenance lists `[e1, e2, …]`: the entries that justify a step, in order. -/
namespace ChaseProse.Chase
open ChaseProse.Text

structure Provenance where
  entries : List String
  deriving DecidableEq, Repr, Inhabited

namespace Provenance

/-- Reads `[e1, …]`; the brackets are optional, blank text is empty, and empty pieces drop. -/
def parse (text : String) : Provenance :=
  let t := trimList text.toList
  let t := match t with
    | '[' :: r => r
    | r => r
  let t := if t.getLast? == some ']' then t.dropLast else t
  if (trimList t).isEmpty then ⟨[]⟩
  else ⟨(splitTopLevel (String.ofList t)).filter (· != "")⟩

def render (p : Provenance) : String := "[" ++ ", ".intercalate p.entries ++ "]"

def isEmpty (p : Provenance) : Bool := p.entries.isEmpty

end Provenance

end ChaseProse.Chase
