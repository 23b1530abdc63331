/-! Path texts: the directory part of a path, joining a name onto a directory, and the
components a lookup walks. Paths are texts with `/` between components; one that starts with
`/` starts at the root. -/
namespace ChaseProse.Files
namespace Path

/-- On a path read backwards: drops the trailing separators and `.` components, keeping a
separator that stands alone. -/
def trimEnd : List Char → List Char
  | '/' :: rest => if rest.isEmpty then ['/'] else trimEnd rest
  | '.' :: '/' :: rest => trimEnd ('/' :: rest)
  | cs => cs

/-- The path without its last component: empty when there is only one, or none (the root),
and the root for a component right under it. -/
def parent (p : String) : String :=
  let trimmed := trimEnd p.toList.reverse
  if trimmed == ['/'] then ""
  else
    match trimmed.dropWhile (· != '/') with
    | [] => ""
    | [_] => "/"
    | _ :: before => String.ofList (trimEnd before).reverse

/-- The directory a file at `p` lives in: its parent, or `.` when that is empty. -/
def directory (p : String) : String :=
  match parent p with
  | "" => "."
  | d => d

/-- The path of `name` inside `dir`; a directory ending in a separator gets no second one. -/
def join (dir name : String) : String :=
  if dir.isEmpty then name
  else if dir.endsWith "/" then dir ++ name
  else dir ++ "/" ++ name

/-- The components a lookup walks: empty and `.` components dropped, `..` kept. -/
def components (p : String) : List String :=
  (p.splitOn "/").filter fun c => c != "" && c != "."

end Path
end ChaseProse.Files
