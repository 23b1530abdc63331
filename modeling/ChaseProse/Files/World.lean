import ChaseProse.Files.Fault
import ChaseProse.Files.Path
/-! Files and directories as data: a `World` of nodes under canonical paths (components from the
root, without `.` or `..`), and path texts resolved as a Linux system resolves them. -/
namespace ChaseProse.Files

inductive Node where
  | file (text : String)
  | dir
  deriving DecidableEq, Repr

structure World where
  /-- The working directory, as components from the root. -/
  home : List String := []
  nodes : List (List String × Node) := []
  deriving Repr, Inhabited

namespace World

/-- The node at a canonical path; the root is a directory. -/
def node? (w : World) : List String → Option Node
  | [] => some .dir
  | p => (w.nodes.find? (·.1 == p)).map (·.2)

/-- Sets the node at a canonical path: the node there before, if any, goes. -/
def put (w : World) (p : List String) (n : Node) : World :=
  { w with nodes := w.nodes.filter (·.1 != p) ++ [(p, n)] }

/-- Removes the node at a canonical path. -/
def erase (w : World) (p : List String) : World := { w with nodes := w.nodes.filter (·.1 != p) }

theorem find?_filter_key (l : List (List String × Node)) {p q : List String} (h : q ≠ p) :
    (l.filter (·.1 != p)).find? (·.1 == q) = l.find? (·.1 == q) := by
  induction l with
  | nil => rfl
  | cons e l ih =>
    obtain ⟨k, v⟩ := e
    by_cases he : k = p
    · subst he
      simp [ih, Ne.symm h]
    · by_cases hq : k = q
      · subst hq
        simp [he]
      · simp [he, hq, ih]

@[simp] theorem node?_put_self (w : World) {p : List String} (hp : p ≠ []) (n : Node) :
    (w.put p n).node? p = some n := by
  match p, hp with
  | q :: qs, _ =>
    have : (w.nodes.filter (·.1 != q :: qs)).find? (·.1 == q :: qs) = none := by
      rw [List.find?_eq_none]; intro x hx; simp at hx; simpa using hx.2
    simp [node?, put, List.find?_append, this]

@[simp] theorem node?_put_ne (w : World) {p q : List String} (h : q ≠ p) (n : Node) :
    (w.put p n).node? q = w.node? q := by
  match q with
  | [] => rfl
  | r :: rs =>
    simp only [node?, put, List.find?_append, find?_filter_key _ h]
    cases w.nodes.find? (·.1 == r :: rs) with
    | some _ => rfl
    | none => simp [Ne.symm h]

/-- The most bytes a path text may have, less one. -/
def pathMax : Nat := 4096

/-- The most bytes a component may have. -/
def nameMax : Nat := 255

/-- Checks a path text as a call hands it to the system: a NUL byte is refused as `nul` says
(each library words it its own way), and a text of `pathMax` bytes or more is too long. -/
def checkPath (nul : Errno) (p : String) : Except Errno Unit :=
  if p.contains '\x00' then .error nul
  else if pathMax ≤ p.utf8ByteSize then .error .nameTooLong
  else .ok ()

/-- Looks a name up in the directory `d`: what stands there, if anything; a name longer than
`nameMax` bytes is too long. -/
def lookup (w : World) (d : List String) (n : String) : Except Errno (Option Node) :=
  if nameMax < n.utf8ByteSize then .error .nameTooLong else .ok (w.node? (d ++ [n]))

/-- Enters the directories that `parts` names, from `here`: `.` stays, `..` steps out (the root
is its own parent), and a name must be a directory there. -/
def enter (w : World) (here : List String) : List String → Except Errno (List String)
  | [] => .ok here
  | "." :: rest => w.enter here rest
  | ".." :: rest => w.enter here.dropLast rest
  | c :: rest =>
    match w.lookup here c with
    | .error e => .error e
    | .ok (some .dir) => w.enter (here ++ [c]) rest
    | .ok (some (.file _)) => .error .notDirectory
    | .ok none => .error .notFound

/-- The components of a path text; empty ones, between repeated separators, are dropped. -/
def parts (p : String) : List String := ((p.toList.splitOn '/').map String.ofList).filter (· != "")

/-- Where a path leads: the directory holding its last component, and that component (`none`
for a path of separators only, which names the root). A text starting with a separator walks
from the root, any other from the working directory; the empty path leads nowhere. -/
def lead (w : World) (p : String) : Except Errno (List String × Option String) :=
  if p.isEmpty then .error .notFound
  else
    let start := if p.startsWith "/" then [] else w.home
    match (parts p).getLast? with
    | none => .ok ([], none)
    | some last => do return (← w.enter start (parts p).dropLast, some last)

/-- The node a path names, with its canonical path. A separator after the last component asks
for a directory. -/
def resolve (w : World) (p : String) : Except Errno (List String × Node) := do
  checkPath .nulInPath p
  match ← w.lead p with
  | (_, none) => pure ([], .dir)
  | (d, some ".") => pure (d, .dir)
  | (d, some "..") => pure (d.dropLast, .dir)
  | (d, some n) =>
    match ← w.lookup d n with
    | none => throw .notFound
    | some (.file t) => if p.endsWith "/" then throw .notDirectory else pure (d ++ [n], .file t)
    | some .dir => pure (d ++ [n], .dir)

/-- The node a path text names. -/
def read (w : World) (p : String) : Except Errno Node := (·.2) <$> w.resolve p

/-- Where a file renamed onto the path lands: the last component must be a name (`.` and `..`
are busy), with no separator after it, and not a directory. The renaming library refuses a NUL
byte as an invalid argument. -/
def renameTarget (w : World) (p : String) : Except Errno (List String) := do
  checkPath .invalidArgument p
  match ← w.lead p with
  | (_, none) => throw .busy
  | (d, some n) =>
    if n == "." || n == ".." then throw .busy
    else
      let there ← w.lookup d n
      if p.endsWith "/" then throw .notDirectory
      else
        match there with
        | some .dir => throw .isDirectory
        | _ => pure (d ++ [n])

/-- Renames the file at the canonical path `q` onto the path `p` in one step: the target is
checked with the file still in place, then the file leaves `q` and takes the place of what stood
at the target. -/
def rename (w : World) (q : List String) (p : String) : Except Errno World := do
  let target ← w.renameTarget p
  match w.node? q with
  | some (.file text) => pure ((w.erase q).put target (.file text))
  | _ => throw .notFound

/-- Creates one directory; its parent must exist, and `.`, `..` or anything already there is
taken. -/
def makeDir (w : World) (p : String) : Except Errno World := do
  checkPath .nulInPath p
  match ← w.lead p with
  | (_, none) => throw .alreadyExists
  | (d, some n) =>
    if n == "." || n == ".." then throw .alreadyExists
    else
      match ← w.lookup d n with
      | some _ => throw .alreadyExists
      | none => pure (w.put (d ++ [n]) .dir)

def isDir (w : World) (p : String) : Bool :=
  match w.read p with
  | .ok .dir => true
  | _ => false

/-- Creates a directory and the missing ones above it. When making it fails for a missing
parent, the parent is made first and then the directory again; any other failure, or the second
one, is success when a directory is there. The directories made stay when a later step fails.
`fuel` bounds the parents visited; a path has fewer than its length. -/
def makeDirsFuel (w : World) (p : String) : Nat → World × Except Errno Unit
  | 0 => (w, .error .notFound)
  | fuel + 1 =>
    if p.isEmpty then (w, .ok ())
    else
      let settle (w : World) (e : Errno) : World × Except Errno Unit :=
        (w, if w.isDir p then .ok () else .error e)
      match w.makeDir p with
      | .ok w => (w, .ok ())
      | .error .notFound =>
        match w.makeDirsFuel (Path.parent p) fuel with
        | (w, .error e) => (w, .error e)
        | (w, .ok ()) =>
          match w.makeDir p with
          | .ok w => (w, .ok ())
          | .error e => settle w e
      | .error e => settle w e

def makeDirs (w : World) (p : String) : World × Except Errno Unit := w.makeDirsFuel p (p.length + 1)

/-- The world with directories at every prefix of `p`, the root aside. -/
def withDirs (w : World) (p : List String) : World :=
  (List.range (p.length + 1)).foldl (fun w i =>
    let d := p.take i
    if d.isEmpty || (w.node? d).isSome then w else w.put d .dir) w

/-- The directories every Linux system has at its root. -/
def systemDirs : List String := ["bin", "dev", "etc", "home", "proc", "root", "sys", "tmp", "usr", "var"]

/-- A Linux system as a fresh working directory sees it: the usual directories at the root,
`/dev/null` (which reads as empty), the account and host tables in `/etc` (text that is not
JSON), and the working directory, new and empty inside `/tmp`. Its name holds a NUL byte, so no
path text reaches it from outside: the caller does not know the name either. -/
def scratch : World :=
  let home := ["tmp", "\x00"]
  let w := systemDirs.foldl (fun w d => w.put [d] .dir) ({ home := home } : World)
  (w.put ["dev", "null"] (.file "") |>.put ["etc", "passwd"] (.file "root:x:0:0:root:/root:/bin/sh\n")
    |>.put ["etc", "hosts"] (.file "127.0.0.1\tlocalhost\n")).withDirs home

/-- The scratch world with path texts inside the working directory: a file with its text, or a
directory; the directories above each are created. -/
def ofEntries (es : List (String × Option String)) : World :=
  es.foldl (fun w (p, text) =>
    let cs := w.home ++ Path.components p
    let w := w.withDirs cs.dropLast
    match text with
    | some t => w.put cs (.file t)
    | none => w.withDirs cs) scratch

/-- Every node inside the working directory as a path text relative to it; directories end
with a separator. -/
def entries (w : World) : List (String × Node) :=
  w.nodes.filterMap fun (p, n) =>
    if w.home.isPrefixOf p && w.home.length < p.length then
      some ("/".intercalate (p.drop w.home.length) ++ (match n with | .dir => "/" | .file _ => ""), n)
    else none

end World
end ChaseProse.Files
