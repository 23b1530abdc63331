import ChaseProse.Files.Document
import ChaseProse.Proofs.Basic
import Mathlib.Logic.Function.Iterate
/-! Writing a document atomically and making the directories of a path: a write replaces one file
or leaves the world as it was, and making directories only makes directories. -/
namespace ChaseProse.Files
namespace World

@[simp] theorem node?_erase_ne (w : World) {p q : List String} (h : q ≠ p) :
    (w.erase p).node? q = w.node? q := by
  match q with
  | [] => rfl
  | r :: rs => simp only [node?, erase, find?_filter_key _ h]

/-- Nothing stands at a path when no entry has it as key. -/
theorem filter_key_of_node?_eq_none {w : World} {p : List String} (hp : p ≠ [])
    (h : w.node? p = none) : w.nodes.filter (·.1 != p) = w.nodes := by
  match p, hp with
  | r :: rs, _ =>
    have hfind : w.nodes.find? (·.1 == r :: rs) = none := by simpa [node?] using h
    rw [List.filter_eq_self]
    intro e he
    have := List.find?_eq_none.mp hfind e he
    simpa using this

theorem put_put (w : World) (p : List String) (n n' : Node) : (w.put p n).put p n' = w.put p n' := by
  simp [put, List.filter_append, List.filter_filter]

/-- Putting a node where nothing stood and erasing it again gives the world back. -/
theorem erase_put_of_node?_eq_none {w : World} {p : List String} (hp : p ≠ [])
    (h : w.node? p = none) (n : Node) : (w.put p n).erase p = w := by
  simp [put, erase, List.filter_append, filter_key_of_node?_eq_none hp h]

/-- `w'` has the working directory of `w` and every directory of `w`: a walk that succeeds in
`w` succeeds alike in `w'`. -/
structure DirsKept (w w' : World) : Prop where
  home : w'.home = w.home
  dirs : ∀ p, w.node? p = some .dir → w'.node? p = some .dir

theorem dirsKept_put_dir (w : World) (q : List String) : DirsKept w (w.put q .dir) := by
  refine ⟨rfl, fun p hp => ?_⟩
  by_cases hpq : p = q
  · subst hpq
    cases p with
    | nil => rfl
    | cons _ _ => simp
  · simpa [hpq] using hp

theorem dirsKept_put_file {w : World} {q : List String} (hq : w.node? q ≠ some .dir) (t : String) :
    DirsKept w (w.put q (.file t)) := by
  refine ⟨rfl, fun p hp => ?_⟩
  have hpq : p ≠ q := by rintro rfl; exact hq hp
  simpa [hpq] using hp

theorem dirsKept_of_put_file (w : World) (q : List String) (t : String) :
    DirsKept (w.put q (.file t)) w := by
  refine ⟨rfl, fun p hp => ?_⟩
  by_cases hpq : p = q
  · subst hpq
    cases p with
    | nil => rfl
    | cons _ _ => simp at hp
  · simpa [hpq] using hp

theorem lookup_dir_of_dirsKept {w w' : World} (h : DirsKept w w') {d : List String} {n : String}
    (hl : w.lookup d n = .ok (some .dir)) : w'.lookup d n = .ok (some .dir) := by
  unfold lookup at hl ⊢
  split at hl
  · cases hl
  · rw [if_neg ‹_›, h.dirs _ (by simpa using hl)]

/-- A walk through directories that succeeds in `w` succeeds alike where `w`'s directories are
kept. -/
theorem enter_of_dirsKept {w w' : World} (h : DirsKept w w') {here r : List String}
    {cs : List String} (he : w.enter here cs = .ok r) : w'.enter here cs = .ok r := by
  fun_induction w.enter here cs with
  | case1 => exact he
  | case2 here rest ih => rw [enter]; exact ih he
  | case3 here rest ih => rw [enter]; exact ih he
  | case4 here c rest h1 h2 e hl => simp at he
  | case5 here c rest h1 h2 hl ih =>
    rw [enter.eq_4 _ _ _ _ h1 h2, lookup_dir_of_dirsKept h hl]
    exact ih he
  | case6 here c rest h1 h2 t hl => simp at he
  | case7 here c rest h1 h2 hl => simp at he

theorem lead_of_dirsKept {w w' : World} (h : DirsKept w w') {p : String}
    {r : List String × Option String} (hl : w.lead p = .ok r) : w'.lead p = .ok r := by
  unfold lead at hl ⊢
  rw [h.home]
  by_cases hp : p.isEmpty
  · simp [hp] at hl
  · simp only [hp, Bool.false_eq_true, if_false] at hl ⊢
    cases hlast : (parts p).getLast? with
    | none => simpa [hlast] using hl
    | some last =>
      simp only [hlast] at hl ⊢
      obtain ⟨d, hd, hr⟩ := bind_eq_ok.mp hl
      rw [enter_of_dirsKept h hd]
      exact hr

/-- The check of a path text does not depend on the world: passing it once, it passes with any
error named. -/
theorem checkPath_ok_of_ok {a b : Errno} {p : String} (h : checkPath a p = .ok ()) :
    checkPath b p = .ok () := by
  unfold checkPath at h ⊢
  split at h
  · cases h
  · split at h
    · cases h
    · simp_all

theorem renameTarget_eq_ok {w : World} {p : String} {q : List String} :
    w.renameTarget p = .ok q ↔ checkPath .invalidArgument p = .ok () ∧ ∃ d n,
      w.lead p = .ok (d, some n) ∧ n ≠ "." ∧ n ≠ ".." ∧ n.utf8ByteSize ≤ nameMax ∧
      p.endsWith "/" = false ∧ w.node? (d ++ [n]) ≠ some .dir ∧ d ++ [n] = q := by
  unfold renameTarget lookup
  cases checkPath .invalidArgument p with
  | error e => simp [bind, Except.bind]
  | ok u =>
    cases w.lead p with
    | error e => simp [bind, Except.bind]
    | ok r =>
      obtain ⟨d, _ | n⟩ := r
      · simp [bind, Except.bind]
      · by_cases hn : n = "." ∨ n = ".."
        · rcases hn with rfl | rfl <;> simp [bind, Except.bind]
        · by_cases hlong : nameMax < n.utf8ByteSize
          · have hfit : ¬n.utf8ByteSize ≤ nameMax := Nat.not_le.mpr hlong
            simp [bind, Except.bind, hn, hlong, hfit]
          · obtain ⟨hdot, hdots⟩ := not_or.mp hn
            have hle : n.utf8ByteSize ≤ nameMax := Nat.not_lt.mp hlong
            cases he : p.endsWith "/"
            · cases hx : w.node? (d ++ [n]) with
              | none =>
                simp [bind, Except.bind, hlong, hx, and_assoc, exists_and_left, exists_eq_left',
                  hdot, hdots, hle]
              | some x =>
                cases x <;> simp [bind, Except.bind, hlong, hx, and_assoc, exists_and_left,
                  exists_eq_left', hdot, hdots, hle]
            · simp [bind, Except.bind, hn, hlong]

/-- A rename target found in one world is found alike in another with the same directories. -/
theorem renameTarget_of_dirsKept {w w' : World} (h : DirsKept w w') (h' : DirsKept w' w)
    {p : String} {q : List String} (hq : w.renameTarget p = .ok q) : w'.renameTarget p = .ok q := by
  obtain ⟨hc, d, n, hl, hdot, hdots, hle, he, hx, hq⟩ := renameTarget_eq_ok.mp hq
  exact renameTarget_eq_ok.mpr
    ⟨hc, d, n, lead_of_dirsKept h hl, hdot, hdots, hle, he, fun hd => hx (h'.dirs _ hd), hq⟩

/-- After a file is put where renaming onto `p` lands, `p` names that file. -/
theorem resolve_put_of_renameTarget {w : World} {p : String} {q : List String}
    (hq : w.renameTarget p = .ok q) (t : String) : (w.put q (.file t)).resolve p = .ok (q, .file t) := by
  obtain ⟨hc, d, n, hl, hdot, hdots, hle, he, hx, rfl⟩ := renameTarget_eq_ok.mp hq
  have hl' := lead_of_dirsKept (dirsKept_put_file hx t) hl
  have hlook : (w.put (d ++ [n]) (.file t)).lookup d n = .ok (some (.file t)) := by
    simp [lookup, Nat.not_lt.mpr hle]
  simp [resolve, checkPath_ok_of_ok hc, hl', hlook, he, bind, Except.bind]

/-- Putting a file where `p` does not lead leaves what `p` names as it was. -/
theorem resolve_put_of_ne {w : World} {p : String} {d : List String} {n : String}
    (hl : w.lead p = .ok (d, some n)) {q : List String} (hne : d ++ [n] ≠ q)
    (hq : w.node? q ≠ some .dir) (t : String) : (w.put q (.file t)).resolve p = w.resolve p := by
  have hl' := lead_of_dirsKept (dirsKept_put_file hq t) hl
  have hlook : (w.put q (.file t)).lookup d n = w.lookup d n := by simp [lookup, hne]
  simp only [resolve, hl, hl', ok_bind]
  -- both sides walk to `(d, some n)`; when `n` is a name, the lookups there agree
  split
  next => rfl
  next => rfl
  next => rfl
  next heq =>
    cases heq
    rw [hlook]

/-- What `resolve` makes of the node that directory `d` holds under the last name `n` of `p`. -/
def named (p : String) (d : List String) (n : String) :
    Option Node → Except Errno (List String × Node)
  | none => throw .notFound
  | some (.file t) => if p.endsWith "/" then throw .notDirectory else pure (d ++ [n], .file t)
  | some .dir => pure (d ++ [n], .dir)

/-- Where a path leads to a name in a directory, it names what the directory holds there. -/
theorem resolve_of_lead {w : World} {p : String} {d : List String} {n : String}
    (hl : w.lead p = .ok (d, some n)) (hdot : n ≠ ".") (hdots : n ≠ "..") :
    w.resolve p = (do checkPath .nulInPath p; named p d n (← w.lookup d n)) := by
  -- the walk ends at a name, so the match on it takes its last branch, which is `named`
  simp only [resolve, hl, ok_bind]
  rfl

/-- A directory that a path names stays named where the world's directories are kept. -/
theorem resolve_dir_of_dirsKept {w w' : World} (h : DirsKept w w') {p : String} {x : List String}
    (hr : w.resolve p = .ok (x, .dir)) : w'.resolve p = .ok (x, .dir) := by
  have hr' := hr
  unfold resolve at hr'
  obtain ⟨u, hc, hr'⟩ := bind_eq_ok.mp hr'
  obtain ⟨r, hl, -⟩ := bind_eq_ok.mp hr'
  obtain ⟨d, _ | n⟩ := r
  · rw [← hr]
    simp [resolve, hl, lead_of_dirsKept h hl]
  by_cases hdot : n = "." ∨ n = ".."
  · rw [← hr]
    rcases hdot with rfl | rfl <;> simp [resolve, hl, lead_of_dirsKept h hl]
  obtain ⟨hdot, hdots⟩ := not_or.mp hdot
  rw [resolve_of_lead hl hdot hdots] at hr
  rw [resolve_of_lead (lead_of_dirsKept h hl) hdot hdots, hc]
  rw [hc, ok_bind] at hr
  rw [ok_bind]
  cases hk : w.lookup d n with
  | error e => simp [hk, bind, Except.bind] at hr
  | ok there =>
    rw [hk, ok_bind] at hr
    rcases there with _ | _ | _
    · simp [named] at hr
    · simp only [named] at hr
      split at hr <;> simp_all
    · rwa [lookup_dir_of_dirsKept h hk, ok_bind]

end World

namespace Path

/-- A component that a path ends in as it is written: not empty, without a separator. -/
def IsComponent (n : String) : Prop := n ≠ "" ∧ '/' ∉ n.toList

theorem join_eq_append (dir n : String) : join dir n = join dir "" ++ n := by
  unfold join
  split
  · simp
  · split <;> simp [String.append_assoc]

/-- What a name is joined to is empty or ends in a separator. -/
theorem join_empty_cases (dir : String) :
    join dir "" = "" ∨ ∃ s, (join dir "").toList = s ++ ['/'] := by
  unfold join
  split
  · exact .inl rfl
  · right
    split
    · rename_i h
      simp only [← String.endsWith_toSlice, String.Slice.endsWith_string_iff] at h
      obtain ⟨s, hs⟩ := h
      exact ⟨s, by simpa using hs.symm⟩
    · exact ⟨dir.toList, by simp⟩

end Path

namespace World
open ChaseProse.Files.Path

theorem parts_component {n : String} (hn : IsComponent n) : parts n = [n] := by
  simp [parts, List.splitOn_eq_singleton hn.2, String.ofList_toList, hn.1]

theorem parts_append_component {s : String} {s' : List Char} (hs : s.toList = s' ++ ['/'])
    {n : String} (hn : IsComponent n) : parts (s ++ n) = parts s ++ [n] := by
  have hsn : (s ++ n).toList = s' ++ '/' :: n.toList := by simp [hs]
  have hs' : s.toList = s' ++ '/' :: [] := hs
  simp only [parts, hsn, hs', List.splitOn_append_cons_self, List.splitOn_eq_singleton hn.2,
    List.splitOn_nil, List.map_append, List.filter_append]
  simp [String.ofList_toList, hn.1]

theorem startsWith_append_component {s : String} {s' : List Char} (hs : s.toList = s' ++ ['/'])
    (n : String) : (s ++ n).startsWith "/" = s.startsWith "/" := by
  have hsn : (s ++ n).toList = s' ++ '/' :: n.toList := by simp [hs]
  apply Bool.eq_iff_iff.mpr
  cases s' with
  | nil => simp [hsn, hs]
  | cons c s' => simp [hsn, hs]

theorem startsWith_component {n : String} (hn : IsComponent n) : n.startsWith "/" = false := by
  rw [String.startsWith_string_eq_false_iff]
  cases h : n.toList with
  | nil => simp
  | cons c cs =>
    have : c ≠ '/' := fun hc => hn.2 (by simp [h, hc])
    simpa using this.symm

/-- Every component joined to one directory text is looked up in the same directory: the walk
does not depend on the component. -/
theorem lead_join (w : World) (dir : String) : ∃ start ps, ∀ n, IsComponent n →
    w.lead (join dir n) = (do return (← w.enter start ps, some n)) := by
  rcases join_empty_cases dir with h | ⟨s', hs⟩
  · refine ⟨w.home, [], fun n hn => ?_⟩
    rw [join_eq_append, h, String.empty_append]
    have hne : n.isEmpty = false := by simpa using hn.1
    simp [lead, hne, startsWith_component hn, parts_component hn]
  · refine ⟨if (join dir "").startsWith "/" then [] else w.home, parts (join dir ""), fun n hn => ?_⟩
    rw [join_eq_append]
    have hne : (join dir "" ++ n).isEmpty = false := by simp [hn.1]
    simp [lead, hne, startsWith_append_component hs, parts_append_component hs hn]

theorem lead_join_of_lead {w : World} {dir a b : String} (ha : IsComponent a) (hb : IsComponent b)
    {d : List String} {x : Option String} (h : w.lead (join dir a) = .ok (d, x)) :
    x = some a ∧ w.lead (join dir b) = .ok (d, some b) := by
  obtain ⟨start, ps, hlead⟩ := lead_join w dir
  rw [hlead a ha] at h
  obtain ⟨d', hd, hx⟩ := bind_eq_ok.mp h
  cases hx
  exact ⟨rfl, by rw [hlead b hb, hd]; rfl⟩

/-- `w'` is `w` with the file that `path` names holding `text`, where a file renamed onto
`path` lands; nothing else differs. -/
def Wrote (path text : String) (w w' : World) : Prop :=
  ∃ q, w.renameTarget path = .ok q ∧ w' = w.put q (.file text)

theorem Wrote.read {path text : String} {w w' : World} (h : Wrote path text w w') :
    w'.read path = .ok (.file text) := by
  obtain ⟨q, hq, rfl⟩ := h
  rw [World.read, resolve_put_of_renameTarget hq]
  rfl

/-- Writing one file of a directory leaves what the other names of that directory read. -/
theorem Wrote.read_sibling {dir a b text : String} {w w' : World} (h : Wrote (join dir a) text w w')
    (ha : IsComponent a) (hb : IsComponent b) (hab : a ≠ b) :
    w'.read (join dir b) = w.read (join dir b) := by
  obtain ⟨q, hq, rfl⟩ := h
  obtain ⟨-, d, n, hl, -, -, -, -, hx, rfl⟩ := renameTarget_eq_ok.mp hq
  obtain ⟨hn, hlb⟩ := lead_join_of_lead ha hb hl
  cases hn
  have hne : d ++ [b] ≠ d ++ [a] := by simpa using Ne.symm hab
  simp [World.read, resolve_put_of_ne hlb hne hx]

section Temporary

variable {tf : TempFiles} (hfresh : tf.Fresh)
include hfresh

/-- A temporary file is made where nothing stood. -/
theorem createTemp_eq_ok {w w₁ : World} {temp : String} {q : List String}
    (h : w.createTemp tf temp = .ok (w₁, q)) : q ≠ [] ∧ w.node? q = none ∧ w₁ = w.put q (.file "") := by
  unfold createTemp at h
  obtain ⟨_, -, h⟩ := bind_eq_ok.mp h
  obtain ⟨⟨d, last⟩, -, h⟩ := bind_eq_ok.mp h
  -- the name is picked in the directory the path leads to, whatever its last component
  have hpick : w.put (d ++ [tf.pick w d]) (.file "") = w₁ ∧ d ++ [tf.pick w d] = q := by
    cases last with
    | none =>
      injection h with h
      exact Prod.mk.inj h
    | some n =>
      obtain ⟨_, -, h⟩ := bind_eq_ok.mp h
      injection h with h
      exact Prod.mk.inj h
  obtain ⟨rfl, rfl⟩ := hpick
  exact ⟨by simp, hfresh w d, rfl⟩

end Temporary

theorem rename_eq_ok {w w' : World} {q : List String} {p : String} (h : w.rename q p = .ok w') :
    ∃ target text, w.renameTarget p = .ok target ∧ w.node? q = some (.file text) ∧
      w' = (w.erase q).put target (.file text) := by
  unfold rename at h
  obtain ⟨target, ht, h⟩ := bind_eq_ok.mp h
  split at h
  · next text hq => cases h; exact ⟨target, text, ht, hq, rfl⟩
  · cases h

/-- Writing a document either succeeds and replaces the file that `path` names, or fails and
leaves the world as it was, temporary file included. -/
theorem writeJson_cases {tf : TempFiles} (hfresh : tf.Fresh) (w : World) (path : String)
    (v : Json.Value) :
    ((w.writeJson tf path v).2 = .ok () ∧ Wrote path (documentText v) w (w.writeJson tf path v).1) ∨
      ((∃ e, (w.writeJson tf path v).2 = .error e) ∧ (w.writeJson tf path v).1 = w) := by
  unfold writeJson
  dsimp only
  cases hc : w.createTemp tf (Path.join (Path.directory path) tempName) with
  | error e => exact .inr ⟨⟨_, rfl⟩, rfl⟩
  | ok r =>
    obtain ⟨w₁, q⟩ := r
    obtain ⟨hq, hfree, rfl⟩ := createTemp_eq_ok hfresh hc
    simp only [put_put]
    -- a failed step of writing removes the temporary file, as a failed rename does
    cases hf : tf.writeFault (w.put q (.file (documentText v))) q path with
    | some e => exact .inr ⟨⟨_, rfl⟩, erase_put_of_node?_eq_none hq hfree _⟩
    | none =>
      have hkept : DirsKept w (w.put q (.file (documentText v))) :=
        dirsKept_put_file (by simp [hfree]) _
      cases hr : (w.put q (.file (documentText v))).rename q path with
      | error e => exact .inr ⟨⟨_, rfl⟩, erase_put_of_node?_eq_none hq hfree _⟩
      | ok w₃ =>
        obtain ⟨target, text, ht, hqt, rfl⟩ := rename_eq_ok hr
        rw [node?_put_self _ hq] at hqt
        cases hqt
        refine .inl ⟨rfl, target,
          renameTarget_of_dirsKept (dirsKept_of_put_file _ _ _) hkept ht, ?_⟩
        rw [erase_put_of_node?_eq_none hq hfree]

/-- Making a directory puts one where nothing stood, at the path the text then names. -/
theorem makeDir_eq_ok {w w' : World} {p : String} (h : w.makeDir p = .ok w') :
    ∃ x, x ≠ [] ∧ w.node? x = none ∧ w' = w.put x .dir ∧ w'.resolve p = .ok (x, .dir) := by
  unfold makeDir at h
  obtain ⟨_, hc, h⟩ := bind_eq_ok.mp h
  obtain ⟨⟨d, last⟩, hl, h⟩ := bind_eq_ok.mp h
  cases last with
  | none => simp at h
  | some n =>
    by_cases hn : n = "." ∨ n = ".."
    · rcases hn with rfl | rfl <;> simp at h
    obtain ⟨hdot, hdots⟩ := not_or.mp hn
    have hb : (n == "." || n == "..") = false := by simp [hdot, hdots]
    simp only [hb, Bool.false_eq_true, if_false] at h
    obtain ⟨there, hk, h⟩ := bind_eq_ok.mp h
    cases there with
    | some _ => simp at h
    | none =>
      injection h with h
      subst h
      have hfit : ¬nameMax < n.utf8ByteSize := by
        intro hlong
        simp [lookup, hlong] at hk
      have hfree : w.node? (d ++ [n]) = none := by simpa [lookup, hfit] using hk
      refine ⟨d ++ [n], by simp, hfree, rfl, ?_⟩
      rw [resolve_of_lead (lead_of_dirsKept (dirsKept_put_dir w _) hl) hdot hdots, hc]
      simp [lookup, hfit, named]

/-- `w'` is `w` with directories made where nothing stood, each at the path that `p` or one of
its parents names in `w'`. -/
structure MadeDirsFor (p : String) (w w' : World) : Prop where
  home : w'.home = w.home
  made : ∀ x, w'.node? x ≠ w.node? x →
    w.node? x = none ∧ w'.node? x = some .dir ∧ ∃ i, w'.resolve (Path.parent^[i] p) = .ok (x, .dir)

namespace MadeDirsFor

variable {p : String}

theorem refl (p : String) (w : World) : MadeDirsFor p w w := ⟨rfl, fun _ h => absurd rfl h⟩

theorem dirsKept {w w' : World} (h : MadeDirsFor p w w') : DirsKept w w' := by
  refine ⟨h.home, fun x hx => ?_⟩
  by_cases hc : w'.node? x = w.node? x
  · rw [hc, hx]
  · simp [(h.made x hc).1] at hx

/-- What is made for the parent is made for the path. -/
theorem of_parent {w w' : World} (h : MadeDirsFor (Path.parent p) w w') : MadeDirsFor p w w' := by
  refine ⟨h.home, fun x hx => ?_⟩
  obtain ⟨hnone, hdir, i, hi⟩ := h.made x hx
  exact ⟨hnone, hdir, i + 1, by rwa [Function.iterate_succ_apply]⟩

theorem trans {w₁ w₂ w₃ : World} (h₁ : MadeDirsFor p w₁ w₂) (h₂ : MadeDirsFor p w₂ w₃) :
    MadeDirsFor p w₁ w₃ := by
  refine ⟨h₂.home.trans h₁.home, fun x hx => ?_⟩
  by_cases hc : w₂.node? x = w₁.node? x
  · -- made by the second step
    obtain ⟨hnone, hdir, i, hi⟩ := h₂.made x (by rwa [hc])
    exact ⟨hc ▸ hnone, hdir, i, hi⟩
  · -- made by the first step, and kept by the second
    obtain ⟨hnone, hdir, i, hi⟩ := h₁.made x hc
    exact ⟨hnone, h₂.dirsKept.dirs x hdir, i, resolve_dir_of_dirsKept h₂.dirsKept hi⟩

theorem of_makeDir {w w' : World} (h : w.makeDir p = .ok w') : MadeDirsFor p w w' := by
  obtain ⟨x₀, hx₀, hfree, rfl, hr⟩ := makeDir_eq_ok h
  refine ⟨rfl, fun x hx => ?_⟩
  have hx : x = x₀ := by
    by_contra hne
    exact hx (node?_put_ne w hne _)
  subst hx
  exact ⟨hfree, node?_put_self w hx₀ _, 0, hr⟩

end MadeDirsFor

/-- Making a directory and its parents only makes directories, where nothing stood, at the
paths that it or its parents name. -/
theorem madeDirsFor_makeDirsFuel (w : World) (p : String) (fuel : Nat) :
    MadeDirsFor p w (w.makeDirsFuel p fuel).1 := by
  induction fuel generalizing w p with
  | zero => exact .refl p w
  | succ fuel ih =>
    rw [makeDirsFuel]
    split
    · exact .refl p w
    · split
      · next w₁ h => exact .of_makeDir h
      · -- the parent is made first, then the directory again
        have hparent := (ih w (Path.parent p)).of_parent
        split
        · next w₁ e h => rw [h] at hparent; exact hparent
        · next w₁ h =>
          rw [h] at hparent
          split
          · next w₂ h₂ => exact hparent.trans (.of_makeDir h₂)
          · exact hparent
      · exact .refl p w

theorem madeDirsFor_makeDirs (w : World) (p : String) : MadeDirsFor p w (w.makeDirs p).1 :=
  madeDirsFor_makeDirsFuel w p _

theorem mem_nodes_of_node?_eq_some {w : World} {p : List String} (hp : p ≠ []) {n : Node}
    (h : w.node? p = some n) : (p, n) ∈ w.nodes := by
  match p, hp with
  | c :: cs, _ =>
    simp only [node?, Option.map_eq_some_iff] at h
    obtain ⟨e, he, rfl⟩ := h
    have hkey : e.1 = c :: cs := by simpa using List.find?_some he
    rw [← hkey]
    exact List.mem_of_find?_eq_some he

/-- No component of a path in the world is longer than `longestName`. -/
theorem length_le_longestName {w : World} {p : List String} {n : Node} (h : (p, n) ∈ w.nodes)
    {c : String} (hc : c ∈ p) : c.length ≤ w.longestName := by
  have hmem : c ∈ w.nodes.flatMap (·.1) := List.mem_flatMap.mpr ⟨(p, n), h, hc⟩
  unfold longestName
  generalize w.nodes.flatMap (·.1) = cs at hmem
  induction cs with
  | nil => simp at hmem
  | cons c' cs ih =>
    rcases List.mem_cons.mp hmem with rfl | hmem
    · exact Nat.le_max_left _ _
    · exact Nat.le_trans (ih hmem) (Nat.le_max_right _ _)

end World

/-- The namer that outgrows every name keeps its promise. -/
theorem TempFiles.unseen_fresh : TempFiles.unseen.Fresh := by
  intro w d
  cases h : w.node? (d ++ [TempFiles.unseen.pick w d]) with
  | none => rfl
  | some n =>
    exfalso
    have hmem := World.mem_nodes_of_node?_eq_some (by simp) h
    have hle := World.length_le_longestName hmem (List.mem_append_right d (List.mem_singleton_self _))
    have htmp : ".tmp".length = 4 := by decide
    have hlen : (TempFiles.unseen.pick w d).length = 4 + (w.longestName + 1) := by
      simp [TempFiles.unseen, String.length_append, htmp]
    omega

end ChaseProse.Files
