import ChaseProse.Chase.Fact
import ChaseProse.Proofs.Chase.TextForms
/-! The compact form `pred(a1,…,an)` of a fact read from text reads back as that fact. -/

namespace ChaseProse.Chase
open ChaseProse.Text

theorem mem_of_mem_trimList {c : Char} {cs : List Char} (h : c ∈ trimList cs) : c ∈ cs := by
  obtain ⟨a, b, hcs, -, -⟩ := eq_append_trimList cs
  rw [hcs]
  simp [h]

theorem length_trimList_le (cs : List Char) : (trimList cs).length ≤ cs.length := by
  simp only [trimList, dropBlanks, List.length_reverse]
  exact (List.length_dropWhile_le _ _).trans (by simpa using List.length_dropWhile_le _ _)

/-- A trimmed text starts with a character that is not blank. -/
theorem head_not_isBlank_of_trimList_eq {cs : List Char} (h : trimList cs = cs) :
    ∀ c ∈ cs.head?, isBlank c = false := by
  intro c hc
  cases cs with
  | nil => simp at hc
  | cons d cs =>
    obtain rfl : d = c := by simpa using hc
    cases hb : isBlank d with
    | false => rfl
    | true =>
      rw [trimList_cons_of_isBlank cs hb] at h
      have hlen := congrArg List.length h
      have hle := length_trimList_le cs
      simp only [List.length_cons] at hlen
      omega

/-- A text the splitter leaves in one piece is that piece. -/
theorem eq_of_pieces_eq_singleton {s : Scan} {cs p : List Char} (h : pieces s cs = [p]) :
    p = cs := by
  induction cs generalizing s p with
  | nil => simpa [pieces] using h.symm
  | cons c cs ih =>
    unfold pieces at h
    split at h
    · simp only [List.cons.injEq] at h
      exact absurd h.2 (pieces_ne_nil _ _)
    · split at h
      · next hnil => exact absurd hnil (pieces_ne_nil _ _)
      · next q qs hq =>
        simp only [List.cons.injEq] at h
        obtain ⟨rfl, rfl⟩ := h
        rw [ih hq]

/-- Joined arguments are blank only when there are none or a single empty one. -/
theorem trimList_intercalate_ne_nil {as : List String} (hne : as ≠ []) (hsingle : as ≠ [""])
    (htrim : ∀ a ∈ as, trimList a.toList = a.toList) :
    trimList (",".intercalate as).toList ≠ [] := by
  intro h
  have hblank := trimList_eq_nil_iff.mp h
  rcases as with _ | ⟨a, _ | ⟨b, as⟩⟩
  · exact hne rfl
  · -- one argument: trimmed and blank, so empty
    have ha : trimList a.toList = [] := trimList_eq_nil_iff.mpr (by simpa using hblank)
    rw [htrim a (by simp)] at ha
    exact hsingle (by simpa using ha)
  · have hcomma : ',' ∈ (",".intercalate (a :: b :: as)).toList := by
      simp [String.intercalate_cons_cons]
    exact absurd (hblank ',' hcomma) (by decide)

namespace Fact

/-- A text that trims to `P(I)`, with no `(` in `P`, reads as `P` trimmed with the top-level
pieces of `I`, none when `I` is blank. -/
theorem parse_of_trimList_eq {text : String} {P I : List Char}
    (ht : trimList text.toList = P ++ '(' :: (I ++ [')'])) (hP : '(' ∉ P)
    (hne : trimList P ≠ []) (hsym : isSymbol (trimList P)) :
    Fact.parse text = .ok ⟨String.ofList (trimList P),
      if (trimList I).isEmpty then [] else splitTopLevel (String.ofList I)⟩ := by
  have hpos : ∀ c ∈ P, (c != '(') = true := by
    intro c hc
    simp only [bne_iff_ne, ne_eq]
    rintro rfl
    exact hP hc
  have htake : (P ++ '(' :: (I ++ [')'])).takeWhile (· != '(') = P := by
    rw [List.takeWhile_append_of_pos hpos]
    simp
  have hdrop : (P ++ '(' :: (I ++ [')'])).dropWhile (· != '(') = '(' :: (I ++ [')']) := by
    rw [List.dropWhile_append_of_pos hpos]
    simp
  have hne' : (trimList P).isEmpty = false := by simpa using hne
  have hlast : ('(' :: (I ++ [')'])).getLast? = some ')' := by
    rw [← List.cons_append, List.getLast?_concat]
  simp [Fact.parse, ht, htake, hdrop, hne', hsym, hlast]

/-- What the compact form of a fact needs to read back. The predicate is a symbol without `(`
and without surrounding blanks; the arguments have no surrounding blanks, are not a single empty
argument (whose compact form reads as no argument), and the splitter cuts them apart where `,`
joins them. -/
structure Rereadable (f : Fact) : Prop where
  predicate_ne : f.predicate.toList ≠ []
  symbol : isSymbol f.predicate.toList
  no_paren : '(' ∉ f.predicate.toList
  trimmed : trimList f.predicate.toList = f.predicate.toList
  args_trimmed : ∀ a ∈ f.args, trimList a.toList = a.toList
  not_single_empty : f.args ≠ [""]
  cuts : Scan.start.Cuts (f.args.map String.toList)

/-- The compact form of a fact it carries reads back as that fact. -/
theorem parse_render {f : Fact} (h : f.Rereadable) : Fact.parse f.render = .ok f := by
  obtain ⟨pred, args⟩ := f
  have htext : (render ⟨pred, args⟩).toList =
      pred.toList ++ '(' :: ((",".intercalate args).toList ++ [')']) := by
    simp [render]
  -- the predicate starts the text and `)` ends it, so trimming keeps it whole
  have htrim : trimList (render ⟨pred, args⟩).toList = (render ⟨pred, args⟩).toList := by
    apply trimList_eq_self
    · rw [htext, List.head?_append_of_ne_nil _ h.predicate_ne]
      exact head_not_isBlank_of_trimList_eq h.trimmed
    · rw [htext, ← List.cons_append, ← List.append_assoc, List.getLast?_concat]
      intro c hc
      cases hc
      decide
  rw [parse_of_trimList_eq (htrim.trans htext) h.no_paren (by rw [h.trimmed]; exact h.predicate_ne)
    (by rw [h.trimmed]; exact h.symbol), h.trimmed, String.ofList_toList]
  congr
  cases args with
  | nil => simp [trimList, dropBlanks]
  | cons a as =>
    have hjoined : (trimList (",".intercalate (a :: as)).toList).isEmpty = false := by
      simpa using trimList_intercalate_ne_nil (List.cons_ne_nil a as) h.not_single_empty
        h.args_trimmed
    have htrim : ∀ x ∈ a :: as, trim x = x := fun x hx => by
      rw [trim, h.args_trimmed x hx, String.ofList_toList]
    rw [hjoined, if_neg Bool.false_ne_true, String.ofList_toList,
      splitTopLevel_intercalate [] (by simp) "," rfl (List.cons_ne_nil a as) htrim h.cuts]

/-- The arguments read from any text between the brackets have no surrounding blanks, are not a
single empty one, and are cut where they would be joined. -/
theorem args_rereadable (inner : List Char) :
    let args := if (trimList inner).isEmpty then [] else splitTopLevel (String.ofList inner)
    (∀ a ∈ args, trimList a.toList = a.toList) ∧ args ≠ [""] ∧
      Scan.start.Cuts (args.map String.toList) := by
  intro args
  by_cases hinner : (trimList inner).isEmpty
  · simp [args, hinner, Scan.Cuts]
  · simp only [args, hinner, splitTopLevel, String.toList_ofList]
    refine ⟨?_, ?_, ?_⟩
    · intro a ha
      obtain ⟨p, -, rfl⟩ := List.mem_map.mp ha
      simp [trimList_trimList]
    · -- a single piece is the whole text, which is not blank
      intro hone
      obtain ⟨p, hp, hempty⟩ := List.map_eq_singleton_iff.mp hone
      rw [eq_of_pieces_eq_singleton hp] at hempty
      apply hinner
      simpa using congrArg String.toList hempty
    · simpa [Function.comp_def] using (cuts_pieces Scan.start inner).map_trimList

/-- Every fact read from text is carried by its compact form. -/
theorem rereadable_of_parse {text : String} {f : Fact} (h : Fact.parse text = .ok f) :
    f.Rereadable := by
  unfold Fact.parse at h
  dsimp only at h
  split at h
  next =>
    split at h
    · cases h
    · split at h
      · cases h
      · next hpred hlast =>
        simp only [Bool.or_eq_true, List.isEmpty_iff, Bool.not_eq_true', not_or,
          Bool.not_eq_false] at hpred
        obtain ⟨hne, hsym⟩ := hpred
        -- the text between the brackets is taken as it stands
        generalize ((((trimList text.toList).dropWhile (· != '(')).drop 1).dropLast) = inner at h
        simp only [Except.ok.injEq] at h
        subst h
        obtain ⟨htrim, hsingle, hcuts⟩ := args_rereadable inner
        refine ⟨by simpa using hne, by simpa using hsym, ?_, by simp [trimList_trimList], htrim,
          hsingle, hcuts⟩
        -- the predicate is cut before the first `(`
        simp only [String.toList_ofList]
        intro hmem
        simpa using List.mem_takeWhile_imp (mem_of_mem_trimList hmem)
  next hparen =>
    split at h
    · cases h
    · next hbare =>
      simp only [Bool.or_eq_true, List.isEmpty_iff, Bool.not_eq_true', not_or,
        Bool.not_eq_false] at hbare
      obtain ⟨hne, hsym⟩ := hbare
      simp only [Except.ok.injEq] at h
      subst h
      refine ⟨by simpa using hne, by simpa using hsym, ?_, by simp [trimList_trimList],
        by simp, by simp, trivial⟩
      simpa using hparen

/-- The compact form `pred(a1,…,an)` of a fact read from any text reads back as the same fact:
the same predicate and the same argument texts, so the same arity. -/
theorem parse_render_of_parse {text : String} {f : Fact} (h : Fact.parse text = .ok f) :
    Fact.parse f.render = .ok f :=
  parse_render (rereadable_of_parse h)

/-- A quoted comma, a nested call and blanks around the arguments: read, written compactly and
read again. -/
theorem parse_render_of_parse_nested :
    Fact.parse " rel( \"a, b\" , f(c,d) ) " = .ok ⟨"rel", ["\"a, b\"", "f(c,d)"]⟩ ∧
      Fact.parse (Fact.render ⟨"rel", ["\"a, b\"", "f(c,d)"]⟩) = .ok ⟨"rel", ["\"a, b\"", "f(c,d)"]⟩ :=
  have h : Fact.parse " rel( \"a, b\" , f(c,d) ) " = .ok ⟨"rel", ["\"a, b\"", "f(c,d)"]⟩ := by
    decide +kernel
  ⟨h, parse_render_of_parse h⟩

end Fact

end ChaseProse.Chase
