import ChaseProse.Proofs.Prose.Negations
import Mathlib.Data.List.Chain
/-! Filling a template, stated without the tracker threaded through it: the description is cut into
words and single characters, and each piece is written on its own. -/

namespace ChaseProse.Prose
open ChaseProse.Chase ChaseProse.Rule

/-! ### Cutting a description into words -/

namespace Piece

/-- The characters a piece stands for. -/
def chars : Piece → List Char
  | .word w => w.toList
  | .other c => [c]

def isWord : Piece → Bool
  | .word _ => true
  | .other _ => false

end Piece

/-- A cut of a text into its maximal runs of word characters and the single other characters
between them: the pieces spell the text, words are non-empty runs of word characters, the other
pieces are not word characters, and no two words are neighbours. -/
structure Cut (cs : List Char) (ps : List Piece) : Prop where
  spells : ps.flatMap Piece.chars = cs
  words : ∀ w, Piece.word w ∈ ps → w.toList ≠ [] ∧ ∀ c ∈ w.toList, isWordChar c = true
  others : ∀ c, Piece.other c ∈ ps → isWordChar c = false
  apart : ps.IsChain fun a b => a.isWord = false ∨ b.isWord = false

theorem Cut.tail {cs : List Char} {pc : Piece} {ps : List Piece} (h : Cut cs (pc :: ps)) :
    Cut (ps.flatMap Piece.chars) ps where
  spells := rfl
  words w hw := h.words w (List.mem_cons_of_mem _ hw)
  others c hc := h.others c (List.mem_cons_of_mem _ hc)
  apart := h.apart.tail

/-- A run of word characters in front of a text whose cut starts with no word is one word more. -/
theorem piecesOf_word_append {u rest : List Char} (hu : u ≠ [])
    (hword : ∀ c ∈ u, isWordChar c = true)
    (hrest : ∀ pc ∈ (piecesOf rest).head?, pc.isWord = false) :
    piecesOf (u ++ rest) = .word (String.ofList u) :: piecesOf rest := by
  induction u with
  | nil => exact absurd rfl hu
  | cons c u ih =>
    have hc : isWordChar c = true := hword c (by simp)
    rcases u with _ | ⟨c', u⟩
    · -- a single character: the text after it does not start with a word
      rw [List.singleton_append, piecesOf, if_pos hc]
      split
      · next w r heq => simp [heq, Piece.isWord] at hrest
      · rfl
    · rw [List.cons_append, piecesOf, if_pos hc,
        ih (List.cons_ne_nil _ _) (fun d hd => hword d (List.mem_cons_of_mem _ hd))]
      simp

/-- The cut `piecesOf` makes is a cut. -/
theorem cut_piecesOf (cs : List Char) : Cut cs (piecesOf cs) := by
  induction cs with
  | nil => exact ⟨rfl, by simp [piecesOf], by simp [piecesOf], .nil⟩
  | cons c cs ih =>
    by_cases hc : isWordChar c = true
    · rw [piecesOf, if_pos hc]
      split
      · next w rest heq =>
        -- the character joins the word the rest starts with
        rw [heq] at ih
        refine ⟨?_, ?_, fun d hd => ih.others d (List.mem_cons_of_mem _ (by simpa using hd)), ?_⟩
        · have := ih.spells
          simp only [List.flatMap_cons, Piece.chars] at this ⊢
          simp [String.toList_append, this]
        · intro v hv
          rcases List.mem_cons.mp hv with h | h
          · cases h
            have hw := ih.words w (by simp)
            simp only [String.toList_append, String.toList_ofList, List.singleton_append]
            exact ⟨List.cons_ne_nil _ _, fun d hd => by
              rcases List.mem_cons.mp hd with rfl | hd
              · exact hc
              · exact hw.2 d hd⟩
          · exact ih.words v (List.mem_cons_of_mem _ h)
        · cases rest with
          | nil => exact .singleton _
          | cons q rest =>
            have hq := List.isChain_cons_cons.mp ih.apart
            exact List.isChain_cons_cons.mpr ⟨by simpa [Piece.isWord] using hq.1, hq.2⟩
      · next rest hrest =>
        -- the rest starts with no word, so the character is a word of its own
        refine ⟨?_, ?_, fun d hd => ih.others d (by simpa using hd), ?_⟩
        · simp [Piece.chars, ih.spells]
        · intro v hv
          rcases List.mem_cons.mp hv with h | h
          · cases h
            simp [hc]
          · exact ih.words v h
        · cases hr : piecesOf cs with
          | nil => exact .singleton _
          | cons q rest' =>
            rw [hr] at ih
            cases q with
            | word w => exact absurd hr (hrest w rest')
            | other d => exact List.isChain_cons_cons.mpr ⟨Or.inr rfl, ih.apart⟩
    · rw [piecesOf, if_neg hc]
      refine ⟨by simp [Piece.chars, ih.spells], fun v hv => ih.words v (by simpa using hv), ?_, ?_⟩
      · intro d hd
        rcases List.mem_cons.mp hd with h | h
        · cases h
          simpa using hc
        · exact ih.others d h
      · cases hr : piecesOf cs with
        | nil => exact .singleton _
        | cons q rest =>
          rw [hr] at ih
          exact List.isChain_cons_cons.mpr ⟨Or.inl rfl, ih.apart⟩

/-- A text has one cut only: the one `piecesOf` makes. -/
theorem eq_piecesOf_of_cut {cs : List Char} {ps : List Piece} (h : Cut cs ps) :
    ps = piecesOf cs := by
  induction ps generalizing cs with
  | nil => rw [← h.spells]; rfl
  | cons pc ps ih =>
    have hps := ih h.tail
    rw [← h.spells]
    cases pc with
    | other c =>
      have hc := h.others c (by simp)
      simp only [List.flatMap_cons, Piece.chars, List.singleton_append]
      rw [piecesOf, if_neg (by simp [hc]), ← hps]
    | word w =>
      obtain ⟨hne, hword⟩ := h.words w (by simp)
      -- the piece after a word is no word
      have hnext : ∀ q ∈ (piecesOf (ps.flatMap Piece.chars)).head?, q.isWord = false := by
        intro q hq
        rw [← hps] at hq
        cases ps with
        | nil => simp at hq
        | cons q' ps =>
          obtain rfl : q' = q := by simpa using hq
          simpa [Piece.isWord] using (List.isChain_cons_cons.mp h.apart).1
      simp only [List.flatMap_cons, Piece.chars]
      rw [piecesOf_word_append hne hword hnext, String.ofList_toList, ← hps]

/-- The cuts of a text are exactly the one `piecesOf` makes. -/
theorem cut_iff (cs : List Char) (ps : List Piece) : Cut cs ps ↔ ps = piecesOf cs :=
  ⟨eq_piecesOf_of_cut, fun h => h ▸ cut_piecesOf cs⟩

/-! ### Filling the pieces -/

section Filling

variable (t : Template) (f : Fact) (p : Pattern)

/-- The null a word names: the unquoted argument at its placeholder's first position, when the
pattern marks that position null. -/
def nullOf? (w : String) : Option String := do
  let q ← t.positionOf? w
  let a ← f.arg? q
  if p.isNull q then some (unquote a) else none

/-- The null a piece names, if any. -/
def nullsAt : Piece → List String
  | .word w => (nullOf? t f p w).toList
  | .other _ => []

/-- The nulls the words among the pieces name, in order, repeats kept. -/
def nullsOf (ps : List Piece) : List String := ps.flatMap (nullsAt t f p)

/-- The null a piece introduces after the nulls `known`: the one it names, if not known. -/
def introduces? (known : List String) : Piece → Option String
  | .word w => (nullOf? t f p w).filter fun v => v ∉ known
  | .other _ => none

/-- The nulls the pieces introduce after the tracker `seen`: a piece introduces the null it names
when neither the tracker nor an earlier piece names it. -/
def introduced (seen : NullTracker) (ps : List Piece) : List String :=
  ps.zipIdx.filterMap fun e => introduces? t f p (seen ++ nullsOf t f p (ps.take e.2)) e.1

variable (cfg : Config)

/-- The text of a piece after the nulls `known`: a placeholder word is the unquoted argument at
its first position, written as the null phrase when it is a null not known, else in double quotes
for an entity and bare for a value; any other word and any other character stay. -/
def pieceText (known : List String) : Piece → String
  | .other c => String.ofList [c]
  | .word w =>
    match t.positionOf? w with
    | none => w
    | some q =>
      match f.arg? q with
      | none => w
      | some a =>
        if p.isNull q = true ∧ unquote a ∉ known then cfg.nullPhraseFor (unquote a)
        else
          match t.kind q with
          | .entity => "\"" ++ unquote a ++ "\""
          | .value => unquote a

/-- The filled text: each piece's text after the tracker and the nulls the earlier pieces name. -/
def filledText (seen : NullTracker) (ps : List Piece) : String :=
  String.join (ps.zipIdx.map fun e => pieceText t f p cfg (seen ++ nullsOf t f p (ps.take e.2)) e.1)

end Filling

section Lemmas

variable {t : Template} {f : Fact} {p : Pattern} {cfg : Config}

@[simp] theorem nullsOf_nil : nullsOf t f p [] = [] := rfl

@[simp] theorem nullsOf_cons (pc : Piece) (ps : List Piece) :
    nullsOf t f p (pc :: ps) = nullsAt t f p pc ++ nullsOf t f p ps := List.flatMap_cons

/-- What a piece introduces and how it is written depend on the known nulls as a set. -/
theorem introduces?_congr {k₁ k₂ : List String} (h : ∀ v, v ∈ k₁ ↔ v ∈ k₂) (pc : Piece) :
    introduces? t f p k₁ pc = introduces? t f p k₂ pc := by
  cases pc with
  | word w => simp [introduces?, h]
  | other c => rfl

theorem pieceText_congr {k₁ k₂ : List String} (h : ∀ v, v ∈ k₁ ↔ v ∈ k₂) (pc : Piece) :
    pieceText t f p cfg k₁ pc = pieceText t f p cfg k₂ pc := by
  cases pc with
  | word w => simp [pieceText, h]
  | other c => rfl

theorem mem_append_congr {k₁ k₂ : List String} (h : ∀ v, v ∈ k₁ ↔ v ∈ k₂) (l : List String) :
    ∀ v, v ∈ k₁ ++ l ↔ v ∈ k₂ ++ l := by
  simp [h]

theorem introduced_congr {k₁ k₂ : List String} (h : ∀ v, v ∈ k₁ ↔ v ∈ k₂) (ps : List Piece) :
    introduced t f p k₁ ps = introduced t f p k₂ ps := by
  simp only [introduced, introduces?_congr (mem_append_congr h _)]

theorem filledText_congr {k₁ k₂ : List String} (h : ∀ v, v ∈ k₁ ↔ v ∈ k₂) (ps : List Piece) :
    filledText t f p cfg k₁ ps = filledText t f p cfg k₂ ps := by
  simp only [filledText, pieceText_congr (mem_append_congr h _)]

@[simp] theorem introduced_nil (seen : NullTracker) : introduced t f p seen [] = [] := rfl

@[simp] theorem filledText_nil (seen : NullTracker) : filledText t f p cfg seen [] = "" := rfl

/-- The first piece introduces what it names and is not known; the rest see what it names. -/
theorem introduced_cons (seen : NullTracker) (pc : Piece) (ps : List Piece) :
    introduced t f p seen (pc :: ps) =
      (introduces? t f p seen pc).toList ++ introduced t f p (seen ++ nullsAt t f p pc) ps := by
  have hrest : ps.zipIdx.filterMap
      ((fun e => introduces? t f p (seen ++ nullsOf t f p ((pc :: ps).take e.2)) e.1) ∘
        fun e => (e.1, e.2 + 1)) = introduced t f p (seen ++ nullsAt t f p pc) ps := by
    rw [introduced]
    congr 1
    funext e
    simp only [Function.comp, List.take_succ_cons, nullsOf_cons, List.append_assoc]
  rw [introduced, List.zipIdx_cons, List.filterMap_cons, List.zipIdx_succ, List.filterMap_map,
    hrest]
  simp only [List.take_zero, nullsOf_nil, List.append_nil]
  cases introduces? t f p seen pc <;> rfl

theorem filledText_cons (seen : NullTracker) (pc : Piece) (ps : List Piece) :
    filledText t f p cfg seen (pc :: ps) =
      pieceText t f p cfg seen pc ++ filledText t f p cfg (seen ++ nullsAt t f p pc) ps := by
  have hrest : ps.zipIdx.map
      ((fun e => pieceText t f p cfg (seen ++ nullsOf t f p ((pc :: ps).take e.2)) e.1) ∘
        fun e => (e.1, e.2 + 1)) =
      (ps.zipIdx.map fun e => pieceText t f p cfg (seen ++ nullsAt t f p pc ++
        nullsOf t f p (ps.take e.2)) e.1) := by
    congr 1
    funext e
    simp only [Function.comp, List.take_succ_cons, nullsOf_cons, List.append_assoc]
  rw [filledText, List.zipIdx_cons, List.map_cons, List.zipIdx_succ, List.map_map, hrest,
    String.join_cons]
  simp only [List.take_zero, nullsOf_nil, List.append_nil, filledText]

theorem mem_introduces? (known : List String) (pc : Piece) (v : String) :
    v ∈ (introduces? t f p known pc).toList ↔ v ∈ nullsAt t f p pc ∧ v ∉ known := by
  cases pc with
  | other c => simp [introduces?, nullsAt]
  | word w =>
    simp only [introduces?, nullsAt]
    cases nullOf? t f p w with
    | none => simp
    | some u =>
      by_cases hu : u ∈ known
      · simp only [Option.filter_some, hu, not_true_eq_false, decide_false, Bool.false_eq_true,
          if_false, Option.toList_none, List.not_mem_nil, Option.toList_some,
          List.mem_singleton, false_iff, not_and, not_not]
        rintro rfl
        exact hu
      · simp only [Option.filter_some, hu, not_false_eq_true, decide_true, if_true,
          Option.toList_some, List.mem_singleton, iff_self_and]
        rintro rfl
        exact hu

/-- The tracker after a piece knows the same nulls as the tracker with what the piece names. -/
theorem mem_introduces?_iff (seen : NullTracker) (pc : Piece) :
    ∀ v, v ∈ seen ++ (introduces? t f p seen pc).toList ↔ v ∈ seen ++ nullsAt t f p pc := by
  intro v
  rw [List.mem_append, mem_introduces?, List.mem_append]
  tauto

/-- The pieces introduce each null they name that the tracker does not know, and only once. -/
theorem introduced_spec (seen : NullTracker) (ps : List Piece) :
    (introduced t f p seen ps).Nodup ∧
      ∀ v, v ∈ introduced t f p seen ps ↔ v ∈ nullsOf t f p ps ∧ v ∉ seen := by
  induction ps generalizing seen with
  | nil => simp
  | cons pc ps ih =>
    obtain ⟨hnodup, hmem⟩ := ih (seen ++ nullsAt t f p pc)
    rw [introduced_cons]
    constructor
    · -- what the first piece introduces, the later pieces know
      refine List.nodup_append.mpr ⟨?_, hnodup, ?_⟩
      · cases introduces? t f p seen pc <;> simp
      · rintro v hv u hu rfl
        have hnamed := ((mem_introduces? seen pc v).mp hv).1
        exact ((hmem v).mp hu).2 (List.mem_append_right _ hnamed)
    · intro v
      rw [List.mem_append, mem_introduces?, hmem, nullsOf_cons]
      simp only [List.mem_append, not_or]
      tauto

variable (cfg) in
/-- A word's text, and the tracker after it. -/
theorem fillWord_getD (seen : NullTracker) (w : String) :
    (fillWord cfg t f p seen w).getD (w, seen) =
      (pieceText t f p cfg seen (.word w), seen ++ (introduces? t f p seen (.word w)).toList) := by
  cases hq : t.positionOf? w with
  | none => simp [fillWord, pieceText, introduces?, nullOf?, hq]
  | some q =>
    cases ha : f.arg? q with
    | none => simp [fillWord, pieceText, introduces?, nullOf?, hq, ha]
    | some a =>
      by_cases hfresh : p.isNull q = true ∧ unquote a ∉ seen
      · simp [fillWord, pieceText, introduces?, nullOf?, hq, ha, hfresh, Option.filter_some]
      · cases hk : t.kind q <;> by_cases hn : p.isNull q = true <;>
          simp_all [fillWord, pieceText, introduces?, nullOf?]

variable (cfg) in
/-- Filling the pieces in turn, the tracker threaded through, writes each piece after the tracker
and the nulls named before it, and adds the nulls the pieces introduce. -/
theorem fill_eq (ps : List Piece) (seen : NullTracker) :
    fill cfg t f p ps seen = (filledText t f p cfg seen ps, seen ++ introduced t f p seen ps) := by
  induction ps generalizing seen with
  | nil => simp [fill]
  | cons pc ps ih =>
    cases pc with
    | other c =>
      simp only [fill, ih, filledText_cons, introduced_cons, introduces?, nullsAt, pieceText,
        List.append_nil, Option.toList_none, List.nil_append]
    | word w =>
      have hw := fillWord_getD cfg (t := t) (f := f) (p := p) seen w
      rcases hget : (fillWord cfg t f p seen w).getD (w, seen) with ⟨text, seen1⟩
      rw [hget, Prod.mk.injEq] at hw
      obtain ⟨htext, hseen1⟩ := hw
      -- the tracker after the word knows what the word names
      have hknown : ∀ v, v ∈ seen1 ↔ v ∈ seen ++ nullsAt t f p (.word w) := by
        rw [hseen1]
        exact mem_introduces?_iff seen _
      have hfill : fill cfg t f p (.word w :: ps) seen =
          (text ++ (fill cfg t f p ps seen1).1, (fill cfg t f p ps seen1).2) := by
        rw [fill, hget]
      rw [hfill, ih, filledText_cons, introduced_cons, htext, filledText_congr hknown,
        introduced_congr hknown, hseen1, List.append_assoc]

end Lemmas

/-! ### A fact's sentence -/

/-- A fact's sentence: none without a template for its predicate and arity; otherwise the
template's description cut into words and other characters, each piece written after the tracker
and the nulls the pieces before it name, and the tracker with the nulls the pieces introduce. -/
theorem describe_eq (cfg : Config) (d : Dictionary) (f : Fact) (p : Pattern) (seen : NullTracker) :
    describe cfg d f p seen = (d.lookup? f.predicate f.arity).map fun t =>
      (filledText t f p cfg seen (piecesOf t.description.toList),
        seen ++ introduced t f p seen (piecesOf t.description.toList)) := by
  simp only [describe, fill_eq]

/-! ### One tracker through a sentence -/

/-- The tracker `seen'` is `seen` with nulls added that it did not know, each once. -/
def AddsFresh (seen seen' : NullTracker) : Prop :=
  ∃ fresh, seen' = seen ++ fresh ∧ fresh.Nodup ∧ ∀ v ∈ fresh, v ∉ seen

theorem AddsFresh.refl (seen : NullTracker) : AddsFresh seen seen := ⟨[], by simp, .nil, by simp⟩

theorem AddsFresh.trans {s₁ s₂ s₃ : NullTracker} (h₁ : AddsFresh s₁ s₂)
    (h₂ : AddsFresh s₂ s₃) : AddsFresh s₁ s₃ := by
  obtain ⟨fresh₁, rfl, hnodup₁, hnew₁⟩ := h₁
  obtain ⟨fresh₂, rfl, hnodup₂, hnew₂⟩ := h₂
  refine ⟨fresh₁ ++ fresh₂, by simp, List.nodup_append.mpr ⟨hnodup₁, hnodup₂, ?_⟩, ?_⟩
  · rintro v hv u hu rfl
    exact hnew₂ v hu (List.mem_append_right _ hv)
  · intro v hv
    rcases List.mem_append.mp hv with hv | hv
    · exact hnew₁ v hv
    · exact fun hs => hnew₂ v hv (List.mem_append_left _ hs)

/-- A tracker grown from none names each null once. -/
theorem AddsFresh.nodup {seen : NullTracker} (h : AddsFresh [] seen) : seen.Nodup := by
  obtain ⟨fresh, rfl, hnodup, -⟩ := h
  simpa using hnodup

/-- Describing a fact, or writing it as it stands, only adds the nulls it introduces. -/
theorem describeOrLiteral_addsFresh (cfg : Config) (d : Dictionary) (f : Fact) (p : Pattern)
    (seen : NullTracker) : AddsFresh seen (describeOrLiteral cfg d f p seen).2 := by
  rw [describeOrLiteral, describe_eq]
  cases d.lookup? f.predicate f.arity with
  | none => exact AddsFresh.refl seen
  | some t =>
    obtain ⟨hnodup, hmem⟩ := introduced_spec (t := t) (f := f) (p := p) seen
      (piecesOf t.description.toList)
    exact ⟨_, rfl, hnodup, fun v hv => ((hmem v).mp hv).2⟩

section Clauses

variable (cfg : Config) (d : Dictionary) (b : Bindings)

theorem Slot.clause_addsFresh (sl : Slot) (seen : NullTracker) :
    AddsFresh seen (sl.clause cfg d b seen).2 := by
  cases sl with
  | fact g => exact describeOrLiteral_addsFresh cfg d g.fact g.pattern seen
  | literal e => exact AddsFresh.refl seen
  | negation a =>
    rw [Slot.clause_negation]
    exact describeOrLiteral_addsFresh cfg d _ _ seen

/-- The clauses of a sentence's places only add nulls, each once, whatever the places. -/
theorem slotClauses_addsFresh (ps : List Slot) (seen : NullTracker) :
    AddsFresh seen (slotClauses cfg d b ps seen).2 := by
  induction ps generalizing seen with
  | nil => exact AddsFresh.refl seen
  | cons sl ps ih =>
    rw [slotClauses_cons]
    exact (sl.clause_addsFresh cfg d b seen).trans (ih _)

end Clauses

/-- Filling a template replaces whole words and introduces each null once. A fact has no sentence
exactly when no template has its predicate and arity. Otherwise its template's description has a
cut into maximal runs of word characters and the characters between them, and for such a cut the
sentence writes each piece after the tracker and the nulls the pieces before it name: a
placeholder word becomes the unquoted argument at its first position, as the null phrase when it
is a null not known yet, else quoted for an entity (the default) and bare for a value; every other
word and character is kept. The tracker gains exactly the nulls introduced, each once. In the
sentence of a derived step one tracker runs from none through the body's clauses, negation clauses
included, to the head, so the body introduces no null twice. -/
theorem describe_substitutes_words :
    (∀ (cfg : Config) (d : Dictionary) (f : Fact) (p : Pattern) (seen : NullTracker),
      (describe cfg d f p seen = none ↔ d.lookup? f.predicate f.arity = none) ∧
      ∀ t, d.lookup? f.predicate f.arity = some t →
        (∃ ps, Cut t.description.toList ps) ∧
        ∀ ps, Cut t.description.toList ps →
          describe cfg d f p seen =
            some (filledText t f p cfg seen ps, seen ++ introduced t f p seen ps) ∧
          (introduced t f p seen ps).Nodup ∧
          ∀ v, v ∈ introduced t f p seen ps ↔ v ∈ nullsOf t f p ps ∧ v ∉ seen) ∧
    ∀ (x : Explainer) (i : Nat) (s : Step) (f : Fact),
      let body := expand x.cfg x.dict x.store s.provenance
      let rule := (x.rules[i]?).getD none
      let b := (rule.map fun r =>
        bindHead (unify r.positiveAtoms body.candidates) r.head ⟨f, s.pattern⟩).getD []
      let clauses := slotClauses x.cfg x.dict b
        (arrange body.entries ((rule.map Rule.negatedAtoms).getD [])) []
      (x.draft i s f).body = clauses.1 ∧
      (x.draft i s f).head = (describe x.cfg x.dict f s.pattern clauses.2).map (·.1) ∧
      clauses.2.Nodup := by
  refine ⟨fun cfg d f p seen => ⟨?_, fun t ht => ⟨⟨_, cut_piecesOf _⟩, fun ps hps => ?_⟩⟩, ?_⟩
  · simp [describe_eq]
  · rw [describe_eq, ht, Option.map_some, ← eq_piecesOf_of_cut hps]
    exact ⟨rfl, introduced_spec seen ps⟩
  · intro x i s f
    obtain ⟨hbody, -, -, hhead⟩ := x.draft_parts i s f
    exact ⟨hbody, hhead, (slotClauses_addsFresh ..).nodup⟩

/-- A template with a value argument, an entity argument named twice and placeholder letters
inside longer words. -/
def ownsTemplate : Template :=
  ⟨"owns", ["A", "B"], "A owns B; AB and A_1 stay, A again", [.entity, .value]⟩

/-- The entity is a null: the pieces introduce it once, though `A` names it twice. -/
theorem describe_substitutes_words_owns :
    let f : Fact := ⟨"owns", ["n1", "\"b\""]⟩
    let p : Pattern := ⟨[-1, 0]⟩
    let ps := piecesOf ownsTemplate.description.toList
    (⟨[ownsTemplate]⟩ : Dictionary).lookup? f.predicate f.arity = some ownsTemplate ∧
      introduced ownsTemplate f p [] ps = ["n1"] ∧
      describe {} ⟨[ownsTemplate]⟩ f p [] =
        some (filledText ownsTemplate f p {} [] ps, [] ++ introduced ownsTemplate f p [] ps) ∧
      (introduced ownsTemplate f p [] ps).Nodup ∧
      ∀ v, v ∈ introduced ownsTemplate f p [] ps ↔ v ∈ nullsOf ownsTemplate f p ps ∧ v ∉ [] := by
  intro f p ps
  have hlookup : (⟨[ownsTemplate]⟩ : Dictionary).lookup? f.predicate f.arity = some ownsTemplate :=
    by decide
  have hintro : introduced ownsTemplate f p [] ps = ["n1"] := by decide +kernel
  exact ⟨hlookup, hintro,
    ((describe_substitutes_words.1 {} ⟨[ownsTemplate]⟩ f p []).2 ownsTemplate hlookup).2 ps
      (cut_piecesOf _)⟩

/- Without nulls every `A` is the quoted entity and `B` the bare value; `AB` and `A_1` are other
words. -/
example : filledText ownsTemplate ⟨"owns", ["n1", "\"b\""]⟩ ⟨[0, 0]⟩ {} []
    (piecesOf ownsTemplate.description.toList) = "\"n1\" owns b; AB and A_1 stay, \"n1\" again" := by
  decide +kernel

end ChaseProse.Prose
