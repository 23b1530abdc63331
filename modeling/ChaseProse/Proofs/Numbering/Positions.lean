import ChaseProse.Proofs.Numbering.Cycle
/-! Which steps share a label: two distinct steps share one only through a step without a rule,
which passes its parent's label on. -/
namespace ChaseProse.Numbering
open ChaseProse.Chase

variable {cfg : Config} {t : Store}

/-! ### Labels as a root and segments -/

/-- `l` is `label` followed by further segments, each starting with a dot. -/
def Extends (l label : String) : Prop :=
  ∃ tail : List Char, l.toList = label.toList ++ tail ∧ (tail = [] ∨ tail.head? = some '.')

theorem Extends.refl (l : String) : Extends l l := ⟨[], by simp, .inl rfl⟩

theorem Extends.trans {l m n : String} (hlm : Extends l m) (hmn : Extends m n) : Extends l n := by
  obtain ⟨t1, e1, h1⟩ := hlm
  obtain ⟨t2, e2, h2⟩ := hmn
  refine ⟨t2 ++ t1, by rw [e1, e2, List.append_assoc], ?_⟩
  cases t2 with
  | nil => simpa using h1
  | cons c t2 => simpa using h2

theorem extends_segment (label s : String) : Extends (label ++ "." ++ s) label :=
  ⟨'.' :: s.toList, by simp, .inr rfl⟩

theorem Extends.length_le {l m : String} (h : Extends l m) : m.toList.length ≤ l.toList.length := by
  obtain ⟨tail, e, -⟩ := h
  rw [e, List.length_append]
  omega

/-- No label extends a label one segment longer than itself. -/
theorem not_extends_segment (label s : String) : ¬ Extends label (label ++ "." ++ s) := by
  intro h
  have hlen := h.length_le
  have hdot : ".".toList.length = 1 := rfl
  simp only [String.toList_append, List.length_append] at hlen
  omega

/-- Two texts free of dots, each followed by nothing or by a dot, are equal if the two
concatenations are. -/
theorem eq_of_append_dotted {s s' t1 t2 : List Char} (hs : '.' ∉ s) (hs' : '.' ∉ s')
    (h1 : t1 = [] ∨ t1.head? = some '.') (h2 : t2 = [] ∨ t2.head? = some '.')
    (h : s ++ t1 = s' ++ t2) : s = s' := by
  induction s generalizing s' with
  | nil =>
    cases s' with
    | nil => rfl
    | cons c s' =>
      -- `t1` would start with `c`, which is no dot
      rw [List.nil_append] at h
      subst h
      simp only [List.cons_append, reduceCtorEq, List.head?_cons, Option.some.injEq, false_or] at h1
      simp [h1] at hs'
  | cons c s ih =>
    cases s' with
    | nil =>
      rw [List.nil_append] at h
      subst h
      simp only [List.cons_append, reduceCtorEq, List.head?_cons, Option.some.injEq, false_or] at h2
      simp [h2] at hs
    | cons c' s' =>
      simp only [List.cons_append, List.cons.injEq] at h
      obtain ⟨rfl, h⟩ := h
      rw [ih (fun h => hs (by simp [h])) (fun h => hs' (by simp [h])) h]

/-- Labels extending two one-dot-free prefixes agree on them: a label has one root. -/
theorem eq_of_extends_of_extends {l a b : String} (ha : '.' ∉ a.toList) (hb : '.' ∉ b.toList)
    (hla : Extends l a) (hlb : Extends l b) : a = b := by
  obtain ⟨t1, e1, h1⟩ := hla
  obtain ⟨t2, e2, h2⟩ := hlb
  exact String.toList_inj.mp (eq_of_append_dotted ha hb h1 h2 (e1.symm.trans e2))

/-- A label extending two segments of one prefix names the same segment in both. -/
theorem segment_eq_of_extends {l a s s' : String} (hs : '.' ∉ s.toList) (hs' : '.' ∉ s'.toList)
    (h : Extends l (a ++ "." ++ s)) (h' : Extends l (a ++ "." ++ s')) : s = s' := by
  obtain ⟨t1, e1, h1⟩ := h
  obtain ⟨t2, e2, h2⟩ := h'
  have hcat : s.toList ++ t1 = s'.toList ++ t2 := by
    have := e1.symm.trans e2
    simpa using this
  exact String.toList_inj.mp (eq_of_append_dotted hs hs' h1 h2 hcat)

theorem dot_not_mem_toString (n : Nat) : '.' ∉ (toString n).toList := by
  intro h
  rw [Nat.toString_eq_ofList_toDigits, String.toList_ofList] at h
  have := Nat.isDigit_of_mem_toDigits (by decide) (by decide) h
  simp at this

theorem head?_toString_isDigit (n : Nat) : ((toString n).toList.head?).all Char.isDigit := by
  rw [Nat.toString_eq_ofList_toDigits, String.toList_ofList]
  cases h : Nat.toDigits 10 n with
  | nil => rfl
  | cons c cs => simpa using Nat.isDigit_of_mem_toDigits (by decide) (by decide) (h ▸ List.mem_cons_self)

/-! ### The segment of a child -/

/-- A child with no rule: it passes its parent's label on. -/
def isPassThrough (t : Store) (c : Nat) : Bool := ((t.step? c).map fun s => !s.hasRule).getD false

/-- The segment a child with a rule adds to its parent's label, after the children `earlier`:
`Tk` for the `k`-th placeholder, `k` for the `k`-th other child with a rule. -/
def childSegment (cfg : Config) (t : Store) (earlier : List Nat) (c : Nat) : String :=
  if isTempChild cfg t c then "T" ++ toString (earlier.countP (isTempChild cfg t) + 1)
  else toString (earlier.countP (isDerivedChild cfg t) + 1)

theorem dot_not_mem_childSegment (earlier : List Nat) (c : Nat) :
    '.' ∉ (childSegment cfg t earlier c).toList := by
  unfold childSegment
  split
  · simpa using dot_not_mem_toString _
  · exact dot_not_mem_toString _

/-- For a step of the trace, the three kinds of child: placeholder, derived, pass-through. -/
theorem temp_or_derived_iff {c : Nat} (hc : c < t.size) :
    (isTempChild cfg t c || isDerivedChild cfg t c) = !isPassThrough t c := by
  obtain ⟨s, hs⟩ : ∃ s, t.step? c = some s := Option.isSome_iff_exists.mp (by
    simpa [Store.step?, Store.size] using hc)
  cases hr : s.hasRule <;> cases hp : cfg.isPlaceholder s.name <;>
    simp [isTempChild, isDerivedChild, isPassThrough, hs, hr, hp]

theorem labelOfChild_of_passThrough {label : String} {earlier : List Nat} {c : Nat}
    (hc : c < t.size) (hp : isPassThrough t c = true) :
    labelOfChild cfg t label earlier c = label := by
  have h := @temp_or_derived_iff cfg t c hc
  rw [hp, Bool.not_true, Bool.or_eq_false_iff] at h
  simp [labelOfChild, h.1, h.2]

theorem labelOfChild_of_not_passThrough {label : String} {earlier : List Nat} {c : Nat}
    (hc : c < t.size) (hp : isPassThrough t c = false) :
    labelOfChild cfg t label earlier c = label ++ "." ++ childSegment cfg t earlier c := by
  have h := @temp_or_derived_iff cfg t c hc
  rw [hp, Bool.not_false, Bool.or_eq_true] at h
  unfold labelOfChild childSegment
  by_cases ht : isTempChild cfg t c = true
  · simp only [ht, if_true, String.append_assoc]
    rfl
  · have hd : isDerivedChild cfg t c = true := by simpa [ht] using h
    simp [ht, hd, String.append_assoc]

theorem labelOfChild_extends (label : String) (earlier : List Nat) (c : Nat) :
    Extends (labelOfChild cfg t label earlier c) label := by
  unfold labelOfChild
  split
  · rw [String.append_assoc, show ".T" ++ _ = "." ++ ("T" ++ _) by rw [← String.append_assoc]; rfl,
      ← String.append_assoc]
    exact extends_segment _ _
  · split
    · exact extends_segment _ _
    · exact .refl _

/-- Counting up to a later position counts the earlier child too. -/
theorem countP_take_lt {p : Nat → Bool} {cs : List Nat} {i j : Nat} (hi : i < cs.length)
    (hij : i < j) (hp : p cs[i] = true) : (cs.take i).countP p < (cs.take j).countP p := by
  have hsucc : (cs.take (i + 1)).countP p = (cs.take i).countP p + 1 := by
    rw [List.take_add_one, List.getElem?_eq_getElem hi]
    simp only [Option.toList_some, List.countP_append, List.countP_singleton, hp]
    rfl
  have hle : (cs.take (i + 1)).countP p ≤ (cs.take j).countP p :=
    (List.take_prefix_take_left (by omega)).countP_le
  omega

/-- A child with a rule gets a segment no later child of its parent gets. -/
theorem childSegment_ne {cs : List Nat} {i j : Nat} (hi : i < cs.length) (hj : j < cs.length)
    (hij : i < j) (hri : (isTempChild cfg t cs[i] || isDerivedChild cfg t cs[i]) = true) :
    childSegment cfg t (cs.take i) cs[i] ≠ childSegment cfg t (cs.take j) cs[j] := by
  unfold childSegment
  by_cases hti : isTempChild cfg t cs[i] = true <;> by_cases htj : isTempChild cfg t cs[j] = true
  · -- two placeholders: the later one has counted the earlier
    have hlt := countP_take_lt hi hij hti
    simp only [hti, htj, if_true, ne_eq, String.append_right_inj]
    intro h
    have := toString_injective h
    omega
  · -- a placeholder segment starts with `T`, any other with a digit
    simp only [hti, htj, if_true, Bool.false_eq_true, if_false, ne_eq]
    intro h
    have := congrArg (fun s => (s.toList.head?).all Char.isDigit) h
    simp only [String.toList_append, head?_toString_isDigit] at this
    simp at this
  · simp only [hti, htj, if_true, Bool.false_eq_true, if_false, ne_eq]
    intro h
    have := congrArg (fun s => (s.toList.head?).all Char.isDigit) h
    simp only [String.toList_append, head?_toString_isDigit] at this
    simp at this
  · have hdi : isDerivedChild cfg t cs[i] = true := by simpa [hti] using hri
    have hlt := countP_take_lt hi hij hdi
    simp only [hti, htj, Bool.false_eq_true, if_false, ne_eq]
    intro h
    have := toString_injective h
    omega

theorem mem_labelledChildren {label : String} {cs : List Nat} {c : Nat} {lc : String} :
    (c, lc) ∈ labelledChildren cfg t label cs ↔
      ∃ (k : Nat) (hk : k < cs.length), cs[k] = c ∧ lc = labelOfChild cfg t label (cs.take k) c := by
  simp only [labelledChildren, List.mem_mapIdx, Prod.mk.injEq]
  constructor
  · rintro ⟨k, hk, rfl, rfl⟩
    exact ⟨k, hk, rfl, rfl⟩
  · rintro ⟨k, hk, rfl, rfl⟩
    exact ⟨k, hk, rfl, rfl⟩

/-! ### Labels emitted below a step -/

/-- Every label a walk emits extends the label of the step it starts from. -/
theorem extends_of_mem_preorder {g : Array (List Nat)} {d node x : Nat} {label l : String}
    (h : (x, l) ∈ preorder cfg t g d node label) : Extends l label := by
  induction d generalizing node label with
  | zero =>
    simp only [preorder, List.mem_singleton, Prod.mk.injEq] at h
    exact h.2 ▸ .refl _
  | succ d ih =>
    simp only [preorder, List.mem_cons, Prod.mk.injEq, List.mem_flatMap] at h
    obtain ⟨-, rfl⟩ | ⟨⟨c, lc⟩, hc, hx⟩ := h
    · exact .refl _
    · obtain ⟨k, hk, -, rfl⟩ := mem_labelledChildren.mp hc
      exact (ih hx).trans (labelOfChild_extends _ _ _)

/-- Every step a walk emits is reached from the step it starts from. -/
theorem reach_of_mem_preorder {d node x : Nat} {label l : String}
    (h : (x, l) ∈ preorder cfg t t.graph d node label) : Relation.ReflTransGen t.Edge node x := by
  induction d generalizing node label with
  | zero =>
    simp only [preorder, List.mem_singleton, Prod.mk.injEq] at h
    exact h.1 ▸ .refl
  | succ d ih =>
    simp only [preorder, List.mem_cons, Prod.mk.injEq, List.mem_flatMap] at h
    obtain ⟨rfl, -⟩ | ⟨q, hq, hx⟩ := h
    · exact .refl
    · exact .head (fst_mem_of_mem_labelledChildren hq) (ih hx)

/-- A chain of edges into steps without a rule: each passes the label on. -/
def PassChain (t : Store) : Nat → Nat → Prop :=
  Relation.ReflTransGen fun p c => t.Edge p c ∧ isPassThrough t c = true

/-- A step emitted below `node` with `node`'s own label is reached from it through
pass-through steps: a step with a rule would have added a segment. -/
theorem passChain_of_mem_preorder {d node y : Nat} {label : String}
    (h : (y, label) ∈ preorder cfg t t.graph d node label) : PassChain t node y := by
  induction d generalizing node with
  | zero =>
    simp only [preorder, List.mem_singleton, Prod.mk.injEq] at h
    exact h.1 ▸ .refl
  | succ d ih =>
    simp only [preorder, List.mem_cons, Prod.mk.injEq, List.mem_flatMap] at h
    obtain ⟨rfl, -⟩ | ⟨⟨c, lc⟩, hc, hy⟩ := h
    · exact .refl
    · have hedge : t.Edge node c := fst_mem_of_mem_labelledChildren hc
      have hcn : c < t.size := (Store.Edge.lt_size hedge).2
      obtain ⟨k, hk, -, rfl⟩ := mem_labelledChildren.mp hc
      cases hp : isPassThrough t c
      · rw [labelOfChild_of_not_passThrough hcn hp] at hy
        exact absurd (extends_of_mem_preorder hy) (not_extends_segment _ _)
      · rw [labelOfChild_of_passThrough hcn hp] at hy
        exact .head ⟨hedge, hp⟩ (ih hy)

/-- The children of a step in the derivation graph are listed once each. -/
theorem nodup_graph_getD (p : Nat) : (t.graph[p]?.getD []).Nodup := by
  rw [Store.graph_getD]
  exact List.nodup_range.filter _

/-- Two distinct steps a walk emits with one label are joined through a pass-through step:
one reaches the other through pass-through steps, or they descend from distinct children of
one step, one of which is a pass-through. -/
theorem joined_of_mem_preorder {d a x y : Nat} {la l : String}
    (hx : (x, l) ∈ preorder cfg t t.graph d a la) (hy : (y, l) ∈ preorder cfg t t.graph d a la)
    (hxy : x ≠ y) :
    PassChain t x y ∨ PassChain t y x ∨
      ∃ p u v, t.Edge p u ∧ t.Edge p v ∧ u ≠ v ∧ (isPassThrough t u ∨ isPassThrough t v) ∧
        Relation.ReflTransGen t.Edge u x ∧ Relation.ReflTransGen t.Edge v y := by
  induction d generalizing a la with
  | zero =>
    simp only [preorder, List.mem_singleton, Prod.mk.injEq] at hx hy
    exact absurd (hx.1.trans hy.1.symm) hxy
  | succ d ih =>
    have hx' := hx
    have hy' := hy
    simp only [preorder, List.mem_cons, Prod.mk.injEq, List.mem_flatMap] at hx' hy'
    obtain ⟨rfl, rfl⟩ | ⟨⟨c, lc⟩, hc, hxc⟩ := hx'
    · exact .inl (passChain_of_mem_preorder hy)
    obtain ⟨rfl, rfl⟩ | ⟨⟨c', lc'⟩, hc', hyc⟩ := hy'
    · exact .inr (.inl (passChain_of_mem_preorder hx))
    obtain ⟨k, hk, hkc, rfl⟩ := mem_labelledChildren.mp hc
    obtain ⟨k', hk', hkc', rfl⟩ := mem_labelledChildren.mp hc'
    by_cases hkk : k = k'
    · -- one child: both lie in its subtree
      subst hkk
      rw [← hkc', hkc] at hyc
      exact ih hxc hyc
    have hcc : c ≠ c' := by
      rw [← hkc, ← hkc']
      exact fun h => hkk ((nodup_graph_getD a).getElem_inj_iff.mp h)
    have he : t.Edge a c := fst_mem_of_mem_labelledChildren hc
    have he' : t.Edge a c' := fst_mem_of_mem_labelledChildren hc'
    cases hp : isPassThrough t c <;> cases hp' : isPassThrough t c'
    · -- two children with a rule: the label would name two segments after `la`
      exfalso
      rw [labelOfChild_of_not_passThrough (Store.Edge.lt_size he).2 hp] at hxc
      rw [labelOfChild_of_not_passThrough (Store.Edge.lt_size he').2 hp'] at hyc
      have hseg := segment_eq_of_extends (dot_not_mem_childSegment _ _)
        (dot_not_mem_childSegment _ _) (extends_of_mem_preorder hxc) (extends_of_mem_preorder hyc)
      have hr : ∀ c ∈ t.graph[a]?.getD [], isPassThrough t c = false →
          (isTempChild cfg t c || isDerivedChild cfg t c) = true := fun c hc hpc => by
        rw [temp_or_derived_iff (Store.Edge.lt_size hc).2, hpc]
        rfl
      subst hkc hkc'
      rcases Nat.lt_or_gt_of_ne hkk with hlt | hlt
      · exact childSegment_ne hk hk' hlt (hr _ (List.getElem_mem hk) hp) hseg
      · exact childSegment_ne hk' hk hlt (hr _ (List.getElem_mem hk') hp') hseg.symm
    all_goals
      exact .inr (.inr ⟨a, c, c', he, he', hcc, by simp [hp, hp'],
        reach_of_mem_preorder hxc, reach_of_mem_preorder hyc⟩)

/-- A root's label is its number, which has no dot. -/
theorem eq_of_mem_traversal {d x y : Nat} {l : String} {rx ry : Nat × Nat}
    (hrx : rx ∈ (rootSteps t).zipIdx 1) (hry : ry ∈ (rootSteps t).zipIdx 1)
    (hx : (x, l) ∈ preorder cfg t t.graph d rx.1 (toString rx.2))
    (hy : (y, l) ∈ preorder cfg t t.graph d ry.1 (toString ry.2)) : rx = ry := by
  have hk : rx.2 = ry.2 := toString_injective (eq_of_extends_of_extends (dot_not_mem_toString _)
    (dot_not_mem_toString _) (extends_of_mem_preorder hx) (extends_of_mem_preorder hy))
  obtain ⟨rx1, rx2⟩ := rx
  obtain ⟨ry1, ry2⟩ := ry
  simp only at hk
  subst hk
  obtain ⟨-, -, hx1⟩ := List.mem_zipIdx hrx
  obtain ⟨-, -, hy1⟩ := List.mem_zipIdx hry
  rw [hx1, hy1]

/-- Labels name positions up to pass-through steps. After a successful numbering, two distinct
steps carrying one label are joined through a step without a rule: one is reached from the
other through steps without a rule, or they descend from two distinct children of one step, one
of which has no rule. So where every step with a parent has a rule, no two steps share a label. -/
theorem shared_label_passThrough {cfg : Config} {t t' : Store} {rep : Report}
    (h : (number cfg t).2 = .ok (t', rep)) {x y : Nat} {sx sy : Step} {l : String}
    (hx : t'.step? x = some sx) (hy : t'.step? y = some sy)
    (hlx : l ∈ sx.labelling.toList) (hly : l ∈ sy.labelling.toList) (hxy : x ≠ y) :
    PassChain t x y ∨ PassChain t y x ∨
      ∃ p u v, t.Edge p u ∧ t.Edge p v ∧ u ≠ v ∧ (isPassThrough t u ∨ isPassThrough t v) ∧
        Relation.ReflTransGen t.Edge u x ∧ Relation.ReflTransGen t.Edge v y := by
  have hsteps := (number_eq_traversal h t.size le_rfl).1
  -- a label of a step in the result is one the traversal emits for it
  have hemit : ∀ {i s}, t'.step? i = some s → l ∈ s.labelling.toList →
      (i, l) ∈ traversal cfg t t.size := fun {i s} hi hl => by
    rw [hsteps i, Option.map_eq_some_iff] at hi
    obtain ⟨s0, -, rfl⟩ := hi
    simpa [pathLabels, Labelling.toList] using hl
  obtain ⟨rx, hrx, hxr⟩ := mem_traversal.mp (hemit hx hlx)
  obtain ⟨ry, hry, hyr⟩ := mem_traversal.mp (hemit hy hly)
  obtain rfl := eq_of_mem_traversal hrx hry hxr hyr
  exact joined_of_mem_preorder hxr hyr hxy

/-- An input fact with a child without a rule and a derived child; the child without a rule has
a derived child of its own. -/
def passThroughSiblings : Store :=
  ⟨#[{ name := "p(a)", pattern := ⟨[1]⟩ },
    { name := "c(a)", pattern := ⟨[1]⟩, provenance := ⟨["p(a)"]⟩ },
    { name := "d(a)", pattern := ⟨[1]⟩, provenance := ⟨["p(a)"]⟩, rule := "d(X) :- p(X)." },
    { name := "e(a)", pattern := ⟨[1]⟩, provenance := ⟨["c(a)"]⟩, rule := "e(X) :- c(X)." }]⟩

theorem number_passThroughSiblings :
    (number {} passThroughSiblings).2 =
      .ok (numbered {} passThroughSiblings, numberReport {} passThroughSiblings) := by
  rw [← toOption_eq_some_iff, number_toOption, if_neg (by decide)]

/-- The derived child of the input fact and the derived child of its pass-through child are both
labelled `1.1`: the two derived children are joined through the pass-through. -/
theorem shared_label_passThrough_siblings :
    let sx := Step.mk "d(a)" ⟨[1]⟩ ⟨["p(a)"]⟩ "d(X) :- p(X)." (.labels ["1.1"]) none
    let sy := Step.mk "e(a)" ⟨[1]⟩ ⟨["c(a)"]⟩ "e(X) :- c(X)." (.labels ["1.1"]) none
    (number {} passThroughSiblings).2 =
        .ok (numbered {} passThroughSiblings, numberReport {} passThroughSiblings) ∧
      (numbered {} passThroughSiblings).step? 2 = some sx ∧
      (numbered {} passThroughSiblings).step? 3 = some sy ∧
      "1.1" ∈ sx.labelling.toList ∧ "1.1" ∈ sy.labelling.toList ∧ (2 : Nat) ≠ 3 ∧
      (PassChain passThroughSiblings 2 3 ∨ PassChain passThroughSiblings 3 2 ∨
        ∃ p u v, passThroughSiblings.Edge p u ∧ passThroughSiblings.Edge p v ∧ u ≠ v ∧
          (isPassThrough passThroughSiblings u ∨ isPassThrough passThroughSiblings v) ∧
          Relation.ReflTransGen passThroughSiblings.Edge u 2 ∧
          Relation.ReflTransGen passThroughSiblings.Edge v 3) := by
  intro sx sy
  have hx : (numbered {} passThroughSiblings).step? 2 = some sx := by decide +kernel
  have hy : (numbered {} passThroughSiblings).step? 3 = some sy := by decide +kernel
  have hl : "1.1" ∈ sx.labelling.toList := by decide
  have hl' : "1.1" ∈ sy.labelling.toList := by decide
  exact ⟨number_passThroughSiblings, hx, hy, hl, hl', by decide,
    shared_label_passThrough number_passThroughSiblings hx hy hl hl' (by decide)⟩

/-- Two steps with a rule may share a label without either being reached from the other: the
derived children of the input fact and of its pass-through child are both `1.1`. -/
theorem shared_label_without_passChain :
    ∃ t' rep sx sy, (number {} passThroughSiblings).2 = .ok (t', rep) ∧
      t'.step? 2 = some sx ∧ t'.step? 3 = some sy ∧
      "1.1" ∈ sx.labelling.toList ∧ "1.1" ∈ sy.labelling.toList ∧ sx.hasRule ∧ sy.hasRule ∧
      ¬ PassChain passThroughSiblings 2 3 ∧ ¬ PassChain passThroughSiblings 3 2 := by
  -- neither step has a child, so a chain from either ends where it starts
  have hend : ∀ x y, passThroughSiblings.graph[x]?.getD [] = [] →
      PassChain passThroughSiblings x y → x = y := fun x y hx h => by
    rcases Relation.ReflTransGen.cases_head h with rfl | ⟨c, ⟨hc, -⟩, -⟩
    · rfl
    · simp [Store.Edge, hx] at hc
  refine ⟨_, _, _, _, number_passThroughSiblings, rfl, rfl, by decide +kernel, by decide +kernel,
    by decide, by decide, fun h => ?_, fun h => ?_⟩
  · exact absurd (hend 2 3 (by decide +kernel) h) (by decide)
  · exact absurd (hend 3 2 (by decide +kernel) h) (by decide)

end ChaseProse.Numbering
