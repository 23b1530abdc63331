import ChaseProse.Proofs.Rule.Reading
/-! The compact text of a rule read back: conditions are written before assignments, so the rule
comes back when no condition, read first, would define its variable (`reparse_render`). -/
namespace ChaseProse.Rule

/-! ### Sorting comparisons -/

/-- The variable a comparison defines when it is read with the variables `bound` already bound:
`V = e` where `e` is an aggregate, or where `V` is not bound and `e` is not a string. -/
def Condition.defined? (bound : List String) (c : Condition) : Option String :=
  match c.op, c.left.var? with
  | .eq, some v =>
    if c.right.isAggregate || (!bound.contains v && c.right.text?.isNone) then some v else none
  | _, _ => none

theorem classify_cons (bound : List String) (c : Condition) (cs : List Condition) :
    classify bound (c :: cs) =
      match c.defined? bound with
      | some v => ((classify (v :: bound) cs).1, ⟨v, c.right⟩ :: (classify (v :: bound) cs).2)
      | none => (c :: (classify bound cs).1, (classify bound cs).2) := by
  rw [classify]
  obtain ⟨left, op, right⟩ := c
  unfold Condition.defined?
  cases op <;> cases left.var? <;> dsimp only
  all_goals (try split) <;> rfl

theorem Condition.defined?_some {bound : List String} {c : Condition} {v : String}
    (h : c.defined? bound = some v) : c.op = .eq ∧ c.left.var? = some v := by
  unfold Condition.defined? at h
  split at h
  · next hop hv =>
    split at h
    · cases h
      exact ⟨hop, hv⟩
    · cases h
  · cases h

/-- Read as a comparison, an assignment defines its variable where the comparison it came from
did. -/
theorem Condition.defined?_comparison {bound : List String} {c : Condition} {v : String}
    (h : c.defined? bound = some v) :
    (Assignment.comparison ⟨v, c.right⟩).defined? bound = some v := by
  obtain ⟨hop, hv⟩ := Condition.defined?_some h
  unfold Condition.defined? at h ⊢
  simp only [hop, hv] at h
  simpa [Assignment.comparison, Expr.var?, Term.var?] using h

/-- Comparisons that define nothing stay conditions, in front of whatever follows them. -/
theorem classify_append {bound : List String} {conds : List Condition}
    (h : ∀ c ∈ conds, c.defined? bound = none) (cs : List Condition) :
    classify bound (conds ++ cs) = (conds ++ (classify bound cs).1, (classify bound cs).2) := by
  induction conds with
  | nil => rfl
  | cons c conds ih =>
    rw [List.cons_append, classify_cons, h c List.mem_cons_self,
      ih (fun d hd => h d (List.mem_cons_of_mem c hd))]
    rfl

/-- The assignments sorted out of a list of comparisons, read again as comparisons in their
order, are sorted out as the same assignments: each is read with the same variables bound. -/
theorem classify_comparisons {bound : List String} {cs conds : List Condition}
    {asgs : List Assignment} (h : classify bound cs = (conds, asgs)) :
    classify bound (asgs.map Assignment.comparison) = ([], asgs) := by
  induction cs generalizing bound conds asgs with
  | nil =>
    cases h
    rfl
  | cons c cs ih =>
    rw [classify_cons] at h
    cases hd : c.defined? bound with
    | none =>
      simp only [hd, Prod.mk.injEq] at h
      exact h.2 ▸ ih rfl
    | some v =>
      simp only [hd, Prod.mk.injEq] at h
      obtain ⟨-, rfl⟩ := h
      rw [List.map_cons, classify_cons, Condition.defined?_comparison hd]
      dsimp only
      rw [ih rfl]
      rfl

theorem mem_classify_fst {bound : List String} {cs : List Condition} {c : Condition}
    (h : c ∈ (classify bound cs).1) : c ∈ cs := by
  induction cs generalizing bound with
  | nil => cases h
  | cons d cs ih =>
    rw [classify_cons] at h
    split at h
    · exact List.mem_cons_of_mem d (ih h)
    · rcases List.mem_cons.mp h with rfl | h
      · exact List.mem_cons_self
      · exact List.mem_cons_of_mem d (ih h)

/-- Every assignment comes from a comparison that defines its variable, with its expression on
the right. -/
theorem mem_classify_snd {bound : List String} {cs : List Condition} {a : Assignment}
    (h : a ∈ (classify bound cs).2) :
    ∃ c ∈ cs, ∃ bound', c.defined? bound' = some a.target ∧ c.right = a.expr := by
  induction cs generalizing bound with
  | nil => cases h
  | cons d cs ih =>
    rw [classify_cons] at h
    split at h
    · next v hv =>
      rcases List.mem_cons.mp h with rfl | h
      · exact ⟨d, List.mem_cons_self, bound, hv, rfl⟩
      · obtain ⟨c, hc, hrest⟩ := ih h
        exact ⟨c, List.mem_cons_of_mem d hc, hrest⟩
    · obtain ⟨c, hc, hrest⟩ := ih h
      exact ⟨c, List.mem_cons_of_mem d hc, hrest⟩

/-! ### Rules as head and items -/

def Item.literal? : Item → Option Literal
  | .literal l => some l
  | .comparison _ => none

def Item.comparison? : Item → Option Condition
  | .comparison c => some c
  | .literal _ => none

/-- The variables a literal binds: a positive atom's, none for a negated one. -/
def Literal.boundVars : Literal → List String
  | .pos a => a.vars
  | .neg _ => []

def Item.render : Item → String
  | .literal l => l.render
  | .comparison c => c.render

/-- The terms of an item, from left to right. -/
def Item.terms : Item → List Term
  | .literal l => l.atom.terms
  | .comparison c => c.left.terms ++ c.right.terms

/-- The variables the positive literals of a rule bind, in order. -/
def literalVars (r : Rule) : List String := r.body.flatMap Literal.boundVars

/-- The items a rule's compact text lists: its literals, its conditions, then its assignments
as comparisons. -/
def bodyItems (r : Rule) : List Item :=
  r.body.map .literal ++ r.conditions.map .comparison ++
    r.assignments.map fun a => .comparison a.comparison

/-- Every term of the head and of the items. -/
def terms (r : Rule) : List Term := r.head.terms ++ r.bodyItems.flatMap Item.terms

/-- A rule as the reader gives it back: a head and items of the reader's shape, and
assignments that are sorted out as themselves when read again, as comparisons, in their
order. -/
structure Readable (r : Rule) : Prop where
  head : r.head.Reads
  items : ∀ i ∈ r.bodyItems, i.Reads
  settled : classify r.literalVars (r.assignments.map Assignment.comparison) = ([], r.assignments)

theorem render_eq (r : Rule) : r.render = renderWith r.head (r.bodyItems.map Item.render) := by
  simp only [render, bodyItems, List.map_append, List.map_map]
  rfl

/-- The rule the reader makes of a head and items, spelled out. -/
theorem ofItems_eq (head : Atom) (its : List Item) :
    Rule.ofItems head its =
      { head, body := its.filterMap Item.literal?,
        conditions := (classify ((its.filterMap Item.literal?).flatMap Literal.boundVars)
          (its.filterMap Item.comparison?)).1,
        assignments := (classify ((its.filterMap Item.literal?).flatMap Literal.boundVars)
          (its.filterMap Item.comparison?)).2 } := rfl

theorem Expr.eq_of_var? {e : Expr} {v : String} (h : e.var? = some v) : e = .term (.var v) := by
  cases e with
  | term t => cases t <;> simp_all [Expr.var?, Term.var?]
  | _ => simp [Expr.var?] at h

theorem filterMap_literal?_bodyItems (r : Rule) : r.bodyItems.filterMap Item.literal? = r.body := by
  simp [Rule.bodyItems, List.filterMap_append, List.filterMap_map, Function.comp_def, Item.literal?]

theorem filterMap_comparison?_bodyItems (r : Rule) :
    r.bodyItems.filterMap Item.comparison? = r.conditions ++ r.assignments.map Assignment.comparison := by
  simp [Rule.bodyItems, List.filterMap_append, List.filterMap_map, Function.comp_def,
    Item.comparison?]

/-- The rule made of a readable head and items is readable: its literals and conditions are
items it was made of, and each assignment comes from a comparison `V = e` among them. -/
theorem readable_ofItems {head : Atom} {its : List Item} (hh : head.Reads)
    (hits : ∀ i ∈ its, i.Reads) : (Rule.ofItems head its).Readable := by
  rw [ofItems_eq]
  refine ⟨hh, ?_, classify_comparisons rfl⟩
  intro i hi
  simp only [Rule.bodyItems, List.mem_append, List.mem_map] at hi
  rcases hi with (⟨l, hl, rfl⟩ | ⟨c, hc, rfl⟩) | ⟨a, ha, rfl⟩
  · obtain ⟨j, hj, hjl⟩ := List.mem_filterMap.mp hl
    cases j with
    | literal l' =>
      cases hjl
      exact hits _ hj
    | comparison _ => cases hjl
  · obtain ⟨j, hj, hjc⟩ := List.mem_filterMap.mp (mem_classify_fst hc)
    cases j with
    | comparison c' =>
      cases hjc
      exact hits _ hj
    | literal _ => cases hjc
  · obtain ⟨c, hc, bound', hdef, hright⟩ := mem_classify_snd ha
    obtain ⟨j, hj, hjc⟩ := List.mem_filterMap.mp hc
    cases j with
    | comparison c' =>
      cases hjc
      have hread : c.left.Parsed ∧ c.right.Parsed := hits _ hj
      have hleft := Expr.eq_of_var? (Condition.defined?_some hdef).2
      rw [hleft] at hread
      exact ⟨hread.1, show a.expr.Parsed from hright ▸ hread.2⟩
    | literal _ => cases hjc

/-- A rule read from text is readable. -/
theorem readable_of_parse {text : String} {r : Rule} (h : parse text = .ok r) : r.Readable := by
  obtain ⟨head, its, hh, hits, rfl⟩ := parse_shape h
  exact readable_ofItems hh hits

/-- A readable rule is made again of its head and items, when none of its conditions would
define a variable read before the assignments. -/
theorem ofItems_bodyItems {r : Rule} (hr : r.Readable)
    (hc : ∀ c ∈ r.conditions, c.defined? r.literalVars = none) :
    Rule.ofItems r.head r.bodyItems = r := by
  rw [ofItems_eq, filterMap_literal?_bodyItems, filterMap_comparison?_bodyItems]
  rw [show r.body.flatMap Literal.boundVars = r.literalVars from rfl, classify_append hc,
    hr.settled]
  simp

/-! ### Reading the text back -/

/-- The terms of a parsed expression read back, a minus sign before a number allowed. -/
theorem Expr.Parsed.terms_reads {e : Expr} (he : e.Parsed) : ∀ t ∈ e.terms, t.Reads true := by
  induction e with
  | term t =>
    intro u hu
    rw [List.mem_singleton.mp hu]
    exact Term.Reads.of_unsigned he true
  | neg e ih => exact ih he.2
  | binary op l r ihl ihr =>
    intro u hu
    rcases List.mem_append.mp hu with hu | hu
    · exact ihl he.2.2.1 u hu
    · exact ihr he.2.2.2 u hu
  | group e ih => exact ih he
  | aggregate fn i cs ih =>
    intro u hu
    rcases List.mem_append.mp hu with hu | hu
    · exact ih he.1 u hu
    · exact he.2 u hu

/-- An item of the reader's shape whose strings stand between quotes lexes to its tokens. -/
theorem Item.lexesBefore {i : Item} (hi : i.Reads) (hq : ∀ t ∈ i.terms, t.quotable) :
    LexesBefore i.render.toList i.tokens := by
  cases i with
  | literal l =>
    have ha : l.atom.Reads := by
      cases l with
      | pos a => exact hi.1
      | neg a => exact hi
    exact Literal.lexesBefore ha.1 ha.2.1 fun t ht => ⟨ha.2.2 t ht, hq t ht⟩
  | comparison c =>
    exact Condition.lexesBefore
      (fun t ht => ⟨hi.1.terms_reads t ht, hq t (List.mem_append_left _ ht)⟩)
      (fun t ht => ⟨hi.2.terms_reads t ht, hq t (List.mem_append_right _ ht)⟩)

/-- The text of a head and items of the reader's shape, whose strings stand between quotes,
reads back as the rule the reader makes of them. -/
theorem parse_renderWith {head : Atom} {its : List Item} (hh : head.Reads)
    (hits : ∀ i ∈ its, i.Reads) (hq : ∀ t ∈ head.terms ++ its.flatMap Item.terms, t.quotable) :
    parse (Rule.renderWith head (its.map Item.render)) = .ok (Rule.ofItems head its) := by
  have hhead : LexesBefore head.render.toList head.tokens :=
    Atom.lexesBefore hh.1 hh.2.1 fun t ht => ⟨hh.2.2 t ht, hq t (List.mem_append_left _ ht)⟩
  have hitems : ∀ x ∈ its.map (fun i => (i.render, i.tokens)), LexesBefore x.1.toList x.2 := by
    intro x hx
    obtain ⟨i, hi, rfl⟩ := List.mem_map.mp hx
    exact Item.lexesBefore (hits i hi)
      fun t ht => hq t (List.mem_append_right _ (List.mem_flatMap.mpr ⟨i, hi, ht⟩))
  have hlex := lexes_renderWith hhead hitems
  simp only [List.map_map, Function.comp_def] at hlex
  obtain ⟨ls, hls, hk⟩ := hlex 0
  rw [parse, tokenize, hls, ok_bind, parseTokens_tokensWith hh hits hk]

/-- Reading back the compact text of a rule read from text. The text lists the literals, then
the conditions, then the assignments as comparisons `V=e`, so it reads back as the same rule
unless a condition, read in front of the assignments, would define its variable (a condition
`V = e` whose `V` only an assignment binds); the head and literals alone read back with no
comparisons. Left out are string literals that ended in an escaped quote: the reader strips
that quote with the delimiters, against what a string term stores, and their contents no longer
stand between quotes as one literal (`Term.quotable`). -/
theorem reparse_render {text : String} {r : Rule} (h : parse text = .ok r) :
    ((∀ t ∈ r.terms, t.quotable) → (∀ c ∈ r.conditions, c.defined? r.literalVars = none) →
      parse r.render = .ok r) ∧
    ((∀ t ∈ r.head.terms ++ r.body.flatMap (·.atom.terms), t.quotable) →
      parse r.bodyOnly = .ok ⟨r.head, r.body, [], []⟩) := by
  have hr := Rule.readable_of_parse h
  refine ⟨fun hq hc => ?_, fun hq => ?_⟩
  · rw [Rule.render_eq, parse_renderWith hr.head hr.items hq, ofItems_bodyItems hr hc]
  · have hlits : ∀ i ∈ r.body.map Item.literal, i.Reads := fun i hi =>
      hr.items i (List.mem_append_left _ (List.mem_append_left _ hi))
    have hq' : ∀ t ∈ r.head.terms ++ (r.body.map Item.literal).flatMap Item.terms, t.quotable := by
      simpa [List.flatMap_map, Item.terms] using hq
    have htext : r.bodyOnly = Rule.renderWith r.head ((r.body.map Item.literal).map Item.render) := by
      simp only [Rule.bodyOnly, List.map_map]
      rfl
    rw [htext, parse_renderWith hr.head hlits hq', ofItems_eq]
    simp [List.filterMap_map, Function.comp_def, Item.literal?, Item.comparison?, classify]

/-- A rule with a string, a negated literal, a condition, arithmetic with a negation and a group,
and an aggregate with contributors. -/
def aggregateRule : Rule where
  head := ⟨"q", [.var "X", .var "S"]⟩
  body := [.pos ⟨"p", [.var "X", .text "a b"]⟩, .neg ⟨"s", [.var "X"]⟩]
  conditions := [⟨.term (.var "X"), .gt, .term (.num "1")⟩]
  assignments :=
    [⟨"Y", .binary .mul (.neg (.term (.var "X")))
        (.group (.binary .add (.term (.num "2")) (.term (.num "1"))))⟩,
      ⟨"S", .aggregate .sum (.term (.var "Y")) [.var "X"]⟩]

theorem reparse_render_aggregateRule :
    parse "q(X,S) :- p(X,\"a b\"), not s(X), X > 1, Y = -X*(2+1), S = msum(Y,<X>)." =
        .ok aggregateRule ∧
      parse aggregateRule.render = .ok aggregateRule ∧
      parse aggregateRule.bodyOnly = .ok ⟨aggregateRule.head, aggregateRule.body, [], []⟩ := by
  have h : parse "q(X,S) :- p(X,\"a b\"), not s(X), X > 1, Y = -X*(2+1), S = msum(Y,<X>)." =
      .ok aggregateRule := toOption_eq_some_iff.mp (by decide +kernel)
  obtain ⟨hrender, hbody⟩ := reparse_render h
  exact ⟨h, hrender (by decide) (by decide), hbody (by decide)⟩

/-- The round trip fails at two rules. By design: read from `q(X) :- p(X), Z=1, Z=2.`, `Z=1`
defines `Z` and `Z=2` is a condition, and the compact text lists `Z=2` first, where it defines
`Z`. By a defect of the reader: a string literal ending in an escaped quote loses that quote
with the delimiters, so its compact text ends the literal with a backslash and a quote, which
does not close it. -/
theorem reparse_render_counterexample :
    (∃ r, parse "q(X) :- p(X), Z=1, Z=2." = .ok r ∧ parse r.render ≠ .ok r) ∧
      (∃ r, parse "q(X) :- p(X,\"a\\\"\")." = .ok r ∧ parse r.render ≠ .ok r) := by
  refine ⟨⟨⟨⟨"q", [.var "X"]⟩, [.pos ⟨"p", [.var "X"]⟩],
      [⟨.term (.var "Z"), .eq, .term (.num "2")⟩], [⟨"Z", .term (.num "1")⟩]⟩, ?_, ?_⟩,
    ⟨⟨⟨"q", [.var "X"]⟩, [.pos ⟨"p", [.var "X", .text "a\\"]⟩], [], []⟩, ?_, ?_⟩⟩
  · exact toOption_eq_some_iff.mp (by decide +kernel)
  · exact fun h => absurd (congrArg Except.toOption h) (by decide +kernel)
  · exact toOption_eq_some_iff.mp (by decide +kernel)
  · exact fun h => absurd (congrArg Except.toOption h) (by decide +kernel)

end ChaseProse.Rule
