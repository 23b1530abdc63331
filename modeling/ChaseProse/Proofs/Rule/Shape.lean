import ChaseProse.Proofs.Basic
import ChaseProse.Proofs.Rule.Compact
/-! The shape of what the reader returns, for every fuel: terms that read back, atoms named by
names, and expressions grouped to the left by precedence (`parseTokens_shape`). -/
namespace ChaseProse.Rule

def ArithOp.level : ArithOp → Nat
  | .add | .sub => 0
  | .mul | .div => 1

namespace Expr

/-- How loosely the top of an expression binds: a sum 0, a product 1, a negation 2, anything
else 3. -/
def level : Expr → Nat
  | .binary op _ _ => op.level
  | .neg _ => 2
  | _ => 3

/-- The shape the reader gives an expression: the operands of an operator bind at least as
tightly as it does (the right one strictly, since operators group to the left), a negation
applies to a unary operand, terms are unsigned, and every term reads back. -/
def Parsed : Expr → Prop
  | .term t => t.Reads false
  | .neg e => 2 ≤ e.level ∧ e.Parsed
  | .binary op l r => op.level ≤ l.level ∧ op.level < r.level ∧ l.Parsed ∧ r.Parsed
  | .group e => e.Parsed
  | .aggregate _ i cs => i.Parsed ∧ ∀ c ∈ cs, c.Reads true

/-- A parsed expression that binds at least at level `k`. -/
def Shaped (k : Nat) (e : Expr) : Prop := k ≤ e.level ∧ e.Parsed

end Expr

/-- An atom as the reader gives it back: named by a name, with terms that read back. -/
def Atom.Reads (a : Atom) : Prop :=
  IsName a.predicate.toList ∧ a.predicate ≠ "not" ∧ ∀ t ∈ a.terms, t.Reads true

/-- A body item as the reader gives it back: a positive atom is named by a lower-case name
that is not an aggregate function, and a comparison compares parsed expressions. -/
def Item.Reads : Item → Prop
  | .literal (.pos a) => a.Reads ∧
      (a.predicate.toList.head?.any fun c => c.isLower && c.toNat < 128) ∧
      (AggregateFn.ofName? a.predicate).isNone
  | .literal (.neg a) => a.Reads
  | .comparison c => c.left.Parsed ∧ c.right.Parsed

/-- Every lexeme of the list is sound. -/
def AllSound (ls : List Lexeme) : Prop := ∀ l ∈ ls, l.Sound

theorem AllSound.tail {l : Lexeme} {ls : List Lexeme} (h : AllSound (l :: ls)) : AllSound ls :=
  fun x hx => h x (List.mem_cons_of_mem l hx)

theorem AllSound.eat {ls : List Lexeme} (h : AllSound ls) (t : Token) : AllSound (eat t ls).2 := by
  cases ls with
  | nil => exact h
  | cons l ls =>
    simp only [Rule.eat]
    split
    · exact h.tail
    · exact h

theorem AllSound.expect {ls rest : List Lexeme} {t : Token} {what : String} {l : Lexeme}
    (h : AllSound ls) (he : expect t what ls = .ok (l, rest)) : AllSound rest := by
  cases ls with
  | nil => cases he
  | cons x ls =>
    simp only [Rule.expect] at he
    split at he
    · cases he
      exact h.tail
    · cases he

theorem AllSound.tail' {ls : List Lexeme} (h : AllSound ls) : AllSound ls.tail := by
  cases ls with
  | nil => exact h
  | cons l ls => exact h.tail

/-! ### Terms -/

/-- Text without its leading and trailing quotes. -/
def stripList (cs : List Char) : List Char := (cs.dropWhile (· == '"')).rdropWhile (· == '"')

theorem stripQuotes_eq (s : String) : stripQuotes s = String.ofList (stripList s.toList) := rfl

theorem head_stripList (cs : List Char) : ∀ c ∈ (stripList cs).head?, (c == '"') = false := by
  intro c hc
  obtain ⟨t, ht⟩ : (stripList cs).IsPrefix (cs.dropWhile (· == '"')) :=
    List.rdropWhile_prefix _ _
  have hd := List.head?_dropWhile_not (· == '"') cs
  rw [← ht, List.head?_append, Option.mem_def.mp hc] at hd
  exact hd

/-- The text `stripQuotes` leaves, quoted and stripped again, is given back. -/
theorem stripQuotes_quote (s : String) :
    stripQuotes ("\"" ++ stripQuotes s ++ "\"") = stripQuotes s := by
  rw [stripQuotes_eq, stripQuotes_eq s]
  apply congrArg String.ofList
  have hlast : (stripList s.toList).rdropWhile (· == '"') = stripList s.toList :=
    List.rdropWhile_idempotent _ _
  have hhead := head_stripList s.toList
  simp only [String.toList_append, String.toList_ofList]
  generalize stripList s.toList = y at hlast hhead
  rcases y with _ | ⟨c, y⟩
  · simp [stripList]
  · have hc : (c == '"') = false := hhead c rfl
    have hdrop : ("\"".toList ++ (c :: y) ++ "\"".toList).dropWhile (· == '"') =
        c :: y ++ ['"'] := by
      simp [hc]
    rw [stripList, hdrop, List.rdropWhile_concat_pos _ _ '"' rfl, hlast]

theorem nameTerm_cases (s : String) :
    nameTerm s = .anon ∨ nameTerm s = .var s ∨ nameTerm s = .sym s := by
  unfold nameTerm
  split
  · exact .inl rfl
  · split
    · split <;> simp
    · simp

theorem nameTerm_reads {s : String} (hn : IsName s.toList) (hnot : s ≠ "not") (signed : Bool) :
    (nameTerm s).Reads signed := by
  rcases nameTerm_cases s with h | h | h <;> rw [h]
  · trivial
  · exact ⟨hn, hnot, h⟩
  · exact ⟨hn, hnot, h⟩


theorem Term.Reads.of_unsigned {t : Term} (h : t.Reads false) (signed : Bool) : t.Reads signed := by
  cases t with
  | num n => exact .inl (h.resolve_right (by simp))
  | _ => exact h

/-- What `term` reads: a term that reads back, signed when a minus sign came first. -/
theorem term_shape {ls rest : List Lexeme} {t : Term} (hs : AllSound ls)
    (h : term ls = .ok (t, rest)) : t.Reads (eat .minus ls).1 ∧ AllSound rest := by
  unfold term at h
  have hs1 := hs.eat .minus
  generalize eat .minus ls = p at h hs1 ⊢
  obtain ⟨neg, ls1⟩ := p
  rcases ls1 with _ | ⟨l, ls1⟩
  · cases h
  · have hl := hs1 l (by simp)
    simp only at h ⊢
    cases htok : l.token <;> simp only [htok, reduceCtorEq] at h
    case number =>
      simp only [Except.ok.injEq, Prod.mk.injEq] at h
      obtain ⟨rfl, rfl⟩ := h
      refine ⟨?_, hs1.tail⟩
      cases neg
      · exact .inl (hl.number htok)
      · exact .inr ⟨rfl, l.text.toList, by simp, hl.number htok⟩
    case str =>
      cases neg <;> simp only [Except.ok.injEq, Prod.mk.injEq, reduceCtorEq, if_true,
        Bool.false_eq_true, if_false] at h
      obtain ⟨rfl, rfl⟩ := h
      exact ⟨stripQuotes_quote l.text, hs1.tail⟩
    case ident =>
      cases neg <;> simp only [Except.ok.injEq, Prod.mk.injEq, reduceCtorEq, if_true,
        Bool.false_eq_true, if_false] at h
      obtain ⟨rfl, rfl⟩ := h
      exact ⟨nameTerm_reads (hl.ident htok).1 (hl.ident htok).2 _, hs1.tail⟩

theorem term_shape_unsigned {l : Lexeme} {ls rest : List Lexeme} {t : Term}
    (hs : AllSound (l :: ls)) (hl : l.token ≠ .minus) (h : term (l :: ls) = .ok (t, rest)) :
    t.Reads false ∧ AllSound rest := by
  have := term_shape hs h
  simpa [Rule.eat, hl] using this

theorem term_shape_signed {ls rest : List Lexeme} {t : Term} (hs : AllSound ls)
    (h : term ls = .ok (t, rest)) : t.Reads true ∧ AllSound rest := by
  obtain ⟨ht, hrest⟩ := term_shape hs h
  refine ⟨?_, hrest⟩
  cases hb : (eat .minus ls).1
  · exact (hb ▸ ht).of_unsigned true
  · exact hb ▸ ht

theorem termList_shape {close : Token} {what : String} {fuel : Nat} {ls rest : List Lexeme}
    {acc ts : List Term} (hs : AllSound ls) (hacc : ∀ t ∈ acc, t.Reads true)
    (h : termList close what fuel ls acc = .ok (ts, rest)) :
    (∀ t ∈ ts, t.Reads true) ∧ AllSound rest := by
  induction fuel generalizing ls acc with
  | zero => cases h
  | succ fuel ih =>
    rw [termList, bind_eq_ok] at h
    obtain ⟨⟨t, ls1⟩, h1, h2⟩ := h
    obtain ⟨ht, hs1⟩ := term_shape_signed hs h1
    have hacc1 : ∀ u ∈ t :: acc, u.Reads true := by
      intro u hu
      rcases List.mem_cons.mp hu with rfl | hu
      · exact ht
      · exact hacc u hu
    have hs2 := hs1.eat close
    dsimp only at h2
    generalize eat close ls1 = p at h2 hs2
    obtain ⟨closed, ls2⟩ := p
    dsimp only at h2 hs2
    split at h2
    · cases h2
      exact ⟨fun u hu => hacc1 u (List.mem_reverse.mp hu), hs2⟩
    · rw [bind_eq_ok] at h2
      obtain ⟨⟨_, ls3⟩, h3, h4⟩ := h2
      exact ih (hs2.expect h3) hacc1 h4


/-! ### Expressions -/

namespace Expr.Shaped

theorem mono {e : Expr} {j k : Nat} (h : e.Shaped k) (hjk : j ≤ k) : e.Shaped j :=
  ⟨Nat.le_trans hjk h.1, h.2⟩

theorem term {t : Term} (h : t.Reads false) : (Expr.term t).Shaped 3 := ⟨Nat.le_refl _, h⟩

theorem neg {e : Expr} (h : e.Shaped 2) : (Expr.neg e).Shaped 2 := ⟨Nat.le_refl _, h⟩

theorem binary {op : ArithOp} {l r : Expr} (hl : l.Shaped op.level) (hr : r.Shaped (op.level + 1)) :
    (Expr.binary op l r).Shaped op.level :=
  ⟨Nat.le_refl _, hl.1, hr.1, hl.2, hr.2⟩

theorem group {e : Expr} (h : e.Parsed) : (Expr.group e).Shaped 3 := ⟨Nat.le_refl _, h⟩

theorem aggregate {fn : AggregateFn} {i : Expr} {cs : List Term} (hi : i.Parsed)
    (hcs : ∀ c ∈ cs, c.Reads true) : (Expr.aggregate fn i cs).Shaped 3 := ⟨Nat.le_refl _, hi, hcs⟩

end Expr.Shaped

/-- What each function of the expression reader gives with `fuel`: an expression of the shape
its level asks for, and the rest of the lexemes, all still sound. -/
structure ExprFacts (fuel : Nat) : Prop where
  ofExpr : ∀ {ls rest e}, AllSound ls → expr fuel ls = .ok (e, rest) →
    e.Shaped 0 ∧ AllSound rest
  ofSumRest : ∀ {lhs ls rest e}, lhs.Shaped 0 → AllSound ls →
    sumRest fuel lhs ls = .ok (e, rest) → e.Shaped 0 ∧ AllSound rest
  ofTermExpr : ∀ {ls rest e}, AllSound ls → termExpr fuel ls = .ok (e, rest) →
    e.Shaped 1 ∧ AllSound rest
  ofProductRest : ∀ {lhs ls rest e}, lhs.Shaped 1 → AllSound ls →
    productRest fuel lhs ls = .ok (e, rest) → e.Shaped 1 ∧ AllSound rest
  ofUnary : ∀ {ls rest e}, AllSound ls → unary fuel ls = .ok (e, rest) →
    e.Shaped 2 ∧ AllSound rest
  ofPrimary : ∀ {ls rest e}, AllSound ls → primary fuel ls = .ok (e, rest) →
    e.Shaped 2 ∧ AllSound rest
  ofAggregateArgs : ∀ {fn ls rest e}, AllSound ls → aggregateArgs fuel fn ls = .ok (e, rest) →
    e.Shaped 2 ∧ AllSound rest
  ofContributorList : ∀ {fn input acc ls rest e}, input.Parsed → (∀ c ∈ acc, c.Reads true) →
    AllSound ls → contributorList fuel fn input acc ls = .ok (e, rest) → e.Shaped 2 ∧ AllSound rest

theorem term_expr_shape {l : Lexeme} {ls rest : List Lexeme} {e : Expr} (hs : AllSound (l :: ls))
    (hl : l.token ≠ .minus)
    (h : (do let (t, ls) ← term (l :: ls); return (Expr.term t, ls)) = Except.ok (e, rest)) :
    e.Shaped 2 ∧ AllSound rest := by
  rw [bind_eq_ok] at h
  obtain ⟨⟨t, ls1⟩, h1, h2⟩ := h
  cases h2
  obtain ⟨ht, hs1⟩ := term_shape_unsigned hs hl h1
  exact ⟨(Expr.Shaped.term ht).mono (by decide), hs1⟩

namespace ExprFacts

theorem zero : ExprFacts 0 where
  ofExpr _ h := by cases h
  ofSumRest _ _ h := by cases h
  ofTermExpr _ h := by cases h
  ofProductRest _ _ h := by cases h
  ofUnary _ h := by cases h
  ofPrimary _ h := by cases h
  ofAggregateArgs _ h := by cases h
  ofContributorList _ _ _ h := by cases h

variable {fuel : Nat} (ih : ExprFacts fuel)
include ih

theorem expr_succ {ls rest : List Lexeme} {e : Expr} (hs : AllSound ls)
    (h : expr (fuel + 1) ls = .ok (e, rest)) : e.Shaped 0 ∧ AllSound rest := by
  rw [expr, bind_eq_ok] at h
  obtain ⟨⟨lhs, ls1⟩, h1, h2⟩ := h
  obtain ⟨hl, hs1⟩ := ih.ofTermExpr hs h1
  exact ih.ofSumRest (hl.mono (Nat.zero_le 1)) hs1 h2

theorem sumRest_succ {lhs : Expr} {ls rest : List Lexeme} {e : Expr} (hl : lhs.Shaped 0)
    (hs : AllSound ls) (h : sumRest (fuel + 1) lhs ls = .ok (e, rest)) :
    e.Shaped 0 ∧ AllSound rest := by
  rw [sumRest] at h
  split at h
  · rw [bind_eq_ok] at h
    obtain ⟨⟨rhs, ls1⟩, h1, h2⟩ := h
    obtain ⟨hr, hs1⟩ := ih.ofTermExpr hs.tail' h1
    exact ih.ofSumRest (@Expr.Shaped.binary .add _ _ hl hr) hs1 h2
  · rw [bind_eq_ok] at h
    obtain ⟨⟨rhs, ls1⟩, h1, h2⟩ := h
    obtain ⟨hr, hs1⟩ := ih.ofTermExpr hs.tail' h1
    exact ih.ofSumRest (@Expr.Shaped.binary .sub _ _ hl hr) hs1 h2
  · cases h
    exact ⟨hl, hs⟩

theorem termExpr_succ {ls rest : List Lexeme} {e : Expr} (hs : AllSound ls)
    (h : termExpr (fuel + 1) ls = .ok (e, rest)) : e.Shaped 1 ∧ AllSound rest := by
  rw [termExpr, bind_eq_ok] at h
  obtain ⟨⟨lhs, ls1⟩, h1, h2⟩ := h
  obtain ⟨hl, hs1⟩ := ih.ofUnary hs h1
  exact ih.ofProductRest (hl.mono (by decide)) hs1 h2

theorem productRest_succ {lhs : Expr} {ls rest : List Lexeme} {e : Expr} (hl : lhs.Shaped 1)
    (hs : AllSound ls) (h : productRest (fuel + 1) lhs ls = .ok (e, rest)) :
    e.Shaped 1 ∧ AllSound rest := by
  rw [productRest] at h
  split at h
  · rw [bind_eq_ok] at h
    obtain ⟨⟨rhs, ls1⟩, h1, h2⟩ := h
    obtain ⟨hr, hs1⟩ := ih.ofUnary hs.tail' h1
    exact ih.ofProductRest (@Expr.Shaped.binary .mul _ _ hl hr) hs1 h2
  · rw [bind_eq_ok] at h
    obtain ⟨⟨rhs, ls1⟩, h1, h2⟩ := h
    obtain ⟨hr, hs1⟩ := ih.ofUnary hs.tail' h1
    exact ih.ofProductRest (@Expr.Shaped.binary .div _ _ hl hr) hs1 h2
  · cases h
    exact ⟨hl, hs⟩

theorem unary_succ {ls rest : List Lexeme} {e : Expr} (hs : AllSound ls)
    (h : unary (fuel + 1) ls = .ok (e, rest)) : e.Shaped 2 ∧ AllSound rest := by
  rw [unary] at h
  have hs1 := hs.eat .minus
  generalize eat .minus ls = p at h hs1
  obtain ⟨negative, ls1⟩ := p
  dsimp only at h
  split at h
  · rw [bind_eq_ok] at h
    obtain ⟨⟨inner, ls2⟩, h1, h2⟩ := h
    cases h2
    obtain ⟨hi, hs2⟩ := ih.ofUnary hs1 h1
    exact ⟨hi.neg, hs2⟩
  · exact ih.ofPrimary hs1 h

theorem primary_succ {ls rest : List Lexeme} {e : Expr} (hs : AllSound ls)
    (h : primary (fuel + 1) ls = .ok (e, rest)) : e.Shaped 2 ∧ AllSound rest := by
  rcases ls with _ | ⟨l, ls⟩
  · cases h
  rw [primary] at h
  dsimp only at h
  split at h
  · rw [bind_eq_ok] at h
    obtain ⟨⟨inner, ls1⟩, h1, h2⟩ := h
    obtain ⟨hi, hs1⟩ := ih.ofExpr hs.tail h1
    rw [bind_eq_ok] at h2
    obtain ⟨⟨_, ls2⟩, h3, h4⟩ := h2
    cases h4
    exact ⟨(Expr.Shaped.group hi.2).mono (by decide), hs1.expect h3⟩
  · next htok =>
    split at h
    · split at h
      · exact ih.ofAggregateArgs hs.tail.tail' h
      · cases h
    · exact term_expr_shape hs (by simp [htok]) h
  · next htok => exact term_expr_shape hs (by simp [htok]) h
  · next htok => exact term_expr_shape hs (by simp [htok]) h
  · cases h

theorem aggregateArgs_succ {fn : AggregateFn} {ls rest : List Lexeme} {e : Expr}
    (hs : AllSound ls) (h : aggregateArgs (fuel + 1) fn ls = .ok (e, rest)) :
    e.Shaped 2 ∧ AllSound rest := by
  rw [aggregateArgs, bind_eq_ok] at h
  obtain ⟨⟨input, ls1⟩, h1, h2⟩ := h
  obtain ⟨hi, hs1⟩ := ih.ofExpr hs h1
  exact ih.ofContributorList hi.2 (fun _ hc => absurd hc List.not_mem_nil) hs1 h2

theorem contributorList_succ {fn : AggregateFn} {input : Expr} {acc : List Term}
    {ls rest : List Lexeme} {e : Expr} (hi : input.Parsed) (hacc : ∀ c ∈ acc, c.Reads true)
    (hs : AllSound ls) (h : contributorList (fuel + 1) fn input acc ls = .ok (e, rest)) :
    e.Shaped 2 ∧ AllSound rest := by
  rw [contributorList] at h
  have hs1 := hs.eat .comma
  generalize eat .comma ls = p at h hs1
  obtain ⟨more, ls1⟩ := p
  dsimp only at h
  split at h
  · have hs2 := hs1.eat .lt
    generalize eat .lt ls1 = p at h hs2
    obtain ⟨bracket, ls2⟩ := p
    dsimp only at h
    split at h
    · rw [bind_eq_ok] at h
      obtain ⟨⟨ts, ls3⟩, h1, h2⟩ := h
      obtain ⟨hts, hs3⟩ := termList_shape hs2 (fun _ hc => absurd hc List.not_mem_nil) h1
      refine ih.ofContributorList hi (fun c hc => ?_) hs3 h2
      rcases List.mem_append.mp hc with hc | hc
      · exact hacc c hc
      · exact hts c hc
    · rw [bind_eq_ok] at h
      obtain ⟨⟨t, ls3⟩, h1, h2⟩ := h
      obtain ⟨ht, hs3⟩ := term_shape_signed hs2 h1
      refine ih.ofContributorList hi (fun c hc => ?_) hs3 h2
      rcases List.mem_append.mp hc with hc | hc
      · exact hacc c hc
      · exact (List.mem_singleton.mp hc) ▸ ht
  · rw [bind_eq_ok] at h
    obtain ⟨⟨_, ls2⟩, h1, h2⟩ := h
    cases h2
    exact ⟨(Expr.Shaped.aggregate hi hacc).mono (by decide), hs1.expect h1⟩

/-- The facts at one more unit of fuel follow from those at `fuel`. -/
theorem succ : ExprFacts (fuel + 1) where
  ofExpr := ih.expr_succ
  ofSumRest := ih.sumRest_succ
  ofTermExpr := ih.termExpr_succ
  ofProductRest := ih.productRest_succ
  ofUnary := ih.unary_succ
  ofPrimary := ih.primary_succ
  ofAggregateArgs := ih.aggregateArgs_succ
  ofContributorList := ih.contributorList_succ


end ExprFacts

/-- Every function of the expression reader gives an expression of its level's shape. -/
theorem exprFacts (fuel : Nat) : ExprFacts fuel := by
  induction fuel with
  | zero => exact ExprFacts.zero
  | succ fuel ih => exact ih.succ


/-! ### Atoms, items and rules -/

theorem expect_ok {t : Token} {what : String} {ls rest : List Lexeme} {l : Lexeme}
    (h : expect t what ls = .ok (l, rest)) : ls = l :: rest ∧ l.token = t := by
  cases ls with
  | nil => cases h
  | cons x ls =>
    simp only [Rule.expect] at h
    split at h
    · next hx =>
      cases h
      exact ⟨rfl, by simpa using hx⟩
    · cases h

/-- An atom is read from a predicate name, the first lexeme, and terms that read back. -/
theorem atom_shape {fuel : Nat} {ls rest : List Lexeme} {a : Atom} (hs : AllSound ls)
    (h : atom fuel ls = .ok (a, rest)) :
    a.Reads ∧ AllSound rest ∧ ∃ l ls', ls = l :: ls' ∧ l.token = .ident ∧ l.text = a.predicate := by
  rw [atom, bind_eq_ok] at h
  obtain ⟨⟨name, ls1⟩, h1, h2⟩ := h
  obtain ⟨rfl, hident⟩ := expect_ok h1
  obtain ⟨hn, hnot⟩ := (hs name List.mem_cons_self).ident hident
  have hs1 := hs.tail.eat .lparen
  dsimp only at h2
  generalize eat .lparen ls1 = p at h2 hs1
  obtain ⟨opened, ls2⟩ := p
  dsimp only at h2 hs1
  split at h2
  · cases h2
    exact ⟨⟨hn, hnot, by simp⟩, hs1, name, ls1, rfl, hident, rfl⟩
  · have hs2 := hs1.eat .rparen
    generalize eat .rparen ls2 = p at h2 hs2
    obtain ⟨closed, ls3⟩ := p
    dsimp only at h2 hs2
    split at h2
    · cases h2
      exact ⟨⟨hn, hnot, by simp⟩, hs2, name, ls1, rfl, hident, rfl⟩
    · rw [bind_eq_ok] at h2
      obtain ⟨⟨ts, ls4⟩, h3, h4⟩ := h2
      cases h4
      obtain ⟨hts, hs4⟩ := termList_shape hs2 (fun _ hc => absurd hc List.not_mem_nil) h3
      exact ⟨⟨hn, hnot, hts⟩, hs4, name, ls1, rfl, hident, rfl⟩

theorem compareOp_ok {ls rest : List Lexeme} {op : CompareOp} (h : compareOp ls = .ok (op, rest)) :
    rest = ls.tail := by
  rcases ls with _ | ⟨l, ls⟩
  · cases h
  · simp only [compareOp] at h
    split at h <;> cases h <;> rfl

theorem item_shape {fuel : Nat} {ls rest : List Lexeme} {i : Item} (hs : AllSound ls)
    (h : item fuel ls = .ok (i, rest)) : i.Reads ∧ AllSound rest := by
  rw [item] at h
  have hs1 := hs.eat .not
  generalize eat .not ls = p at h hs1
  obtain ⟨negated, ls1⟩ := p
  dsimp only at h
  split at h
  · rw [bind_eq_ok] at h
    obtain ⟨⟨a, ls2⟩, h1, h2⟩ := h
    cases h2
    obtain ⟨ha, hs2, -⟩ := atom_shape hs1 h1
    exact ⟨ha, hs2⟩
  split at h
  · next hat =>
    rw [bind_eq_ok] at h
    obtain ⟨⟨a, ls2⟩, h1, h2⟩ := h
    cases h2
    obtain ⟨ha, hs2, l, ls', rfl, -, hl⟩ := atom_shape hs1 h1
    simp only [atAtom, Bool.and_eq_true, hl] at hat
    exact ⟨⟨ha, hat.1.1.2, hat.1.2⟩, hs2⟩
  · rw [bind_eq_ok] at h
    obtain ⟨⟨left, ls2⟩, h1, h2⟩ := h
    obtain ⟨hleft, hs2⟩ := (exprFacts fuel).ofExpr hs1 h1
    rw [bind_eq_ok] at h2
    obtain ⟨⟨op, ls3⟩, h3, h4⟩ := h2
    rw [bind_eq_ok] at h4
    obtain ⟨⟨right, ls4⟩, h5, h6⟩ := h4
    cases h6
    have hs3 : AllSound ls3 := compareOp_ok h3 ▸ hs2.tail'
    obtain ⟨hright, hs4⟩ := (exprFacts fuel).ofExpr hs3 h5
    exact ⟨⟨hleft.2, hright.2⟩, hs4⟩

theorem items_shape {fuel : Nat} {ls rest : List Lexeme} {acc its : List Item} (hs : AllSound ls)
    (hacc : ∀ i ∈ acc, i.Reads) (h : items fuel ls acc = .ok (its, rest)) :
    (∀ i ∈ its, i.Reads) ∧ AllSound rest := by
  induction fuel generalizing ls acc with
  | zero =>
    cases h
    exact ⟨fun i hi => hacc i (List.mem_reverse.mp hi), hs⟩
  | succ fuel ih =>
    rw [items, bind_eq_ok] at h
    obtain ⟨⟨i, ls1⟩, h1, h2⟩ := h
    obtain ⟨hi, hs1⟩ := item_shape hs h1
    have hacc1 : ∀ j ∈ i :: acc, j.Reads := by
      intro j hj
      rcases List.mem_cons.mp hj with rfl | hj
      · exact hi
      · exact hacc j hj
    have hs2 := hs1.eat .comma
    dsimp only at h2
    generalize eat .comma ls1 = p at h2 hs2
    obtain ⟨more, ls2⟩ := p
    dsimp only at h2
    split at h2
    · exact ih hs2 hacc1 h2
    · cases h2
      exact ⟨fun j hj => hacc1 j (List.mem_reverse.mp hj), hs2⟩

/-- A rule read from sound lexemes is put together from a head and items of the reader's
shape. -/
theorem parseTokens_shape {ls : List Lexeme} {r : Rule} (hs : AllSound ls)
    (h : parseTokens ls = .ok r) :
    ∃ head its, head.Reads ∧ (∀ i ∈ its, Item.Reads i) ∧ r = Rule.ofItems head its := by
  rw [parseTokens] at h
  split at h
  · cases h
  rw [bind_eq_ok] at h
  obtain ⟨⟨head, ls1⟩, h1, h2⟩ := h
  obtain ⟨hhead, hs1, -⟩ := atom_shape hs h1
  have hs2 := hs1.eat .implies
  dsimp only at h2
  generalize eat .implies ls1 = p at h2 hs2
  obtain ⟨implied, ls2⟩ := p
  dsimp only at h2 hs2
  -- either branch ends with the final point and no lexeme after it
  split at h2
  · rw [bind_eq_ok] at h2
    obtain ⟨⟨its, ls3⟩, h3, h4⟩ := h2
    generalize (eat .dot ls3).2 = rest at h4
    cases rest <;> cases h4
    exact ⟨head, its, hhead, (items_shape hs2 (fun _ hc => absurd hc List.not_mem_nil) h3).1, rfl⟩
  · simp only [pure_eq_ok, ok_bind] at h2
    generalize (eat .dot ls2).2 = rest at h2
    cases rest <;> cases h2
    exact ⟨head, [], hhead, fun _ hc => absurd hc List.not_mem_nil, rfl⟩

/-- A rule read from text is put together from a head and items of the reader's shape. -/
theorem parse_shape {text : String} {r : Rule} (h : parse text = .ok r) :
    ∃ head its, head.Reads ∧ (∀ i ∈ its, Item.Reads i) ∧ r = Rule.ofItems head its := by
  rw [parse, bind_eq_ok] at h
  obtain ⟨ls, h1, h2⟩ := h
  exact parseTokens_shape (sound_of_lexFrom h1) h2

end ChaseProse.Rule
