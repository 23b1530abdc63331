import ChaseProse.Proofs.Rule.Shape
/-! The reader run on the token view of a rule: each part reads back in front of any rest that does
not run into it, and a whole rule reads back as `Rule.ofItems`. -/
namespace ChaseProse.Rule

/-! ### Lexemes of given kinds -/

@[simp] theorem Lexeme.kind_eq_iff {l : Lexeme} {t : Token} {s : String} :
    l.kind = (t, s) ↔ l.token = t ∧ l.text = s := by
  simp [Lexeme.kind]

theorem kinds_eq_cons {ls : List Lexeme} {t : Token} {s : String} {ks : List (Token × String)}
    (h : ls.map Lexeme.kind = (t, s) :: ks) :
    ∃ l ls', ls = l :: ls' ∧ l.token = t ∧ l.text = s ∧ ls'.map Lexeme.kind = ks := by
  obtain ⟨l, ls', rfl, hl, hls⟩ := List.map_eq_cons_iff.mp h
  exact ⟨l, ls', rfl, (Lexeme.kind_eq_iff.mp hl).1, (Lexeme.kind_eq_iff.mp hl).2, hls⟩

theorem kinds_eq_singleton {ls : List Lexeme} {t : Token} {s : String}
    (h : ls.map Lexeme.kind = [(t, s)]) : ∃ l, ls = [l] ∧ l.token = t ∧ l.text = s := by
  obtain ⟨l, rfl, hl⟩ := List.map_eq_singleton_iff.mp h
  exact ⟨l, rfl, Lexeme.kind_eq_iff.mp hl⟩

theorem eat_of_token {t : Token} {l : Lexeme} (h : l.token = t) (ls : List Lexeme) :
    eat t (l :: ls) = (true, ls) := by
  simp [eat, h]

theorem eat_of_ne {t : Token} {l : Lexeme} (h : l.token ≠ t) (ls : List Lexeme) :
    eat t (l :: ls) = (false, l :: ls) := by
  simp [eat, h]

theorem expect_of_token {t : Token} {l : Lexeme} (h : l.token = t) (what : String)
    (ls : List Lexeme) : expect t what (l :: ls) = .ok (l, ls) := by
  simp [expect, h]

/-- The lexemes after a part do not start with any of the tokens `ts`. -/
def Clear (ts : List Token) (rest : List Lexeme) : Prop := ∀ t ∈ peek? rest, t ∉ ts

theorem Clear.nil (ts : List Token) : Clear ts [] := fun _ h => absurd h (by simp [peek?])

theorem Clear.cons {ts : List Token} {l : Lexeme} (h : l.token ∉ ts) (rest : List Lexeme) :
    Clear ts (l :: rest) := by
  intro t ht
  simp only [peek?, List.head?_cons, Option.map_some, Option.mem_def, Option.some.injEq] at ht
  exact ht ▸ h

theorem Clear.mono {ts us : List Token} {rest : List Lexeme} (h : Clear ts rest) (hsub : us ⊆ ts) :
    Clear us rest :=
  fun t ht hu => h t ht (hsub hu)

theorem Clear.eat {ts : List Token} {t : Token} (ht : t ∈ ts) {rest : List Lexeme}
    (h : Clear ts rest) : eat t rest = (false, rest) := by
  rcases rest with _ | ⟨l, rest⟩
  · rfl
  · exact eat_of_ne (fun hl => h l.token (by simp [peek?]) (hl ▸ ht)) rest

/-! ### Terms and atoms -/

theorem Term.tokens_unsigned {t : Term} (ht : t.Reads false) : ∃ k, t.tokens = [k] := by
  cases t with
  | num n =>
    obtain ⟨c, cs, hcs, hc⟩ := (show Numeral n.toList by simpa [Term.Reads] using ht).1
    exact ⟨_, Term.tokens_num hcs hc⟩
  | _ => exact ⟨_, rfl⟩

/-- A term's tokens start with a name, a number, a string or a minus sign. -/
theorem Term.tokens_cons (t : Term) : ∃ tok s ks, t.tokens = (tok, s) :: ks ∧
    tok ∈ [Token.ident, .number, .str, .minus] := by
  cases t with
  | num n =>
    simp only [Term.tokens]
    split <;> simp
  | _ => simp [Term.tokens]

theorem term_tokens {t : Term} (ht : t.Reads true) {ls : List Lexeme}
    (hk : ls.map Lexeme.kind = t.tokens) (rest : List Lexeme) : term (ls ++ rest) = .ok (t, rest) := by
  cases t with
  | var n =>
    obtain ⟨l, rfl, htok, htext⟩ := kinds_eq_singleton hk
    simp [term, eat, htok, htext, ht.2.2]
  | sym n =>
    obtain ⟨l, rfl, htok, htext⟩ := kinds_eq_singleton hk
    simp [term, eat, htok, htext, ht.2.2]
  | anon =>
    obtain ⟨l, rfl, htok, htext⟩ := kinds_eq_singleton hk
    simp [term, eat, htok, htext]
    rfl
  | text s =>
    obtain ⟨l, rfl, htok, htext⟩ := kinds_eq_singleton hk
    have hs : stripQuotes ("\"" ++ s ++ "\"") = s := ht
    simp [term, eat, htok, htext, hs]
  | num n =>
    rcases ht with hn | ⟨-, m, hm, -⟩
    · obtain ⟨c, cs, hcs, hc⟩ := hn.1
      rw [Term.tokens_num hcs hc] at hk
      obtain ⟨l, rfl, htok, htext⟩ := kinds_eq_singleton hk
      simp [term, eat, htok, htext]
    · rw [Term.tokens_neg hm] at hk
      obtain ⟨l1, ls1, rfl, htok1, -, hk1⟩ := kinds_eq_cons hk
      obtain ⟨l2, rfl, htok2, htext2⟩ := kinds_eq_singleton hk1
      have hn : "-" ++ String.ofList m = n := by
        apply String.toList_injective
        simp [hm]
      simp [term, eat, htok1, htok2, htext2, hn]

theorem length_le_termsTokens (ts : List Term) : ts.length ≤ (termsTokens ts).length := by
  induction ts with
  | nil => exact Nat.le_refl 0
  | cons t ts ih =>
    obtain ⟨tok, s, ks, hks, -⟩ := t.tokens_cons
    cases ts with
    | nil => simp [termsTokens, hks]
    | cons t' ts =>
      simp only [termsTokens, List.length_cons, List.length_append] at ih ⊢
      omega

/-- Terms separated by commas are read up to the closing token, one unit of fuel a term. -/
theorem termList_tokens {close : Token} (hclose : close ≠ .comma) (what : String)
    {ts : List Term} (hts : ∀ t ∈ ts, t.Reads true) (hne : ts ≠ []) {ls : List Lexeme}
    (hk : ls.map Lexeme.kind = termsTokens ts) {l : Lexeme} (hl : l.token = close)
    (rest : List Lexeme) {fuel : Nat} (hf : ts.length ≤ fuel) (acc : List Term) :
    termList close what fuel (ls ++ l :: rest) acc = .ok (acc.reverse ++ ts, rest) := by
  induction ts generalizing ls fuel acc with
  | nil => exact absurd rfl hne
  | cons t ts ih =>
    obtain ⟨fuel, rfl⟩ : ∃ f, fuel = f + 1 := ⟨fuel - 1, by simp at hf; omega⟩
    have ht := hts t List.mem_cons_self
    cases ts with
    | nil =>
      simp [termList, term_tokens ht hk, eat_of_token hl]
    | cons t' ts =>
      obtain ⟨ls1, ls2, rfl, hk1, hk2⟩ := List.map_eq_append_iff.mp hk
      obtain ⟨lc, ls3, rfl, hcomma, -, hk3⟩ := kinds_eq_cons hk2
      have hnext := ih (fun u hu => hts u (List.mem_cons_of_mem t hu)) (List.cons_ne_nil t' ts) hk3
        (Nat.le_of_succ_le_succ hf) (t :: acc)
      rw [List.append_assoc, List.cons_append, termList, term_tokens ht hk1]
      simp [eat_of_ne (hcomma ▸ Ne.symm hclose), expect_of_token hcomma, hnext]

/-- An atom is read from its tokens, with fuel for its terms. -/
theorem atom_tokens {a : Atom} (ha : a.Reads) {ls : List Lexeme} (hk : ls.map Lexeme.kind = a.tokens)
    (rest : List Lexeme) {fuel : Nat} (hf : a.terms.length ≤ fuel) :
    atom fuel (ls ++ rest) = .ok (a, rest) := by
  obtain ⟨p, ts⟩ := a
  simp only [Atom.tokens, List.cons_append] at hk
  obtain ⟨l1, ls1, rfl, h1, hp, hk1⟩ := kinds_eq_cons hk
  obtain ⟨l2, ls2, rfl, h2, -, hk2⟩ := kinds_eq_cons hk1
  obtain ⟨ls3, ls4, rfl, hk3, hk4⟩ := List.map_eq_append_iff.mp hk2
  obtain ⟨l3, rfl, h3, -⟩ := kinds_eq_singleton hk4
  rcases ts with _ | ⟨t, ts⟩
  · rw [List.map_eq_nil_iff.mp hk3]
    simp [atom, expect_of_token h1, eat_of_token h2, eat_of_token h3, hp]
  · obtain ⟨tok, s, ks, hks, htok⟩ := t.tokens_cons
    have hne : tok ≠ .rparen := by simp at htok; rcases htok with rfl | rfl | rfl | rfl <;> decide
    have hts := termList_tokens (by decide) "',' or ')'" ha.2.2 (List.cons_ne_nil t ts) hk3 h3 rest
      hf []
    have hfirst : ∃ l ls5, ls3 = l :: ls5 ∧ l.token ≠ .rparen := by
      cases ts <;> simp only [termsTokens, hks, List.cons_append] at hk3 <;>
      · obtain ⟨l, ls5, rfl, hl, -, -⟩ := kinds_eq_cons hk3
        exact ⟨l, ls5, rfl, hl ▸ hne⟩
    obtain ⟨l, ls5, rfl, hl⟩ := hfirst
    simp only [List.cons_append, List.append_assoc] at hts ⊢
    simp [atom, expect_of_token h1, eat_of_token h2, eat_of_ne hl, hts, hp]

/-! ### Expressions -/

theorem Clear.peek_ne {ts : List Token} {rest : List Lexeme} (h : Clear ts rest) {t : Token}
    (ht : t ∈ ts) : peek? rest ≠ some t :=
  fun hp => h t hp ht

theorem productRest_stop {rest : List Lexeme} (h : Clear [.star, .slash] rest) (g : Nat)
    (e : Expr) : productRest (g + 1) e rest = .ok (e, rest) := by
  rw [productRest]
  split
  · next hp => exact absurd hp (h.peek_ne (by simp))
  · next hp => exact absurd hp (h.peek_ne (by simp))
  · rfl

theorem sumRest_stop {rest : List Lexeme} (h : Clear [.plus, .minus] rest) (g : Nat) (e : Expr) :
    sumRest (g + 1) e rest = .ok (e, rest) := by
  rw [sumRest]
  split
  · next hp => exact absurd hp (h.peek_ne (by simp))
  · next hp => exact absurd hp (h.peek_ne (by simp))
  · rfl

theorem productRest_step {op : ArithOp} (hop : op.level = 1) {l : Lexeme} (hl : l.token = op.token)
    {g : Nat} {ls ls' : List Lexeme} {rhs : Expr} (hr : unary g ls = .ok (rhs, ls')) (lhs : Expr) :
    productRest (g + 1) lhs (l :: ls) = productRest g (.binary op lhs rhs) ls' := by
  cases op <;> simp [ArithOp.level] at hop <;> simp [productRest, peek?, hl, ArithOp.token, hr]

theorem sumRest_step {op : ArithOp} (hop : op.level = 0) {l : Lexeme} (hl : l.token = op.token)
    {g : Nat} {ls ls' : List Lexeme} {rhs : Expr} (hr : termExpr g ls = .ok (rhs, ls')) (lhs : Expr) :
    sumRest (g + 1) lhs (l :: ls) = sumRest g (.binary op lhs rhs) ls' := by
  cases op <;> simp [ArithOp.level] at hop <;> simp [sumRest, peek?, hl, ArithOp.token, hr]

/-- `primary` reads `e` back from its tokens, with fuel to spare, in front of a rest that does
not open a bracket. -/
def PrimaryReads (e : Expr) : Prop :=
  ∀ fuel ls rest, ls.map Lexeme.kind = e.tokens → Clear [.lparen] rest →
    4 * e.tokens.length ≤ fuel → primary fuel (ls ++ rest) = .ok (e, rest)

/-- `unary` reads `e` back from its tokens in front of a rest that does not open a bracket. -/
def UnaryReads (e : Expr) : Prop :=
  ∀ fuel ls rest, ls.map Lexeme.kind = e.tokens → Clear [.lparen] rest →
    4 * e.tokens.length + 1 ≤ fuel → unary fuel (ls ++ rest) = .ok (e, rest)

/-- `termExpr` reads `e` back and goes on with the product loop after it. -/
def ProductReads (e : Expr) : Prop :=
  ∀ fuel ls rest, ls.map Lexeme.kind = e.tokens → Clear [.lparen] rest →
    4 * e.tokens.length + 2 ≤ fuel →
      ∃ g, fuel ≤ g + 4 * e.tokens.length + 1 ∧ termExpr fuel (ls ++ rest) = productRest g e rest

/-- `expr` reads `e` back and goes on with the sum loop after it. -/
def SumReads (e : Expr) : Prop :=
  ∀ fuel ls rest, ls.map Lexeme.kind = e.tokens → Clear [.lparen, .star, .slash] rest →
    4 * e.tokens.length + 3 ≤ fuel →
      ∃ g, fuel ≤ g + 4 * e.tokens.length + 2 ∧ expr fuel (ls ++ rest) = sumRest g e rest

theorem unaryReads_of_primaryReads {e : Expr} (hfirst : ∃ tok s ks, e.tokens = (tok, s) :: ks ∧
    tok ≠ .minus) (hp : PrimaryReads e) : UnaryReads e := by
  intro fuel ls rest hk hr hf
  obtain ⟨f, rfl⟩ : ∃ f, fuel = f + 1 := ⟨fuel - 1, by omega⟩
  obtain ⟨tok, s, ks, hks, hne⟩ := hfirst
  obtain ⟨l, ls', rfl, htok, -, -⟩ := kinds_eq_cons (hks ▸ hk)
  rw [unary, List.cons_append, eat_of_ne (htok ▸ hne)]
  exact hp f (l :: ls') rest hk hr (by omega)

theorem productReads_of_unaryReads {e : Expr} (hu : UnaryReads e) : ProductReads e := by
  intro fuel ls rest hk hr hf
  obtain ⟨f, rfl⟩ : ∃ f, fuel = f + 1 := ⟨fuel - 1, by omega⟩
  refine ⟨f, by omega, ?_⟩
  rw [termExpr, hu f ls rest hk hr (by omega), ok_bind]

theorem sumReads_of_productReads {e : Expr} (hp : ProductReads e) : SumReads e := by
  intro fuel ls rest hk hr hf
  obtain ⟨f, rfl⟩ : ∃ f, fuel = f + 1 := ⟨fuel - 1, by omega⟩
  obtain ⟨g, hg, hterm⟩ := hp f ls rest hk (hr.mono (by simp)) (by omega)
  obtain ⟨g', rfl⟩ : ∃ g', g = g' + 1 := ⟨g - 1, by omega⟩
  refine ⟨f, by omega, ?_⟩
  rw [expr, hterm, productRest_stop (hr.mono (by simp)) g' e, ok_bind]

theorem primaryReads_term {t : Term} (ht : t.Reads false) : PrimaryReads (.term t) := by
  intro fuel ls rest hk hr hf
  obtain ⟨tok, s, ks, hks, -⟩ := t.tokens_cons
  obtain ⟨f, rfl⟩ : ∃ f, fuel = f + 1 := ⟨fuel - 1, by simp [Expr.tokens, hks] at hf; omega⟩
  have hterm := term_tokens (ht.of_unsigned true) hk rest
  have hpeek : (peek? rest == some .lparen) = false := by
    simpa using hr.peek_ne (List.mem_singleton_self _)
  cases t with
  | num n =>
    obtain ⟨c, cs, hcs, hc⟩ := (show Numeral n.toList by simpa [Term.Reads] using ht).1
    have hk' := hk
    simp only [Expr.tokens, Term.tokens_num hcs hc] at hk'
    obtain ⟨l, rfl, htok, -⟩ := kinds_eq_singleton hk'
    simp only [List.singleton_append] at hterm ⊢
    simp [primary, htok, hterm]
  | _ =>
    obtain ⟨l, rfl, htok, -⟩ := kinds_eq_singleton hk
    simp only [List.singleton_append] at hterm ⊢
    simp [primary, htok, hterm, hpeek]

theorem unaryReads_neg {e : Expr} (h : UnaryReads e) : UnaryReads (.neg e) := by
  intro fuel ls rest hk hr hf
  obtain ⟨f, rfl⟩ : ∃ f, fuel = f + 1 := ⟨fuel - 1, by omega⟩
  obtain ⟨l, ls', rfl, htok, -, hk'⟩ := kinds_eq_cons hk
  simp only [Expr.tokens, List.length_cons] at hf
  rw [unary, List.cons_append, eat_of_token htok]
  simp [h f ls' rest hk' hr (by omega)]

theorem productReads_binary {op : ArithOp} (hop : op.level = 1) {l r : Expr} (hl : ProductReads l)
    (hr : UnaryReads r) : ProductReads (.binary op l r) := by
  intro fuel ls rest hk hrest hf
  simp only [Expr.tokens] at hk hf
  simp only [List.length_append, List.length_cons] at hf
  obtain ⟨ls1, ls2, rfl, hk1, hk2⟩ := List.map_eq_append_iff.mp hk
  obtain ⟨lop, ls3, rfl, htok, -, hk3⟩ := kinds_eq_cons hk2
  have hclear : Clear [.lparen] (lop :: (ls3 ++ rest)) :=
    Clear.cons (by rw [htok]; cases op <;> decide) _
  obtain ⟨g, hg, hleft⟩ := hl fuel ls1 _ hk1 hclear (by omega)
  obtain ⟨g', rfl⟩ : ∃ g', g = g' + 1 := ⟨g - 1, by omega⟩
  refine ⟨g', by simp only [Expr.tokens, List.length_append, List.length_cons]; omega, ?_⟩
  rw [List.append_assoc, List.cons_append, hleft,
    productRest_step hop htok (hr g' ls3 rest hk3 hrest (by omega))]

theorem sumReads_binary {op : ArithOp} (hop : op.level = 0) {l r : Expr} (hl : SumReads l)
    (hr : ProductReads r) : SumReads (.binary op l r) := by
  intro fuel ls rest hk hrest hf
  simp only [Expr.tokens] at hk hf
  simp only [List.length_append, List.length_cons] at hf
  obtain ⟨ls1, ls2, rfl, hk1, hk2⟩ := List.map_eq_append_iff.mp hk
  obtain ⟨lop, ls3, rfl, htok, -, hk3⟩ := kinds_eq_cons hk2
  have hclear : Clear [.lparen, .star, .slash] (lop :: (ls3 ++ rest)) :=
    Clear.cons (by rw [htok]; cases op <;> simp [ArithOp.level] at hop <;> decide) _
  obtain ⟨g, hg, hleft⟩ := hl fuel ls1 _ hk1 hclear (by omega)
  obtain ⟨g', rfl⟩ : ∃ g', g = g' + 1 := ⟨g - 1, by omega⟩
  obtain ⟨g2, hg2, hright⟩ := hr g' ls3 rest hk3 (hrest.mono (by simp)) (by omega)
  obtain ⟨g3, rfl⟩ : ∃ g3, g2 = g3 + 1 := ⟨g2 - 1, by omega⟩
  refine ⟨g', by simp only [Expr.tokens, List.length_append, List.length_cons]; omega, ?_⟩
  rw [List.append_assoc, List.cons_append, hleft,
    sumRest_step hop htok (hright.trans (productRest_stop (hrest.mono (by simp)) g3 r))]

theorem primaryReads_group {e : Expr} (h : SumReads e) : PrimaryReads (.group e) := by
  intro fuel ls rest hk hr hf
  simp only [Expr.tokens, List.cons_append] at hk
  simp only [Expr.tokens, List.length_cons, List.length_append] at hf
  obtain ⟨f, rfl⟩ : ∃ f, fuel = f + 1 := ⟨fuel - 1, by omega⟩
  obtain ⟨l1, ls1, rfl, h1, -, hk1⟩ := kinds_eq_cons hk
  obtain ⟨ls2, ls3, rfl, hk2, hk3⟩ := List.map_eq_append_iff.mp hk1
  obtain ⟨l2, rfl, h2, -⟩ := kinds_eq_singleton hk3
  obtain ⟨g, hg, hinner⟩ := h f ls2 (l2 :: rest) hk2 (Clear.cons (by simp [h2]) rest) (by omega)
  obtain ⟨g', rfl⟩ : ∃ g', g = g' + 1 := ⟨g - 1, by omega⟩
  have hstop : sumRest (g' + 1) e (l2 :: rest) = .ok (e, l2 :: rest) :=
    sumRest_stop (Clear.cons (by simp [h2]) rest) g' e
  rw [List.cons_append, List.append_assoc, List.singleton_append, primary]
  simp [h1, hinner, hstop, expect_of_token h2]

theorem AggregateFn.ofName?_name (fn : AggregateFn) : AggregateFn.ofName? fn.name = some fn := by
  cases fn <;> rfl

theorem primaryReads_aggregate {fn : AggregateFn} {i : Expr} {cs : List Term} (hi : SumReads i)
    (hcs : ∀ c ∈ cs, c.Reads true) : PrimaryReads (.aggregate fn i cs) := by
  intro fuel ls rest hk hr hf
  simp only [Expr.tokens, List.cons_append] at hk
  obtain ⟨l1, ls1, rfl, h1, hname, hk1⟩ := kinds_eq_cons hk
  obtain ⟨l2, ls2, rfl, h2, -, hk2⟩ := kinds_eq_cons hk1
  obtain ⟨ls3, ls4, rfl, hk3, hk4⟩ := List.map_eq_append_iff.mp hk2
  have hlen := length_le_termsTokens cs
  simp only [Expr.tokens, List.length_cons, List.length_append] at hf
  obtain ⟨f, rfl⟩ : ∃ f, fuel = f + 1 := ⟨fuel - 1, by omega⟩
  obtain ⟨f1, rfl⟩ : ∃ f1, f = f1 + 1 := ⟨f - 1, by omega⟩
  -- what follows the aggregated expression: the contributors, if any, then `)`
  have hafter : ∃ l ls5, ls4 = l :: ls5 ∧ (l.token = .comma ∨ l.token = .rparen) ∧
      contributorList f1 fn i [] (ls4 ++ rest) = .ok (.aggregate fn i cs, rest) := by
    rcases cs with _ | ⟨c, cs⟩
    · obtain ⟨l, rfl, hl, -⟩ := kinds_eq_singleton (by simpa using hk4)
      obtain ⟨f2, rfl⟩ : ∃ f2, f1 = f2 + 1 := ⟨f1 - 1, by simp at hf; omega⟩
      refine ⟨l, [], rfl, .inr hl, ?_⟩
      simp [contributorList, eat_of_ne (show l.token ≠ .comma by simp [hl]), expect_of_token hl]
    · simp only [List.isEmpty_cons, Bool.false_eq_true, if_false, List.cons_append,
        List.append_assoc] at hk4
      obtain ⟨lc, ls5, rfl, hc, -, hk5⟩ := kinds_eq_cons hk4
      obtain ⟨llt, ls6, rfl, hlt, -, hk6⟩ := kinds_eq_cons hk5
      obtain ⟨ls7, ls8, rfl, hk7, hk8⟩ := List.map_eq_append_iff.mp hk6
      obtain ⟨lgt, ls9, rfl, hgt, -, hk9⟩ := kinds_eq_cons hk8
      obtain ⟨lrp, rfl, hrp, -⟩ := kinds_eq_singleton hk9
      simp only [List.isEmpty_cons, Bool.false_eq_true, if_false, List.length_cons,
        List.length_append] at hf hlen
      obtain ⟨f2, rfl⟩ : ∃ f2, f1 = f2 + 1 := ⟨f1 - 1, by omega⟩
      obtain ⟨f3, rfl⟩ : ∃ f3, f2 = f3 + 1 := ⟨f2 - 1, by omega⟩
      have hts : termList .gt "',' or '>'" (f3 + 1) (ls7 ++ lgt :: lrp :: rest) [] =
          .ok ([].reverse ++ c :: cs, lrp :: rest) :=
        termList_tokens (by decide) _ hcs (List.cons_ne_nil c cs) hk7 hgt _ (by simp; omega) []
      refine ⟨lc, _, rfl, .inl hc, ?_⟩
      simp only [List.cons_append, List.append_assoc] at hts ⊢
      simp [contributorList, eat_of_token hc, eat_of_token hlt, hts,
        eat_of_ne (show lrp.token ≠ .comma by simp [hrp]), expect_of_token hrp]
  obtain ⟨l, ls5, rfl, hl, hcontrib⟩ := hafter
  have hclear : Clear [.lparen, .star, .slash] (l :: ls5 ++ rest) :=
    Clear.cons (by rcases hl with hl | hl <;> simp [hl]) _
  obtain ⟨g, hg, hinput⟩ := hi f1 ls3 _ hk3 hclear (by omega)
  obtain ⟨g', rfl⟩ : ∃ g', g = g' + 1 := ⟨g - 1, by omega⟩
  have hstop : sumRest (g' + 1) i (l :: ls5 ++ rest) = .ok (i, l :: ls5 ++ rest) :=
    sumRest_stop (Clear.cons (by rcases hl with hl | hl <;> simp [hl]) _) g' i
  rw [List.cons_append, List.cons_append, List.append_assoc, primary]
  simp only [h1, peek?, List.head?_cons, Option.map_some, h2, hname, AggregateFn.ofName?_name]
  simp only [List.cons_append] at hinput hstop hcontrib
  simp [aggregateArgs, hinput, hstop, hcontrib]

/-- A parsed expression starts with a name, a number, a string, a bracket or a minus sign, and
only a negation or a sum or product starting with one starts with a minus sign. -/
theorem Expr.tokens_cons {e : Expr} (he : e.Parsed) : ∃ tok s ks, e.tokens = (tok, s) :: ks ∧
    tok ∈ [Token.ident, .number, .str, .lparen, .minus] ∧ (3 ≤ e.level → tok ≠ .minus) := by
  induction e with
  | term t =>
    cases t with
    | num n =>
      obtain ⟨c, cs, hcs, hc⟩ := (show Numeral n.toList by simpa [Expr.Parsed, Term.Reads] using he).1
      simp [Expr.tokens, Term.tokens_num hcs hc]
    | _ => simp [Expr.tokens, Term.tokens]
  | neg e => simp [Expr.tokens, Expr.level]
  | binary op l r ihl =>
    obtain ⟨tok, s, ks, hks, htok, -⟩ := ihl he.2.2.1
    refine ⟨tok, s, ks ++ (op.token, op.symbol) :: r.tokens, by simp [Expr.tokens, hks], htok,
      fun h => ?_⟩
    cases op <;> simp [Expr.level, ArithOp.level] at h
  | group e => simp [Expr.tokens]
  | aggregate fn i cs => simp [Expr.tokens]

/-- What the reader needs to read a parsed expression back at each level it binds at. -/
structure Expr.Rereads (e : Expr) : Prop where
  unaryLevel : 2 ≤ e.level → UnaryReads e
  productLevel : 1 ≤ e.level → ProductReads e
  sumLevel : SumReads e

theorem Expr.Rereads.of_unary {e : Expr} (hu : UnaryReads e) : e.Rereads :=
  ⟨fun _ => hu, fun _ => productReads_of_unaryReads hu,
    sumReads_of_productReads (productReads_of_unaryReads hu)⟩

theorem Expr.Rereads.of_primary {e : Expr} (he : e.Parsed) (hl : 3 ≤ e.level)
    (hp : PrimaryReads e) : e.Rereads := by
  obtain ⟨tok, s, ks, hks, -, hne⟩ := Expr.tokens_cons he
  exact .of_unary (unaryReads_of_primaryReads ⟨tok, s, ks, hks, hne hl⟩ hp)

/-- Every parsed expression is read back from its tokens at each level it binds at. -/
theorem Expr.rereads {e : Expr} (he : e.Parsed) : e.Rereads := by
  induction e with
  | term t => exact .of_primary he (Nat.le_refl 3) (primaryReads_term he)
  | neg e ih => exact .of_unary (unaryReads_neg ((ih he.2).unaryLevel he.1))
  | binary op l r ihl ihr =>
    obtain ⟨hll, hlr, hpl, hpr⟩ := he
    have hl := ihl hpl
    have hr := ihr hpr
    -- a sum is read by the sum loop only, a product by the product loop and above
    have hsum (hop : op.level = 0) : (Expr.binary op l r).Rereads :=
      ⟨fun h => by simp [Expr.level, hop] at h, fun h => by simp [Expr.level, hop] at h,
        sumReads_binary hop hl.sumLevel (hr.productLevel (by omega))⟩
    have hproduct (hop : op.level = 1) : (Expr.binary op l r).Rereads := by
      have hp := productReads_binary hop (hl.productLevel (by omega)) (hr.unaryLevel (by omega))
      exact ⟨fun h => by simp [Expr.level, hop] at h, fun _ => hp, sumReads_of_productReads hp⟩
    cases op
    · exact hsum rfl
    · exact hsum rfl
    · exact hproduct rfl
    · exact hproduct rfl
  | group e ih => exact .of_primary he (Nat.le_refl 3) (primaryReads_group (ih he).sumLevel)
  | aggregate fn i cs ih =>
    exact .of_primary he (Nat.le_refl 3) (primaryReads_aggregate (ih he.1).sumLevel he.2)

/-- A parsed expression is read back from its tokens in front of anything that does not go on
with it. -/
theorem expr_tokens {e : Expr} (he : e.Parsed) {ls : List Lexeme}
    (hk : ls.map Lexeme.kind = e.tokens) {rest : List Lexeme}
    (hr : Clear [.lparen, .plus, .minus, .star, .slash] rest) {fuel : Nat}
    (hf : 4 * e.tokens.length + 3 ≤ fuel) : expr fuel (ls ++ rest) = .ok (e, rest) := by
  obtain ⟨g, hg, hsum⟩ := (Expr.rereads he).sumLevel fuel ls rest hk (hr.mono (by simp)) hf
  obtain ⟨g', rfl⟩ : ∃ g', g = g' + 1 := ⟨g - 1, by omega⟩
  rw [hsum, sumRest_stop (hr.mono (by simp)) g' e]

/-! ### Items and rules -/

/-- The tokens of a body item. -/
def Item.tokens : Item → List (Token × String)
  | .literal l => l.tokens
  | .comparison c => c.tokens

theorem atAtom_of_ne_ident {l : Lexeme} (h : l.token ≠ .ident) (rest : List Lexeme) :
    atAtom (l :: rest) = false := by
  simp [atAtom, h]

theorem atAtom_of_next {l l' : Lexeme} (h : l'.token ∉ [.lparen, .comma, .dot]) (rest : List Lexeme) :
    atAtom (l :: l' :: rest) = false := by
  simp only [atAtom, peek?, List.head?_cons, Option.map_some]
  split <;> simp_all

/-- A comparison does not start like an atom: its left side is followed by an operator before
any bracket, comma or point, or starts with an aggregate function. -/
theorem atAtom_expr {e : Expr} (he : e.Parsed) {ls : List Lexeme}
    (hk : ls.map Lexeme.kind = e.tokens) {l : Lexeme} (hl : l.token ∉ [.lparen, .comma, .dot])
    (rest : List Lexeme) : atAtom (ls ++ l :: rest) = false := by
  induction e generalizing ls l rest with
  | term t =>
    obtain ⟨k, hks⟩ := Term.tokens_unsigned he
    rw [Expr.tokens, hks] at hk
    obtain ⟨l0, rfl, -⟩ := List.map_eq_singleton_iff.mp hk
    exact atAtom_of_next hl rest
  | neg e =>
    obtain ⟨l0, ls0, rfl, h0, -, -⟩ := kinds_eq_cons hk
    exact atAtom_of_ne_ident (by simp [h0]) _
  | binary op lhs rhs ihl =>
    obtain ⟨ls1, ls2, rfl, hk1, hk2⟩ := List.map_eq_append_iff.mp hk
    obtain ⟨lop, ls3, rfl, hop, -, -⟩ := kinds_eq_cons hk2
    rw [List.append_assoc, List.cons_append]
    exact ihl he.2.2.1 hk1 (by rw [hop]; cases op <;> decide) _
  | group e =>
    obtain ⟨l0, ls0, rfl, h0, -, -⟩ := kinds_eq_cons (by simpa [Expr.tokens] using hk)
    exact atAtom_of_ne_ident (by simp [h0]) _
  | aggregate fn i cs =>
    obtain ⟨l0, ls0, rfl, h0, hname, -⟩ := kinds_eq_cons (by simpa [Expr.tokens] using hk)
    simp [atAtom, hname, AggregateFn.ofName?_name]

theorem compareOp_of_token {op : CompareOp} {l : Lexeme} (h : l.token = op.token)
    (ls : List Lexeme) : compareOp (l :: ls) = .ok (op, ls) := by
  cases op <;> simp [compareOp, h, CompareOp.token]

theorem item_literal {lit : Literal} (hl : (Item.literal lit).Reads) {ls : List Lexeme}
    (hk : ls.map Lexeme.kind = lit.tokens) (rest : List Lexeme) {fuel : Nat}
    (hf : lit.atom.terms.length ≤ fuel) : item fuel (ls ++ rest) = .ok (.literal lit, rest) := by
  cases lit with
  | neg a =>
    obtain ⟨l, ls', rfl, h, -, hk'⟩ := kinds_eq_cons hk
    simp [item, eat_of_token h, atom_tokens hl hk' rest hf]
  | pos a =>
    obtain ⟨hr, hlower, hagg⟩ := hl
    have hk' := hk
    simp only [Literal.tokens, Atom.tokens, List.cons_append] at hk'
    obtain ⟨l1, ls1, rfl, h1, hp, hk1⟩ := kinds_eq_cons hk'
    obtain ⟨l2, ls2, rfl, h2, -, -⟩ := kinds_eq_cons hk1
    have hatom := atom_tokens hr hk rest hf
    have hat : atAtom (l1 :: l2 :: (ls2 ++ rest)) = true := by
      simp [atAtom, h1, h2, hp, peek?, hlower, hagg]
    simp only [List.cons_append] at hatom ⊢
    simp [item, eat_of_ne (show l1.token ≠ .not by simp [h1]), hat, hatom]

theorem item_comparison {c : Condition} (hc : c.left.Parsed ∧ c.right.Parsed) {ls : List Lexeme}
    (hk : ls.map Lexeme.kind = c.tokens) {rest : List Lexeme}
    (hr : Clear [.lparen, .plus, .minus, .star, .slash] rest) {fuel : Nat}
    (hf : 4 * c.tokens.length + 3 ≤ fuel) : item fuel (ls ++ rest) = .ok (.comparison c, rest) := by
  obtain ⟨left, op, right⟩ := c
  dsimp only at hc
  simp only [Condition.tokens] at hk hf
  simp only [List.length_append, List.length_cons] at hf
  obtain ⟨ls1, ls2, rfl, hk1, hk2⟩ := List.map_eq_append_iff.mp hk
  obtain ⟨lop, ls3, rfl, hop, -, hk3⟩ := kinds_eq_cons hk2
  obtain ⟨tok, s, ks, hks, htok, -⟩ := Expr.tokens_cons hc.1
  obtain ⟨l1, ls4, rfl, h1, -, -⟩ := kinds_eq_cons (hks ▸ hk1)
  have hnot : l1.token ≠ .not := by
    rw [h1]; simp at htok; rcases htok with rfl | rfl | rfl | rfl | rfl <;> decide
  have hat : atAtom (l1 :: ls4 ++ lop :: (ls3 ++ rest)) = false :=
    atAtom_expr hc.1 hk1 (by rw [hop]; cases op <;> decide) (ls3 ++ rest)
  have hleft : expr fuel (l1 :: ls4 ++ lop :: (ls3 ++ rest)) = .ok (left, lop :: (ls3 ++ rest)) :=
    expr_tokens hc.1 hk1 (Clear.cons (by rw [hop]; cases op <;> decide) _) (by omega)
  rw [List.append_assoc, List.cons_append]
  rw [List.cons_append] at hat hleft ⊢
  simp [item, eat_of_ne hnot, hat, hleft, compareOp_of_token hop,
    expr_tokens hc.2 hk3 hr (show 4 * right.tokens.length + 3 ≤ fuel by omega)]

theorem Literal.terms_length_le (lit : Literal) : lit.atom.terms.length ≤ lit.tokens.length := by
  have h := length_le_termsTokens lit.atom.terms
  cases lit <;> simp [Literal.atom, Literal.tokens, Atom.tokens] at h ⊢ <;> omega

/-- A body item is read back from its tokens in front of a comma or the final point. -/
theorem item_tokens {i : Item} (hi : i.Reads) {ls : List Lexeme} (hk : ls.map Lexeme.kind = i.tokens)
    {rest : List Lexeme} (hr : Clear [.lparen, .plus, .minus, .star, .slash] rest) {fuel : Nat}
    (hf : 4 * i.tokens.length + 3 ≤ fuel) : item fuel (ls ++ rest) = .ok (i, rest) := by
  cases i with
  | literal lit =>
    have := lit.terms_length_le
    exact item_literal hi hk rest (by simp only [Item.tokens] at hf; omega)
  | comparison c => exact item_comparison hi hk hr hf

/-- Items separated by commas are read back up to the final point, each with one unit of fuel
less than the one before. -/
theorem items_tokens {its : List Item} (hits : ∀ i ∈ its, i.Reads) (hne : its ≠ [])
    {ls : List Lexeme} (hk : ls.map Lexeme.kind = [(.comma, ",")].intercalate (its.map Item.tokens))
    {l : Lexeme} (hl : l.token = .dot) (rest : List Lexeme) {fuel : Nat}
    (hf : 4 * ([(Token.comma, ",")].intercalate (its.map Item.tokens)).length + 4 ≤ fuel)
    (acc : List Item) :
    items fuel (ls ++ l :: rest) acc = .ok (acc.reverse ++ its, l :: rest) := by
  have hdot : Clear [.lparen, .plus, .minus, .star, .slash] (l :: rest) :=
    Clear.cons (by simp [hl]) rest
  induction its generalizing ls fuel acc with
  | nil => exact absurd rfl hne
  | cons i its ih =>
    obtain ⟨f, rfl⟩ : ∃ f, fuel = f + 1 := ⟨fuel - 1, by omega⟩
    have hi := hits i List.mem_cons_self
    cases its with
    | nil =>
      simp only [List.map_cons, List.map_nil, List.intercalate_singleton] at hk hf
      have hitem : item f (ls ++ l :: rest) = .ok (i, l :: rest) := item_tokens hi hk hdot (by omega)
      simp [items, hitem, eat_of_ne (show l.token ≠ .comma by simp [hl])]
    | cons i' its =>
      simp only [List.map_cons, List.intercalate_cons_cons, List.length_append,
        List.length_singleton] at hk hf
      obtain ⟨ls1, ls2, rfl, hk1, hk2⟩ := List.map_eq_append_iff.mp hk
      obtain ⟨ls3, ls4, rfl, hk3, hk4⟩ := List.map_eq_append_iff.mp hk1
      obtain ⟨lc, rfl, hc, -⟩ := kinds_eq_singleton hk4
      have hnext : items f (ls2 ++ l :: rest) (i :: acc) =
          .ok ((i :: acc).reverse ++ i' :: its, l :: rest) :=
        ih (fun j hj => hits j (List.mem_cons_of_mem i hj)) (List.cons_ne_nil i' its) hk2
          (by simp only [List.map_cons]; omega) (i :: acc)
      have hitem := item_tokens hi hk3 (@Clear.cons _ lc (by simp [hc]) (ls2 ++ l :: rest))
        (show 4 * i.tokens.length + 3 ≤ f by omega)
      simp only [List.append_assoc, List.singleton_append] at hitem ⊢
      simp [items, hitem, eat_of_token hc, hnext]

/-- A rule is read back from the tokens of its head and items as the rule those items make. -/
theorem parseTokens_tokensWith {head : Atom} (hh : head.Reads) {its : List Item}
    (hits : ∀ i ∈ its, i.Reads) {ls : List Lexeme}
    (hk : ls.map Lexeme.kind = tokensWith head (its.map Item.tokens)) :
    parseTokens ls = .ok (Rule.ofItems head its) := by
  have hlen := congrArg List.length hk
  have hterms := length_le_termsTokens head.terms
  simp only [List.length_map] at hlen
  obtain ⟨ls1, ls2, rfl, hk1, hk2⟩ := List.map_eq_append_iff.mp hk
  have hlen1 := congrArg List.length hk1
  simp only [List.length_map, Atom.tokens, List.length_cons, List.length_append] at hlen1
  have hne : (ls1 ++ ls2).isEmpty = false := by
    cases ls1 with
    | nil => simp at hlen1
    | cons l ls1 => rfl
  have hatom : atom (4 * (ls1 ++ ls2).length + 4) (ls1 ++ ls2) = .ok (head, ls2) :=
    atom_tokens hh hk1 ls2 (by simp; omega)
  rcases its with _ | ⟨i, its⟩
  · obtain ⟨ldot, rfl, hdot, -⟩ := kinds_eq_singleton (by simpa using hk2)
    simp only [parseTokens, hne, Bool.false_eq_true, if_false, hatom, ok_bind]
    simp [eat_of_ne (show ldot.token ≠ .implies by simp [hdot]), eat_of_token hdot]
  · simp only [List.map_cons, List.isEmpty_cons, Bool.false_eq_true, if_false,
      List.cons_append] at hk2
    obtain ⟨limp, ls3, rfl, himp, -, hk3⟩ := kinds_eq_cons hk2
    obtain ⟨ls4, ls5, rfl, hk4, hk5⟩ := List.map_eq_append_iff.mp hk3
    obtain ⟨ldot, rfl, hdot, -⟩ := kinds_eq_singleton hk5
    have hlen4 := congrArg List.length hk4
    simp only [List.length_map] at hlen4
    have hitems : items (4 * (ls1 ++ limp :: (ls4 ++ [ldot])).length + 4) (ls4 ++ [ldot]) [] =
        .ok (i :: its, [ldot]) := by
      simpa using items_tokens hits (List.cons_ne_nil i its) hk4 hdot [] (by simp; omega) []
    simp only [parseTokens, hne, Bool.false_eq_true, if_false, hatom, ok_bind,
      eat_of_token himp, if_true, hitems]
    simp [eat_of_token hdot]

end ChaseProse.Rule
