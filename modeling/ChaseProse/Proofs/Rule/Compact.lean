import ChaseProse.Proofs.Rule.Lexing
import ChaseProse.Rule.Parser
/-! The compact text of a rule, token by token: each part lexes to its tokens in front of any
delimited text (`LexesBefore`). -/
namespace ChaseProse.Rule

def ArithOp.token : ArithOp → Token
  | .add => .plus | .sub => .minus | .mul => .star | .div => .slash

def CompareOp.token : CompareOp → Token
  | .ge => .ge | .le => .le | .ne => .ne | .ltgt => .ltgt | .gt => .gt | .lt => .lt | .eq => .eq

namespace Term

/-- The tokens of the term's text: a negative number is a minus sign and a numeral. -/
def tokens : Term → List (Token × String)
  | .var n | .sym n => [(.ident, n)]
  | .anon => [(.ident, "_")]
  | .num n =>
    match n.toList with
    | '-' :: m => [(.minus, "-"), (.number, String.ofList m)]
    | _ => [(.number, n)]
  | .text s => [(.str, "\"" ++ s ++ "\"")]

/-- A term as the reader gives it back: a name that reads as the term itself, a numeral (with a
minus sign before it where `signed`), or a string with no quote at either end. -/
def Reads (signed : Bool) : Term → Prop
  | .var n => IsName n.toList ∧ n ≠ "not" ∧ nameTerm n = .var n
  | .sym n => IsName n.toList ∧ n ≠ "not" ∧ nameTerm n = .sym n
  | .anon => True
  | .num n => Numeral n.toList ∨ (signed ∧ ∃ m, n.toList = '-' :: m ∧ Numeral m)
  | .text s => stripQuotes ("\"" ++ s ++ "\"") = s

/-- A string whose contents stand between quotes as one literal; other terms qualify. -/
def quotable : Term → Bool
  | .text s => isStringBody s.toList
  | _ => true

end Term

/-- The tokens of terms separated by commas. -/
def termsTokens : List Term → List (Token × String)
  | [] => []
  | [t] => t.tokens
  | t :: ts => t.tokens ++ (.comma, ",") :: termsTokens ts

def Atom.tokens (a : Atom) : List (Token × String) :=
  (.ident, a.predicate) :: (.lparen, "(") :: termsTokens a.terms ++ [(.rparen, ")")]

def Literal.tokens : Literal → List (Token × String)
  | .pos a => a.tokens
  | .neg a => (.not, "not") :: a.tokens

namespace Expr

def tokens : Expr → List (Token × String)
  | .term t => t.tokens
  | .neg e => (.minus, "-") :: e.tokens
  | .binary op l r => l.tokens ++ (op.token, op.symbol) :: r.tokens
  | .group e => (.lparen, "(") :: e.tokens ++ [(.rparen, ")")]
  | .aggregate fn i cs =>
    (.ident, fn.name) :: (.lparen, "(") :: i.tokens ++
      ((if cs.isEmpty then [] else (.comma, ",") :: (.lt, "<") :: termsTokens cs ++ [(.gt, ">")]) ++
        [(.rparen, ")")])

/-- The terms of an expression, contributors included, from left to right. -/
def terms : Expr → List Term
  | .term t => [t]
  | .neg e | .group e => e.terms
  | .binary _ l r => l.terms ++ r.terms
  | .aggregate _ i cs => i.terms ++ cs

@[simp] theorem compact_term (t : Term) : (Expr.term t).compact = t.render := by
  cases t <;> rfl

@[simp] theorem compact_neg (e : Expr) : (Expr.neg e).compact = "-" ++ e.compact := rfl

@[simp] theorem compact_binary (op : ArithOp) (l r : Expr) :
    (Expr.binary op l r).compact = l.compact ++ op.symbol ++ r.compact := rfl

@[simp] theorem compact_group (e : Expr) : (Expr.group e).compact = "(" ++ e.compact ++ ")" := rfl

@[simp] theorem compact_aggregate (fn : AggregateFn) (i : Expr) (cs : List Term) :
    (Expr.aggregate fn i cs).compact = fn.name ++ "(" ++ i.compact ++
      (if cs.isEmpty then "" else ",<" ++ ",".intercalate (cs.map Term.render) ++ ">") ++ ")" :=
  rfl

end Expr

def Condition.tokens (c : Condition) : List (Token × String) :=
  c.left.tokens ++ (c.op.token, c.op.symbol) :: c.right.tokens

/-- The comparison an assignment is read from: its variable, `=`, its expression. -/
def Assignment.comparison (a : Assignment) : Condition := ⟨.term (.var a.target), .eq, a.expr⟩

theorem Assignment.render_eq (a : Assignment) : a.render = a.comparison.render := rfl

/-- The tokens of a rule with the given head and items: the head, then `:-` and the items
separated by commas when there are any, then the final point. -/
def tokensWith (head : Atom) (items : List (List (Token × String))) : List (Token × String) :=
  head.tokens ++
    ((if items.isEmpty then [] else (.implies, ":-") :: [(.comma, ",")].intercalate items) ++
      [(.dot, ".")])

/-! ### Delimited texts -/

/-- What the compact text puts after a name, a number or a closing bracket: nothing, the final
point, or a separator, a blank, a closing bracket or an operator. -/
def Delimited : List Char → Prop
  | [] => True
  | c :: r => c ∈ [',', ')', ' ', '>', '<', '=', '!', '+', '-', '*', '/'] ∨ (c = '.' ∧ r = [])

theorem Delimited.not_isNameChar {rest : List Char} (h : Delimited rest) :
    ∀ x ∈ rest.head?, isNameChar x = false := by
  rcases rest with _ | ⟨c, r⟩
  · simp
  · simp only [Delimited, List.mem_cons, List.not_mem_nil, or_false] at h
    simp only [List.head?_cons, Option.mem_def, Option.some.injEq, forall_eq']
    rcases h with (rfl | rfl | rfl | rfl | rfl | rfl | rfl | rfl | rfl | rfl | rfl) | ⟨rfl, -⟩ <;>
      decide

theorem Delimited.numberStop {rest : List Char} (h : Delimited rest) : NumberStop rest := by
  rcases rest with _ | ⟨c, r⟩
  · exact ⟨by simp, by simp⟩
  · simp only [Delimited, List.mem_cons, List.not_mem_nil, or_false] at h
    refine ⟨?_, ?_⟩
    · simp only [List.head?_cons, Option.mem_def, Option.some.injEq, forall_eq']
      rcases h with (rfl | rfl | rfl | rfl | rfl | rfl | rfl | rfl | rfl | rfl | rfl) | ⟨rfl, -⟩ <;>
        decide
    · rintro r' ⟨rfl, rfl⟩
      rcases h with (h | h | h | h | h | h | h | h | h | h | h) | ⟨-, rfl⟩
      all_goals first | exact absurd h (by decide) | simp

theorem Delimited.of_mem {c : Char} (rest : List Char)
    (hc : c ∈ [',', ')', ' ', '>', '<', '=', '!', '+', '-', '*', '/']) : Delimited (c :: rest) :=
  Or.inl hc

/-- The text `cs` lexes to `ks` in front of any delimited text. -/
def LexesBefore (cs : List Char) (ks : List (Token × String)) : Prop :=
  ∀ rest ks', Delimited rest → Lexes rest ks' → Lexes (cs ++ rest) (ks ++ ks')


/-- Text that starts with a character no operator `<`, `>` or `=` in front of it takes in. -/
def Opens (cs : List Char) : Prop := ∃ c ∈ cs.head?, c ≠ '=' ∧ c ≠ '>'

theorem Opens.append {cs : List Char} (h : Opens cs) (rest : List Char) : Opens (cs ++ rest) := by
  obtain ⟨c, hc, h1, h2⟩ := h
  exact ⟨c, by simp [List.head?_append, Option.mem_def.mp hc], h1, h2⟩

/-! ### Tokens at the head of a text -/

/-- A character that is a token by itself whatever follows it. -/
theorem Lexes.single {c : Char} {t : Token} {rest : List Char} {ks : List (Token × String)}
    (hs : scan (c :: rest) = .token t 1) (hc : isSkipped c = false) (h : Lexes rest ks) :
    Lexes (c :: rest) ((t, String.ofList [c]) :: ks) :=
  @Lexes.token c [] rest t ks hc hs h

theorem lexes_name {n : String} (hn : IsName n.toList) (hnot : n ≠ "not") {rest : List Char}
    {ks : List (Token × String)} (hr : ∀ x ∈ rest.head?, isNameChar x = false) (h : Lexes rest ks) :
    Lexes (n.toList ++ rest) ((.ident, n) :: ks) := by
  obtain ⟨c, cs, hcs, hc, hcs'⟩ := hn
  have hn' : String.ofList (c :: cs) = n := by rw [← hcs, String.ofList_toList]
  have hne : c :: cs ≠ ['n', 'o', 't'] := fun he => hnot (by rw [← hn', he])
  have hs : scan (c :: cs ++ rest) = .token .ident (cs.length + 1) := by
    rw [scan_name ⟨c, cs, rfl, hc, hcs'⟩ hr, if_neg hne, List.length_cons]
  have hskip : isSkipped c = false := isSkipped_of_isNameChar (by simp [isNameChar, hc])
  rw [hcs, ← hn']
  exact Lexes.token hskip hs h

theorem lexes_numeral {m : List Char} (hm : Numeral m) {rest : List Char}
    {ks : List (Token × String)} (hr : NumberStop rest) (h : Lexes rest ks) :
    Lexes (m ++ rest) ((.number, String.ofList m) :: ks) := by
  obtain ⟨⟨c, cs, rfl, hc⟩, hlen⟩ := hm
  exact Lexes.token (isSkipped_of_isNameChar (isNameChar_of_isDigit hc))
    (scan_numeral ⟨⟨c, cs, rfl, hc⟩, hlen⟩ hr) h

theorem lexes_quoted {s : List Char} (hs : isStringBody s) {rest : List Char}
    {ks : List (Token × String)} (h : Lexes rest ks) :
    Lexes ('"' :: (s ++ '"' :: rest)) ((.str, String.ofList ('"' :: (s ++ ['"']))) :: ks) := by
  have hscan : scan ('"' :: (s ++ ['"']) ++ rest) = .token .str ((s ++ ['"']).length + 1) := by
    rw [List.cons_append, List.append_assoc, List.singleton_append, ← List.cons_append,
      scan_quoted hs]
    simp
  have := Lexes.token rfl hscan h
  simpa using this

/-- The keyword `not` and the blank after it. -/
theorem lexes_not {rest : List Char} {ks : List (Token × String)} (h : Lexes rest ks) :
    Lexes ('n' :: 'o' :: 't' :: ' ' :: rest) ((.not, "not") :: ks) := by
  have hs : scan ('n' :: ['o', 't'] ++ ' ' :: rest) = .token .not (['o', 't'].length + 1) := by
    rw [scan_name ⟨'n', ['o', 't'], rfl, rfl, List.all_eq_true.mp rfl⟩ (by simp; decide), if_pos rfl]
    rfl
  exact Lexes.token rfl hs (Lexes.blank rfl h)

theorem ne_of_isNameStart {c : Char} (hc : isNameStart c) : c ≠ '=' ∧ c ≠ '>' := by
  constructor <;> rintro rfl <;> exact absurd hc (by decide)

theorem ne_of_isDigit {c : Char} (hc : c.isDigit) : c ≠ '=' ∧ c ≠ '>' := by
  constructor <;> rintro rfl <;> exact absurd hc (by decide)

/-! ### Terms -/

theorem Term.tokens_num {n : String} {c : Char} {cs : List Char} (hn : n.toList = c :: cs)
    (hc : c.isDigit) : (Term.num n).tokens = [(.number, n)] := by
  have hne : c ≠ '-' := by rintro rfl; exact absurd hc (by decide)
  simp only [Term.tokens, hn]
  split
  · next h => exact absurd (List.cons.inj h).1 hne
  · rfl

theorem Term.tokens_neg {n : String} {m : List Char} (hn : n.toList = '-' :: m) :
    (Term.num n).tokens = [(.minus, "-"), (.number, String.ofList m)] := by
  simp only [Term.tokens, hn]

theorem Term.lexesBefore {t : Term} {signed : Bool} (ht : t.Reads signed) (hq : t.quotable) :
    LexesBefore t.render.toList t.tokens := by
  intro rest ks hd hl
  cases t with
  | var n => exact lexes_name ht.1 ht.2.1 hd.not_isNameChar hl
  | sym n => exact lexes_name ht.1 ht.2.1 hd.not_isNameChar hl
  | anon => exact lexes_name ⟨'_', [], rfl, rfl, by simp⟩ (by decide) hd.not_isNameChar hl
  | num n =>
    rcases ht with hn | ⟨-, m, hm, hnum⟩
    · obtain ⟨c, cs, hcs, hc⟩ := hn.1
      rw [Term.tokens_num hcs hc, List.singleton_append]
      simpa [Term.render] using lexes_numeral hn hd.numberStop hl
    · rw [Term.tokens_neg hm]
      have := @Lexes.single '-' .minus _ _ rfl rfl (lexes_numeral hnum hd.numberStop hl)
      simpa [Term.render, hm] using this
  | text s =>
    have := lexes_quoted hq hl
    have htext : String.ofList ('"' :: (s.toList ++ ['"'])) = "\"" ++ s ++ "\"" := by
      apply String.toList_injective
      simp
    simpa [Term.render, Term.tokens, htext] using this


theorem Term.opens {t : Term} {signed : Bool} (ht : t.Reads signed) : Opens t.render.toList := by
  cases t with
  | var n | sym n =>
    obtain ⟨c, cs, hcs, hc, -⟩ := ht.1
    exact ⟨c, by simp [Term.render, hcs], ne_of_isNameStart hc⟩
  | anon => exact ⟨'_', rfl, by decide, by decide⟩
  | num n =>
    rcases ht with ⟨⟨c, cs, hcs, hc⟩, -⟩ | ⟨-, m, hm, -⟩
    · exact ⟨c, by simp [Term.render, hcs], ne_of_isDigit hc⟩
    · exact ⟨'-', by simp [Term.render, hm], by decide, by decide⟩
  | text s => exact ⟨'"', by simp [Term.render], by decide, by decide⟩

theorem termsTokens_lexesBefore {ts : List Term} (h : ∀ t ∈ ts, t.Reads true ∧ t.quotable) :
    LexesBefore (",".intercalate (ts.map Term.render)).toList (termsTokens ts) := by
  induction ts with
  | nil => intro rest ks _ hl; exact hl
  | cons t ts ih =>
    have ht := Term.lexesBefore (h t (by simp)).1 (h t (by simp)).2
    cases ts with
    | nil => simpa [termsTokens] using ht
    | cons t' ts =>
      intro rest ks hd hl
      have hrest := ih (fun u hu => h u (by simp [hu])) rest ks hd hl
      have := ht _ _ (Delimited.of_mem _ (by decide)) (@Lexes.single ',' .comma _ _ rfl rfl hrest)
      simpa [termsTokens, String.intercalate_cons_cons] using this

theorem termsOpens {ts : List Term} (hne : ts ≠ []) (h : ∀ t ∈ ts, t.Reads true) :
    Opens (",".intercalate (ts.map Term.render)).toList := by
  obtain ⟨t, ts, rfl⟩ := List.exists_cons_of_ne_nil hne
  have ht := Term.opens (h t (by simp))
  cases ts with
  | nil => simpa using ht
  | cons t' ts => simpa [String.intercalate_cons_cons] using ht.append ((",".toList ++
      (",".intercalate ((t' :: ts).map Term.render)).toList))

theorem Atom.lexesBefore {a : Atom} (hp : IsName a.predicate.toList) (hnot : a.predicate ≠ "not")
    (ht : ∀ t ∈ a.terms, t.Reads true ∧ t.quotable) : LexesBefore a.render.toList a.tokens := by
  intro rest ks hd hl
  have hclose := @Lexes.single ')' .rparen _ _ rfl rfl hl
  have hterms := termsTokens_lexesBefore ht _ _ (Delimited.of_mem _ (by decide)) hclose
  have := lexes_name hp hnot (by simp; decide) (@Lexes.single '(' .lparen _ _ rfl rfl hterms)
  simpa [Atom.render, Atom.tokens] using this

theorem Literal.lexesBefore {l : Literal} (hp : IsName l.atom.predicate.toList)
    (hnot : l.atom.predicate ≠ "not") (ht : ∀ t ∈ l.atom.terms, t.Reads true ∧ t.quotable) :
    LexesBefore l.render.toList l.tokens := by
  cases l with
  | pos a => exact Atom.lexesBefore hp hnot ht
  | neg a =>
    intro rest ks hd hl
    have := lexes_not (Atom.lexesBefore hp hnot ht rest ks hd hl)
    simpa [Literal.render, Literal.tokens, Literal.atom] using this


/-! ### Operators and expressions -/

theorem ArithOp.lexes (op : ArithOp) {rest : List Char} {ks : List (Token × String)}
    (h : Lexes rest ks) : Lexes (op.symbol.toList ++ rest) ((op.token, op.symbol) :: ks) := by
  cases op <;> exact @Lexes.single _ _ _ _ rfl rfl h

theorem ArithOp.delimited (op : ArithOp) (rest : List Char) :
    Delimited (op.symbol.toList ++ rest) := by
  cases op <;> exact Delimited.of_mem _ (by decide)

/-- A comparison operator is read whole in front of an operand. -/
theorem CompareOp.lexes (op : CompareOp) {rest : List Char} {ks : List (Token × String)}
    (hr : Opens rest) (h : Lexes rest ks) :
    Lexes (op.symbol.toList ++ rest) ((op.token, op.symbol) :: ks) := by
  obtain ⟨d, hd, h1, h2⟩ := hr
  obtain ⟨r, rfl⟩ := List.head?_eq_some_iff.mp hd
  cases op
  case ge => exact @Lexes.token '>' ['='] _ .ge _ rfl rfl h
  case le => exact @Lexes.token '<' ['='] _ .le _ rfl rfl h
  case ne => exact @Lexes.token '!' ['='] _ .ne _ rfl rfl h
  case ltgt => exact @Lexes.token '<' ['>'] _ .ltgt _ rfl rfl h
  case gt => exact @Lexes.single '>' .gt _ _ (by simp [scan, h1]) rfl h
  case lt => exact @Lexes.single '<' .lt _ _ (by simp [scan, h1, h2]) rfl h
  case eq => exact @Lexes.single '=' .eq _ _ (by simp [scan, h1]) rfl h

theorem CompareOp.delimited (op : CompareOp) (rest : List Char) :
    Delimited (op.symbol.toList ++ rest) := by
  cases op <;> exact Delimited.of_mem _ (by decide)

theorem AggregateFn.isName (fn : AggregateFn) : IsName fn.name.toList := by
  cases fn <;> exact ⟨'m', _, rfl, rfl, List.all_eq_true.mp rfl⟩

theorem AggregateFn.name_ne (fn : AggregateFn) : fn.name ≠ "not" := by
  cases fn <;> decide

/-- The contributors of an aggregate, if any, and its closing bracket. -/
theorem contributors_lexes {cs : List Term} (h : ∀ t ∈ cs, t.Reads true ∧ t.quotable)
    {rest : List Char} {ks : List (Token × String)} (hl : Lexes rest ks) :
    Lexes ((if cs.isEmpty then "" else ",<" ++ ",".intercalate (cs.map Term.render) ++ ">").toList ++
        ')' :: rest)
      ((if cs.isEmpty then [] else (.comma, ",") :: (.lt, "<") :: termsTokens cs ++ [(.gt, ">")]) ++
        (.rparen, ")") :: ks) := by
  have hclose := @Lexes.single ')' .rparen _ _ rfl rfl hl
  by_cases hcs : cs = []
  · subst hcs
    simpa using hclose
  · obtain ⟨d, hd, h1, h2⟩ := termsOpens hcs (fun t ht => (h t ht).1)
    obtain ⟨r, hdr⟩ := List.head?_eq_some_iff.mp hd
    have hgt := @Lexes.single '>' .gt _ _ rfl rfl hclose
    have hterms := termsTokens_lexesBefore h _ _ (Delimited.of_mem _ (by decide)) hgt
    rw [hdr] at hterms
    have hlt := @Lexes.single '<' .lt _ _ (by simp [scan, h1, h2]) rfl hterms
    have := @Lexes.single ',' .comma _ _ rfl rfl hlt
    rw [← hdr] at this
    simpa [hcs] using this

theorem Expr.lexesBefore {e : Expr} (he : ∀ t ∈ e.terms, t.Reads true ∧ t.quotable) :
    LexesBefore e.compact.toList e.tokens ∧ Opens e.compact.toList := by
  induction e with
  | term t =>
    have ht := he t (by simp [Expr.terms])
    simpa [Expr.tokens] using And.intro (Term.lexesBefore ht.1 ht.2) (Term.opens ht.1)
  | neg e ih =>
    obtain ⟨hlex, -⟩ := ih he
    refine ⟨fun rest ks hd hl => ?_, ⟨'-', by simp, by decide, by decide⟩⟩
    simpa [Expr.tokens] using @Lexes.single '-' .minus _ _ rfl rfl (hlex rest ks hd hl)
  | binary op l r ihl ihr =>
    obtain ⟨hl, hol⟩ := ihl (fun t ht => he t (by simp [Expr.terms, ht]))
    obtain ⟨hr, -⟩ := ihr (fun t ht => he t (by simp [Expr.terms, ht]))
    refine ⟨fun rest ks hd hk => ?_, by simpa using hol.append _⟩
    have := hl _ _ (op.delimited _) (op.lexes (hr rest ks hd hk))
    simpa [Expr.tokens] using this
  | group e ih =>
    obtain ⟨hlex, -⟩ := ih he
    refine ⟨fun rest ks hd hl => ?_, ⟨'(', by simp, by decide, by decide⟩⟩
    have hin := hlex _ _ (Delimited.of_mem _ (by decide)) (@Lexes.single ')' .rparen _ _ rfl rfl hl)
    simpa [Expr.tokens] using @Lexes.single '(' .lparen _ _ rfl rfl hin
  | aggregate fn i cs ih =>
    obtain ⟨hi, -⟩ := ih (fun t ht => he t (by simp [Expr.terms, ht]))
    have hcs : ∀ t ∈ cs, t.Reads true ∧ t.quotable := fun t ht => he t (by simp [Expr.terms, ht])
    obtain ⟨m, name, hname, hm, -⟩ := fn.isName
    refine ⟨fun rest ks hd hl => ?_, ⟨m, by simp [hname], ne_of_isNameStart hm⟩⟩
    have htail := contributors_lexes hcs hl
    have hdelim : Delimited ((if cs.isEmpty then "" else ",<" ++ ",".intercalate (cs.map Term.render) ++
        ">").toList ++ ')' :: rest) := by
      by_cases h : cs = [] <;> simp [h] <;> exact Delimited.of_mem _ (by decide)
    have := lexes_name fn.isName fn.name_ne (by simp; decide)
      (@Lexes.single '(' .lparen _ _ rfl rfl (hi _ _ hdelim htail))
    simpa [Expr.tokens] using this


/-! ### Comparisons and rules -/

theorem Condition.lexesBefore {c : Condition} (hl : ∀ t ∈ c.left.terms, t.Reads true ∧ t.quotable)
    (hr : ∀ t ∈ c.right.terms, t.Reads true ∧ t.quotable) :
    LexesBefore c.render.toList c.tokens := by
  intro rest ks hd hk
  obtain ⟨hleft, -⟩ := Expr.lexesBefore hl
  obtain ⟨hright, hopen⟩ := Expr.lexesBefore hr
  have := hleft _ _ (c.op.delimited _) (c.op.lexes (hopen.append rest) (hright rest ks hd hk))
  simpa [Condition.render, Condition.tokens] using this

/-- Items separated by `, ` lex to their tokens separated by commas. -/
theorem items_lexesBefore {items : List (String × List (Token × String))}
    (h : ∀ x ∈ items, LexesBefore x.1.toList x.2) :
    LexesBefore (", ".intercalate (items.map Prod.fst)).toList
      ([(.comma, ",")].intercalate (items.map Prod.snd)) := by
  induction items with
  | nil => intro rest ks _ hl; exact hl
  | cons x items ih =>
    have hx := h x (by simp)
    cases items with
    | nil => simpa using hx
    | cons y items =>
      intro rest ks hd hl
      have hrest := ih (fun z hz => h z (by simp [hz])) rest ks hd hl
      have := hx _ _ (Delimited.of_mem _ (by decide))
        (@Lexes.single ',' .comma _ _ rfl rfl (@Lexes.blank ' ' _ _ rfl hrest))
      simpa [String.intercalate_cons_cons, List.intercalate_cons_cons] using this

/-- A rule's text lexes to its tokens: the head, then `:-` and the items, then the point. -/
theorem lexes_renderWith {head : Atom} (hh : LexesBefore head.render.toList head.tokens)
    {items : List (String × List (Token × String))} (h : ∀ x ∈ items, LexesBefore x.1.toList x.2) :
    Lexes (Rule.renderWith head (items.map Prod.fst)).toList (tokensWith head (items.map Prod.snd)) := by
  have hdot : Lexes ['.'] [(.dot, ".")] := @Lexes.single '.' .dot _ _ rfl rfl Lexes.nil
  by_cases hi : items = []
  · subst hi
    simpa [Rule.renderWith, tokensWith] using hh ['.'] _ (Or.inr ⟨rfl, rfl⟩) hdot
  · have hitems := items_lexesBefore h ['.'] _ (Or.inr ⟨rfl, rfl⟩) hdot
    have himplies := @Lexes.token ':' ['-'] _ .implies _ rfl rfl (@Lexes.blank ' ' _ _ rfl hitems)
    have := hh _ _ (Delimited.of_mem _ (by decide)) (@Lexes.blank ' ' _ _ rfl himplies)
    simpa [Rule.renderWith, tokensWith, hi] using this

end ChaseProse.Rule
