/-! Facts about lists, numerals and `Except` computations that the proofs share. -/
namespace ChaseProse

/-- Appending each element not yet present to a list without repeats removes the repeats of
the whole, first occurrences kept. -/
theorem foldl_appendNew {α : Type} [BEq α] [LawfulBEq α] (l more : List α) :
    more.foldl (fun acc e => if acc.contains e then acc else acc ++ [e]) l.eraseDups =
      (l ++ more).eraseDups := by
  induction more generalizing l with
  | nil => simp
  | cons e more ih =>
    rw [List.foldl_cons]
    by_cases he : e ∈ l
    · have hc : l.eraseDups.contains e = true := by simpa using he
      rw [if_pos hc, ih, List.eraseDups_append, List.eraseDups_append]
      simp [List.removeAll, he]
    · have hdup : l.eraseDups ++ [e] = (l ++ [e]).eraseDups := by
        simp [List.eraseDups_append, List.removeAll, he, List.eraseDups_cons]
      rw [if_neg (by simpa using he), hdup, ih]
      simp

/-- Decimal numerals name numbers: distinct numbers print differently. -/
theorem toString_injective {m n : Nat} (h : toString m = toString n) : m = n := by
  have hd : Nat.toDigits 10 m = Nat.toDigits 10 n := by
    simpa [Nat.toString_eq_ofList_toDigits] using congrArg String.toList h
  rw [← @Nat.ofDigitChars_ten_toDigits m, ← @Nat.ofDigitChars_ten_toDigits n, hd]

theorem bind_eq_ok {ε α β : Type} {x : Except ε α} {f : α → Except ε β} {b : β} :
    x >>= f = .ok b ↔ ∃ a, x = .ok a ∧ f a = .ok b := by
  cases x <;> simp [bind, Except.bind]

@[simp] theorem ok_bind {ε α β : Type} (a : α) (f : α → Except ε β) :
    (Except.ok a : Except ε α) >>= f = f a := rfl

@[simp] theorem error_bind {ε α β : Type} (e : ε) (f : α → Except ε β) :
    (Except.error e : Except ε α) >>= f = .error e := rfl

@[simp] theorem pure_eq_ok {ε α : Type} (a : α) : (pure a : Except ε α) = .ok a := rfl

theorem toOption_eq_some_iff {ε α : Type} {e : Except ε α} {a : α} :
    e.toOption = some a ↔ e = .ok a := by
  cases e <;> simp [Except.toOption]

theorem toOption_eq_none_iff {ε α : Type} {e : Except ε α} :
    e.toOption = none ↔ ∃ err, e = .error err := by
  cases e <;> simp [Except.toOption]

/-- A fold through `Except` whose step fails on the bad elements and otherwise does `h` fails
exactly when an element is bad. -/
theorem foldlM_toOption {ε β α : Type} {f : β → α → Except ε β} (bad : α → Bool)
    (h : β → α → β) (xs : List α) (init : β)
    (hf : ∀ x ∈ xs, ∀ b, (f b x).toOption = if bad x then none else some (h b x)) :
    (xs.foldlM f init).toOption = if xs.any bad then none else some (xs.foldl h init) := by
  induction xs generalizing init with
  | nil => rfl
  | cons x xs ih =>
    have hx := hf x (by simp) init
    rw [List.foldlM_cons]
    cases hfx : f init x with
    | error e =>
      have hb : bad x = true := by
        cases hbx : bad x <;> simp_all [Except.toOption]
      simp [hb, bind, Except.bind, Except.toOption]
    | ok b =>
      have hb : bad x = false ∧ h init x = b := by
        cases hbx : bad x <;> simp_all [Except.toOption]
      simp only [bind, Except.bind]
      rw [ih b (fun y hy => hf y (by simp [hy]))]
      simp [hb.1, hb.2]

/-- A lookup that gives every element of a list back gives the whole list back. -/
theorem mapM_eq_some_self {α : Type} {f : α → Option α} {l : List α}
    (h : ∀ x ∈ l, f x = some x) : l.mapM f = some l := by
  induction l with
  | nil => rfl
  | cons x l ih => simp [h x (by simp), ih (fun y hy => h y (by simp [hy]))]

/-- Each result of a successful `mapM` is the lookup of an element. -/
theorem exists_of_mem_mapM {α β : Type} {f : α → Option β} {l : List α} {ys : List β}
    (h : l.mapM f = some ys) {y : β} (hy : y ∈ ys) : ∃ x ∈ l, f x = some y := by
  induction l generalizing ys with
  | nil =>
    simp only [List.mapM_nil, Option.pure_def, Option.some.injEq] at h
    subst h
    simp at hy
  | cons x l ih =>
    rw [List.mapM_cons] at h
    simp only [Option.bind_eq_bind, Option.bind_eq_some_iff, Option.pure_def,
      Option.some.injEq] at h
    obtain ⟨z, hz, zs, hzs, rfl⟩ := h
    rcases List.mem_cons.mp hy with rfl | hy
    · exact ⟨x, by simp, hz⟩
    · obtain ⟨w, hw, hfw⟩ := ih hzs hy
      exact ⟨w, by simp [hw], hfw⟩

end ChaseProse
