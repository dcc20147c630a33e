import Mathlib.Data.List.Forall2

/-! # Traversals that can fail

When a traversal or a fold over a list succeeds, what it gives then, and which element it fails at.
Errors may be renamed on the way out.
-/

namespace B100

variable {α β ε δ : Type}

theorem mapError_eq_ok_iff {x : Except ε α} {f : ε → δ} {a : α} :
    x.mapError f = .ok a ↔ x = .ok a := by
  cases x <;> simp [Except.mapError]

theorem mapError_eq_error_iff {x : Except ε α} {f : ε → δ} {d : δ} :
    x.mapError f = .error d ↔ ∃ e, x = .error e ∧ f e = d := by
  cases x <;> simp [Except.mapError]

theorem mapM_eq_ok_iff {f : α → Except ε β} {l : List α} {r : List β} :
    l.mapM f = .ok r ↔ List.Forall₂ (fun a b => f a = .ok b) l r := by
  induction l generalizing r with
  | nil => cases r <;> simp [pure, Except.pure]
  | cons a l ih =>
    rw [List.mapM_cons, List.forall₂_cons_left_iff]
    simp only [← ih]
    cases f a with
    | error e => exact ⟨nofun, fun ⟨_, _, h, _⟩ => nomatch h⟩
    | ok b =>
      cases l.mapM f with
      | error e => exact ⟨nofun, fun ⟨_, _, _, h, _⟩ => nomatch h⟩
      | ok bs =>
        constructor
        · intro h
          exact ⟨b, bs, rfl, rfl, (Except.ok.inj h).symm⟩
        · rintro ⟨b, bs, ⟨⟩, ⟨⟩, rfl⟩
          rfl

/-- The first element that fails decides how a traversal fails. -/
theorem mapM_eq_error_iff {f : α → Except ε β} {l : List α} {e : ε} :
    l.mapM f = .error e ↔ ∃ before a after, l = before ++ a :: after ∧
      (∀ x ∈ before, ∃ b, f x = .ok b) ∧ f a = .error e := by
  induction l with
  | nil => simp [pure, Except.pure]
  | cons a l ih =>
    rw [List.mapM_cons]
    cases ha : f a with
    | error e' =>
      constructor
      · rintro ⟨⟩
        exact ⟨[], a, l, rfl, nofun, ha⟩
      · rintro ⟨_ | ⟨x, before⟩, c, after, hl, hbefore, hc⟩
        · obtain ⟨rfl, -⟩ := List.cons.inj hl
          obtain rfl := Except.error.inj (ha.symm.trans hc)
          rfl
        · obtain ⟨rfl, -⟩ := List.cons.inj hl
          obtain ⟨b, hb⟩ := hbefore a List.mem_cons_self
          cases ha.symm.trans hb
    | ok b =>
      have hrest : (Except.ok b >>= fun b => l.mapM f >>= fun bs => pure (b :: bs)) = .error e ↔
          l.mapM f = .error e := by
        cases l.mapM f <;> simp [bind, Except.bind, pure, Except.pure]
      rw [hrest, ih]
      constructor
      · rintro ⟨before, c, after, rfl, hbefore, hc⟩
        exact ⟨a :: before, c, after, rfl, List.forall_mem_cons.mpr ⟨⟨b, ha⟩, hbefore⟩, hc⟩
      · rintro ⟨_ | ⟨x, before⟩, c, after, hl, hbefore, hc⟩
        · obtain ⟨rfl, -⟩ := List.cons.inj hl
          cases ha.symm.trans hc
        · obtain ⟨rfl, rfl⟩ := List.cons.inj hl
          exact ⟨before, c, after, rfl, (List.forall_mem_cons.mp hbefore).2, hc⟩

/-- A fold of steps that each succeed on good elements only is good on all of them. -/
theorem foldlM_eq_ok_iff {f : β → α → Except ε β} {g : β → α → β} {P : α → Prop}
    (hf : ∀ b a b', f b a = .ok b' ↔ P a ∧ b' = g b a) {l : List α} {b b' : β} :
    l.foldlM f b = .ok b' ↔ (∀ a ∈ l, P a) ∧ b' = l.foldl g b := by
  induction l generalizing b with
  | nil => simp [pure, Except.pure, eq_comm]
  | cons a l ih =>
    rw [List.foldlM_cons, List.forall_mem_cons, List.foldl_cons]
    cases h : f b a with
    | error e =>
      have hP : ¬ P a := fun hP => by cases h.symm.trans ((hf b a (g b a)).mpr ⟨hP, rfl⟩)
      simp [bind, Except.bind, hP]
    | ok c =>
      obtain ⟨hP, rfl⟩ := (hf b a c).mp h
      simp only [bind, Except.bind, ih, hP, true_and]

theorem foldlM_keeps {f : β → α → Except ε β} {P : β → Prop} {l : List α}
    (hf : ∀ a ∈ l, ∀ b b', P b → f b a = .ok b' → P b') {b b' : β} (hb : P b)
    (h : l.foldlM f b = .ok b') : P b' := by
  induction l generalizing b with
  | nil =>
    obtain rfl : b = b' := Except.ok.inj h
    exact hb
  | cons a l ih =>
    rw [List.foldlM_cons] at h
    cases hc : f b a with
    | error e =>
      rw [hc] at h
      cases h
    | ok c =>
      rw [hc] at h
      exact ih (fun a ha => hf a (List.mem_cons_of_mem _ ha)) (hf a List.mem_cons_self b c hb hc) h

end B100
