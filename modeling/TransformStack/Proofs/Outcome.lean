/-!
# Outcomes

When a computation that can fail comes to a value, each of its steps did.
-/

namespace TransformStack

variable {ε α β : Type}

/-- A chain succeeds exactly if both its steps do. -/
theorem bind_eq_ok_iff {x : Except ε α} {f : α → Except ε β} {b : β} :
    x >>= f = .ok b ↔ ∃ a, x = .ok a ∧ f a = .ok b := by
  cases x <;> simp [bind, Except.bind]

theorem map_eq_ok_iff {x : Except ε α} {f : α → β} {b : β} :
    f <$> x = .ok b ↔ ∃ a, x = .ok a ∧ f a = b := by
  cases x <;> simp [Functor.map, Except.map]

theorem pure_eq_ok_iff {a b : α} : (pure a : Except ε α) = .ok b ↔ a = b := by
  simp [pure, Except.pure]

theorem throw_ne_ok {e : ε} {a : α} : (throw e : Except ε α) ≠ .ok a := by
  simp [throw, throwThe, MonadExceptOf.throw]

/-- Giving failures another form does not touch values. -/
theorem mapError_eq_ok_iff {ε' : Type} {f : ε → ε'} {x : Except ε α} {a : α} :
    x.mapError f = .ok a ↔ x = .ok a := by
  cases x with
  | error e => exact iff_of_false (fun h => nomatch h) fun h => nomatch h
  | ok b => exact ⟨fun h => congrArg Except.ok (Except.ok.inj h),
      fun h => congrArg Except.ok (Except.ok.inj h)⟩

/-! ## Failures -/

/-- A chain fails with what its first step fails with, or with what the second does after it. -/
theorem bind_eq_error_iff {x : Except ε α} {f : α → Except ε β} {e : ε} :
    x >>= f = .error e ↔ x = .error e ∨ ∃ a, x = .ok a ∧ f a = .error e := by
  cases x <;> simp [bind, Except.bind]

theorem pure_ne_error {a : α} {e : ε} : (pure a : Except ε α) ≠ .error e := by
  simp [pure, Except.pure]

/-- Answers are gathered up to the first that fails. -/
theorem mapM_eq_error_iff {f : α → Except ε β} {l : List α} {e : ε} :
    l.mapM f = .error e ↔ ∃ before a after, l = before ++ a :: after ∧
      (∀ a' ∈ before, ∃ b, f a' = .ok b) ∧ f a = .error e := by
  induction l with
  | nil => simp [pure_ne_error]
  | cons a l ih =>
    rw [List.mapM_cons, bind_eq_error_iff]
    constructor
    · rintro (hfirst | ⟨b, hfirst, hrest⟩)
      · exact ⟨[], a, l, rfl, by simp, hfirst⟩
      · rcases bind_eq_error_iff.1 hrest with hrest | ⟨bs, -, hpure⟩
        · obtain ⟨before, stop, after, rfl, hbefore, hstop⟩ := ih.1 hrest
          exact ⟨a :: before, stop, after, rfl, List.forall_mem_cons.2 ⟨⟨b, hfirst⟩, hbefore⟩,
            hstop⟩
        · exact absurd hpure pure_ne_error
    · rintro ⟨before, stop, after, hsplit, hbefore, hstop⟩
      cases before with
      | nil =>
        obtain ⟨rfl, rfl⟩ := List.cons.inj hsplit
        exact .inl hstop
      | cons a' before =>
        obtain ⟨rfl, rfl⟩ := List.cons.inj hsplit
        obtain ⟨⟨b, hfirst⟩, hbefore⟩ := List.forall_mem_cons.1 hbefore
        exact .inr ⟨b, hfirst, bind_eq_error_iff.2 (.inl (ih.2 ⟨before, stop, after, rfl, hbefore,
          hstop⟩))⟩

end TransformStack
