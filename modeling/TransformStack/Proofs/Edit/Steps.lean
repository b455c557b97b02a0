import TransformStack.Proofs.Edit.Reverting

/-!
# Laws of steps

Steps of a transaction run one after the other until one fails. What each step keeps, a run keeps,
failed or not; and steps that go through in spite of a layer's refusals go through in the same way
without them. Both are shown for each of the writes and carried over to the steps made of them.
-/

namespace TransformStack

namespace Steps

variable {α β : Type} {tx tx' : Transaction}

/-! ## When steps succeed -/

/-- What steps come to on a transaction, and the transaction they leave. -/
def on (steps : Steps α) (tx : Transaction) : Except EditError α × Transaction := steps tx

/-- Steps that throw an error fail with it and write nothing. -/
@[simp] theorem throw_on (e : EditError) (tx : Transaction) :
    (throw e : Steps α).on tx = (.error e, tx) := rfl

/-- Steps run on the transaction that the steps before them leave. -/
theorem bind_on (steps : Steps α) (next : α → Steps β) (tx : Transaction) :
    (steps >>= next).on tx =
      match steps.on tx with
      | (.ok a, tx) => (next a).on tx
      | (.error e, tx) => (.error e, tx) := by
  simp only [on, bind, ExceptT.bind, ExceptT.mk, StateT.bind]
  rcases steps tx with ⟨e | a, mid⟩ <;> rfl

/-- Two runs of steps succeed if the first does and the second does on what it leaves. -/
theorem bind_eq_ok_iff {steps : Steps α} {next : α → Steps β} {b : β} :
    (steps >>= next).on tx = (.ok b, tx') ↔
      ∃ a mid, steps.on tx = (.ok a, mid) ∧ (next a).on mid = (.ok b, tx') := by
  rw [bind_on]
  rcases steps.on tx with ⟨e | a, mid⟩
  · simp
  · exact ⟨fun h => ⟨a, mid, rfl, h⟩, fun ⟨_, _, hsteps, h⟩ => by cases hsteps; exact h⟩

/-- Two runs of steps fail if the first does, or if the second does on what it leaves. -/
theorem bind_eq_error_iff {steps : Steps α} {next : α → Steps β} {e : EditError} :
    (steps >>= next).on tx = (.error e, tx') ↔
      steps.on tx = (.error e, tx') ∨
        ∃ a mid, steps.on tx = (.ok a, mid) ∧ (next a).on mid = (.error e, tx') := by
  rw [bind_on]
  rcases steps.on tx with ⟨e' | a, mid⟩
  · simp
  · constructor
    · intro h
      exact .inr ⟨a, mid, rfl, h⟩
    · rintro (h | ⟨_, _, hsteps, h⟩)
      · cases h
      · cases hsteps
        exact h

/-- A question is answered by the store of the transaction, which stays. -/
theorem ask_eq_ok_iff {question : Store → Except StoreError α} {a : α} :
    (ask question).on tx = (.ok a, tx') ↔ question tx.store = .ok a ∧ tx = tx' := by
  rw [on, ask, Prod.mk.injEq]
  exact and_congr_left fun _ => mapError_eq_ok_iff

/-- A write that is required to be taken. -/
theorem tell_require_eq_ok_iff {write : Transaction → Except StoreError Bool × Transaction}
    {cause : StructuralCause} {u : Unit} :
    (tell write >>= require cause).on tx = (.ok u, tx') ↔ write tx = (.ok true, tx') := by
  rw [bind_eq_ok_iff]
  constructor
  · rintro ⟨taken, mid, htell, hrequire⟩
    obtain ⟨hanswer, rfl⟩ := Prod.mk.inj htell
    cases taken with
    | false => simp [require] at hrequire
    | true =>
      obtain ⟨-, rfl⟩ := Prod.mk.inj hrequire
      exact Prod.ext (mapError_eq_ok_iff.1 hanswer) rfl
  · intro hwrite
    refine ⟨true, tx', Prod.ext (mapError_eq_ok_iff.2 ?_) ?_, rfl⟩
    · rw [hwrite]
    · rw [on, tell, hwrite]

/-- A write that is required to be taken fails only where it was not taken. -/
theorem tell_require_eq_error {write : Transaction → Except StoreError Bool × Transaction}
    {cause : StructuralCause} {e : EditError}
    (h : (tell write >>= require cause).on tx = (.error e, tx')) :
    (∀ mid, write tx ≠ (.ok true, mid)) ∧ tx' = (write tx).2 := by
  refine ⟨fun mid hwrite => ?_, ?_⟩
  · have hok : (tell write >>= require cause).on tx = (.ok (), mid) :=
      tell_require_eq_ok_iff.2 hwrite
    rw [hok] at h
    cases h
  · rcases bind_eq_error_iff.1 h with htell | ⟨taken, mid, htell, hrequire⟩
    · exact (Prod.mk.inj htell).2.symm
    · obtain ⟨-, rfl⟩ := Prod.mk.inj htell
      cases taken <;> exact (Prod.mk.inj hrequire).2.symm

/-- Whether a required write was taken or not, the write is all there is. -/
theorem tell_require_on_snd {write : Transaction → Except StoreError Bool × Transaction}
    {cause : StructuralCause} : ((tell write >>= require cause).on tx).2 = (write tx).2 := by
  rcases hrun : (tell write >>= require cause).on tx with ⟨e | u, tx'⟩
  · exact (tell_require_eq_error hrun).2
  · rw [tell_require_eq_ok_iff.1 hrun]

/-! ## What steps keep -/

/-- Steps keep a property of transactions if it stays true whether or not they fail. -/
def Keeps (P : Transaction → Prop) (steps : Steps α) : Prop :=
  ∀ tx, P tx → P (steps.on tx).2

namespace Keeps

variable {P : Transaction → Prop}

/-- Steps that do nothing keep everything. -/
theorem pure (a : α) : Keeps P (Pure.pure a) := fun _ h => h

/-- Steps that fail at once keep everything. -/
theorem throw (e : EditError) : Keeps P (MonadExcept.throw e : Steps α) := fun _ h => h

/-- What two runs of steps keep they keep one after the other. -/
theorem bind {steps : Steps α} {next : α → Steps β} (hsteps : Keeps P steps)
    (hnext : ∀ a, Keeps P (next a)) : Keeps P (steps >>= next) := by
  intro tx h
  have hmid := hsteps tx h
  rw [bind_on]
  rcases hrun : steps.on tx with ⟨e | a, mid⟩ <;> rw [hrun] at hmid
  · exact hmid
  · exact hnext a mid hmid

/-- A question keeps everything. -/
theorem ask (question : Store → Except StoreError α) : Keeps P (Steps.ask question) :=
  fun _ h => h

/-- What follows on an answer may rely on it. -/
theorem ask_bind {question : Store → Except StoreError α} {next : α → Steps β}
    (hnext : ∀ tx a, P tx → question tx.store = .ok a → P ((next a).on tx).2) :
    Keeps P (Steps.ask question >>= next) := by
  intro tx htx
  rw [bind_on]
  rcases hask : (Steps.ask question).on tx with ⟨e | a, mid⟩
  · obtain ⟨-, rfl⟩ := Prod.mk.inj hask
    exact htx
  · obtain ⟨hanswer, rfl⟩ := ask_eq_ok_iff.1 hask
    exact hnext tx a htx hanswer

/-- Requiring an answer keeps everything. -/
theorem require (cause : StructuralCause) (taken : Bool) : Keeps P (Steps.require cause taken) := by
  cases taken with
  | false => exact throw _
  | true => exact pure ()

/-- What a write keeps is kept by the step that makes it. -/
theorem tell {write : Transaction → Except StoreError Bool × Transaction}
    (hwrite : ∀ tx, P tx → P (write tx).2) : Keeps P (Steps.tell write) := hwrite

end Keeps

end Steps

end TransformStack
