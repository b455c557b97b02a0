import TransformStack.Proofs.Edit.Joining
import TransformStack.Proofs.Edit.Passing
import TransformStack.Proofs.Edit.Resuming
import TransformStack.Proofs.Store.Closing

/-!
# Sessions on a closed store

On a store that is closed to writing no write of a transaction is made, nothing is noted for it, and
no edit is reverted. So whatever is tried leaves the layer as it was, but for the ops that it counts
towards one it is to refuse.
-/

namespace TransformStack

/-! ## Sessions -/

namespace Session

/-- Nothing is written from one session to the other, and a layer that refuses nothing goes on
refusing nothing. -/
structure Stalls (s s' : Session) : Prop where
  store : s'.store = s.store
  refusals : s.layer.refusals = {} → s'.layer.refusals = {}

variable {s s' s'' : Session}

theorem Stalls.refl (s : Session) : s.Stalls s := ⟨rfl, id⟩

theorem Stalls.trans (h : s.Stalls s') (h' : s'.Stalls s'') : s.Stalls s'' :=
  ⟨h'.store.trans h.store, fun hfree => h'.refusals (h.refusals hfree)⟩

/-- Holding notices back while nothing is written writes nothing. -/
theorem Stalls.guarded (h : (s.signal .hold).Stalls s') : s.Stalls (s'.signal .release) :=
  ⟨h.store, h.refusals⟩

/-- A closed store stays closed where nothing is written. -/
theorem Stalls.closed (h : s.Stalls s') (hclosed : s.store.readOnly = true) :
    s'.store.readOnly = true := by
  rw [h.store, hclosed]

/-- A layer that refuses nothing has nothing to count, and stays the same. -/
theorem Stalls.layer_eq (h : s.Stalls s') (hfree : s.layer.refusals = {}) :
    s'.layer = s.layer := by
  have hstore : s'.layer.store = s.layer.store := h.store
  have hrefusals : s'.layer.refusals = s.layer.refusals := (h.refusals hfree).trans hfree.symm
  calc s'.layer = ⟨s'.layer.store, s'.layer.refusals⟩ := rfl
    _ = ⟨s.layer.store, s.layer.refusals⟩ := by rw [hstore, hrefusals]
    _ = s.layer := rfl

end Session

/-! ## Reverting -/

/-- A closed store refuses to take back any edit. -/
theorem Edit.revert_of_closed {s : Store} (hclosed : s.readOnly = true) (edit : Edit) :
    edit.revert s = .ok none := by
  cases edit with
  | created id name => rw [Edit.revert, Store.removeAttribute_of_closed hclosed]
  | changed id name time previous =>
    cases previous with
    | some value =>
      rw [Edit.revert, Store.setValue, if_pos hclosed]
      rfl
    | none =>
      rw [Edit.revert, Store.clearValue, if_pos hclosed]
      rfl

/-- The first edit of a journal is refused, and the journal stays as it is. -/
theorem Journal.revert_of_closed {s : Session} (hclosed : s.store.readOnly = true) (edit : Edit)
    (older : Journal) : Journal.revert (edit :: older) s =
      ((.error (.structural (.revertRefused edit.name edit.entity)), edit :: older), s) :=
  Journal.revert_of_fails (.refused (Edit.revert_of_closed hclosed edit)) older

/-- Reverting a journal on a closed store leaves the session. -/
theorem Journal.revert_stalls {s : Session} (hclosed : s.store.readOnly = true)
    (journal : Journal) : (journal.revert s).2 = s := by
  cases journal with
  | nil => rfl
  | cons edit older => rw [Journal.revert_of_closed hclosed]

/-! ## Transactions -/

namespace Layer

variable {layer after : Layer} {id : EntityId}

/-- A layer adds no op to a closed store. -/
theorem addOp_ne_of_closed (hclosed : layer.store.readOnly = true) (id : EntityId) (op : Op) :
    (layer.addOp id op).1 ≠ .ok true := by
  simp only [Layer.addOp]
  split
  · simp
  · split
    · next hadd => exact absurd hadd (Store.addOp_ne_of_closed hclosed)
    · simp
    · simp

/-- Asked to add an op, a layer leaves a closed store. -/
theorem store_addOp_of_closed (hclosed : layer.store.readOnly = true) (id : EntityId) (op : Op) :
    (layer.addOp id op).2.store = layer.store := by
  have hrefused := addOp_ne_of_closed hclosed id op
  rcases hadd : layer.addOp id op with ⟨answer, after⟩
  rw [hadd] at hrefused
  obtain ⟨refusals, -, rfl⟩ := exists_refusals_of_addOp hadd hrefused
  rfl

/-- A layer sets no order in a closed store. -/
theorem setOrder_ne_of_closed (hclosed : layer.store.readOnly = true) {order : OpOrder} :
    layer.setOrder id order ≠ .ok (some after) := by
  intro h
  unfold Layer.setOrder at h
  split at h
  · cases h
  · exact Store.setOrder_ne_of_closed hclosed (store_of_onStore h)

end Layer

namespace Transaction

variable {tx : Transaction}

/-- No write is made on a closed store, and none is noted. -/
theorem make_of_closed (hclosed : tx.store.readOnly = true) (write : Write) :
    (tx.make write).1 ≠ .ok true ∧ tx.toSession.Stalls (tx.make write).2.toSession ∧
      (tx.make write).2.journal = tx.journal := by
  cases write with
  | addOp id op =>
    rw [make, addOp_eq]
    split
    · exact ⟨by simp, .refl _, rfl⟩
    · split
      · next hadd =>
        have htaken : (tx.layer.addOp id op).1 = .ok true := by rw [hadd]
        exact absurd htaken (Layer.addOp_ne_of_closed hclosed id op)
      · next answer layer hanswer hadd =>
        obtain ⟨refusals, hfree, rfl⟩ :=
          Layer.exists_refusals_of_addOp hadd fun htrue => hanswer htrue
        exact ⟨fun htrue => hanswer htrue, ⟨rfl, hfree⟩, rfl⟩
  | setOrder id order =>
    rw [make, Transaction.setOrder]
    split
    · exact ⟨by simp, .refl _, rfl⟩
    · split
      · next hset => exact absurd hset (Layer.setOrder_ne_of_closed hclosed)
      · exact ⟨by simp, .refl _, rfl⟩
      · exact ⟨by simp, .refl _, rfl⟩
  | setValue id name value time =>
    rw [make, Transaction.setValue]
    split
    · exact ⟨by simp, .refl _, rfl⟩
    · split
      · next hset =>
        exact absurd (Layer.store_of_onStore hset) (Store.setValue_ne_of_closed hclosed)
      · exact ⟨by simp, .refl _, rfl⟩
      · exact ⟨by simp, .refl _, rfl⟩

/-- Nothing can be rolled back on a closed store. -/
theorem store_rollback_of_closed (hclosed : tx.store.readOnly = true) :
    tx.rollback.store = tx.store := by
  have hnoted : (tx.note (.rollingBack tx.journal.length)).store.readOnly = true := hclosed
  have hstays := Journal.revert_stalls hnoted tx.journal
  unfold rollback
  split
  · rfl
  · split
    · next hrevert =>
      rw [hrevert] at hstays
      obtain rfl := hstays
      rfl
    · next hrevert =>
      rw [hrevert] at hstays
      obtain rfl := hstays
      rfl

/-- Since a session nothing has been written, and nothing is noted to take back. -/
def Stalled (s : Session) (tx : Transaction) : Prop := s.Stalls tx.toSession ∧ tx.journal = []

/-- A transaction starts without a write. -/
theorem Stalled.start (s : Session) : (start s).Stalled s := ⟨.refl s, rfl⟩

/-- No write is made on a closed store, and none is noted. -/
theorem Stalled.make {s : Session} (hclosed : s.store.readOnly = true) (h : tx.Stalled s)
    (write : Write) : (tx.make write).2.Stalled s := by
  obtain ⟨-, hstalls, hjournal⟩ := make_of_closed (h.1.closed hclosed) write
  exact ⟨h.1.trans hstalls, hjournal.trans h.2⟩

/-- A transaction that has noted nothing takes nothing back. -/
theorem Stalled.rollback {s : Session} (h : tx.Stalled s) : s.Stalls tx.rollback := by
  rw [Transaction.rollback, h.2]
  exact h.1

end Transaction

end TransformStack
