import TransformStack.Proofs.Edit.Transaction

/-!
# Sessions and their writes

Between two sessions a layer takes writes, each of which leaves a signal. Nothing else changes the
store, so the layers that the writes led to say all that happened to it, whether the writes were
kept, rolled back or undone. Transactions and the reverting of journals are sessions of that kind,
and stay on one entity if what they take back was written there.
-/

namespace TransformStack

/-- A layer takes a write to an entity, and becomes another layer. -/
inductive Layer.Takes (id : EntityId) (layer : Layer) : Layer → Prop where
  | addOp {after : Layer} (op : Op) (h : layer.addOp id op = (.ok true, after)) :
      Takes id layer after
  | setOrder {after : Layer} (order : OpOrder) (h : layer.setOrder id order = .ok (some after)) :
      Takes id layer after
  | setValue {after : Layer} (name : String) (value : Value) (time : TimeCode)
      (h : layer.onStore (layer.store.setValue id name value time) = .ok (some after)) :
      Takes id layer after
  | revert {after : Layer} (edit : Edit) (hentity : edit.entity = id)
      (h : layer.onStore (edit.revert layer.store) = .ok (some after)) : Takes id layer after

namespace Layer

/-- A layer that takes a write of the store holds what the store became. -/
theorem store_of_onStore {layer after : Layer} {write : Except StoreError (Option Store)}
    (h : layer.onStore write = .ok (some after)) : write = .ok (some after.store) := by
  obtain ⟨store, hwrite, hlayer⟩ := map_eq_ok_iff.1 h
  obtain ⟨_, rfl, rfl⟩ := Option.map_eq_some_iff.1 hlayer
  exact hwrite

/-- A layer that refuses nothing has nothing to count. -/
theorem countAdd_of_free {refusals : Refusals} (h : refusals = {}) :
    (countAdd refusals).1 = {} := by
  rw [h]
  rfl

namespace Takes

variable {id : EntityId} {layer after : Layer}

/-- A layer that refuses nothing refuses nothing after a write. -/
theorem refusals_eq (h : layer.Takes id after) (hfree : layer.refusals = {}) :
    after.refusals = {} := by
  have honStore {write : Except StoreError (Option Store)}
      (h : layer.onStore write = .ok (some after)) : after.refusals = {} := by
    obtain ⟨store, -, hlayer⟩ := map_eq_ok_iff.1 h
    obtain ⟨_, -, rfl⟩ := Option.map_eq_some_iff.1 hlayer
    exact hfree
  cases h with
  | addOp op h =>
    simp only [Layer.addOp] at h
    split at h
    · cases h
    · split at h <;> cases h
      exact countAdd_of_free hfree
  | setOrder order h =>
    unfold Layer.setOrder at h
    split at h
    · cases h
    · exact honStore h
  | setValue name value time h => exact honStore h
  | revert edit hentity h => exact honStore h

/-- What no change to an attribute of the entity touches is kept. -/
theorem keeps_of_alter {Q : Store → Prop} (h : layer.Takes id after) (hQ : Q layer.store)
    (halter : ∀ s name change, Q s → Q (s.alter id name change)) : Q after.store := by
  cases h with
  | addOp op h =>
    simp only [Layer.addOp] at h
    split at h
    · cases h
    · split at h <;> cases h
      next store hadd =>
      obtain ⟨-, -, -, tokens, -, -, -, rfl⟩ := Store.addOp_eq_ok_iff.1 hadd
      exact halter _ _ _ (halter _ _ _ hQ)
  | setOrder order h =>
    unfold Layer.setOrder at h
    split at h
    · cases h
    · obtain ⟨-, -, -, hstore⟩ := Store.setOrder_eq_ok_iff.1 (store_of_onStore h)
      rw [hstore]
      exact halter _ _ _ hQ
  | setValue name value time h =>
    obtain ⟨-, -, -, -, -, -, -, hstore⟩ := Store.setValue_eq_ok_iff.1 (store_of_onStore h)
    rw [hstore]
    exact halter _ _ _ hQ
  | revert edit hentity h =>
    subst hentity
    obtain ⟨change, hstore⟩ := edit.exists_alter_of_revert (store_of_onStore h)
    rw [hstore]
    exact halter _ _ _ hQ

end Takes

end Layer

namespace Session

/-- From one session to another an entity is written to, and the layers are what the writes led to,
one after the other. Besides, notices may be held back for a while, entries may be logged, and the
layer may count what it refuses, if it refuses anything. -/
inductive Passes (id : EntityId) : Session → List Layer → Session → Prop where
  | done (s : Session) : Passes id s [] s
  | wrote {s mid : Session} {trail : List Layer} {layer : Layer} (h : Passes id s trail mid)
      (hwrite : mid.layer.Takes id layer) : Passes id s (trail ++ [layer]) (mid.wrote id layer)
  | counted {s mid : Session} {trail : List Layer} (h : Passes id s trail mid)
      (refusals : Refusals) (hfree : mid.layer.refusals = {} → refusals = {}) :
      Passes id s trail { mid with layer := { mid.layer with refusals } }
  | noted {s mid : Session} {trail : List Layer} (h : Passes id s trail mid) (entry : LogEntry) :
      Passes id s trail (mid.note entry)
  | guarded {s mid last : Session} {trail inner : List Layer} (h : Passes id s trail mid)
      (hinner : Passes id (mid.signal .hold) inner last) :
      Passes id s (trail ++ inner) (last.signal .release)

namespace Passes

variable {id : EntityId} {s mid last : Session} {trail trail' : List Layer}

/-- What is written in two passes is written in one after the other. -/
theorem trans (h : Passes id s trail mid) (h' : Passes id mid trail' last) :
    Passes id s (trail ++ trail') last := by
  induction h' with
  | done mid => simpa using h
  | wrote _ hwrite ih =>
    rw [← List.append_assoc]
    exact (ih h).wrote hwrite
  | counted _ refusals hfree ih => exact (ih h).counted refusals hfree
  | noted _ entry ih => exact (ih h).noted entry
  | guarded _ hinner ih _ =>
    rw [← List.append_assoc]
    exact (ih h).guarded hinner

/-- The store is the one that the last write led to: no write goes unlisted. -/
theorem store_eq (h : Passes id s trail last) :
    last.store = (trail.getLast?.map (·.store)).getD s.store := by
  induction h with
  | done s => rfl
  | wrote _ _ ih => simp [Session.store, Session.wrote, Session.signal]
  | counted _ refusals _ ih => exact ih
  | noted _ entry ih => exact ih
  | @guarded s mid last trail inner _ _ ih ihinner =>
    have hlast : (last.signal .release).store = last.store := rfl
    have hmid : (mid.signal .hold).store = mid.store := rfl
    rw [hlast, ihinner, hmid, ih, List.getLast?_append]
    cases inner.getLast? <;> rfl

/-- A layer that refuses nothing goes on refusing nothing. -/
theorem refusals_eq (h : Passes id s trail last) (hfree : s.layer.refusals = {}) :
    last.layer.refusals = {} := by
  induction h with
  | done s => exact hfree
  | wrote _ hwrite ih => exact hwrite.refusals_eq (ih hfree)
  | counted _ refusals hcount ih => exact hcount (ih hfree)
  | noted _ entry ih => exact ih hfree
  | guarded _ _ ih ihinner => exact ihinner (ih hfree)

/-- What no change to an attribute of the entity touches is kept. -/
theorem keeps_of_alter {Q : Store → Prop} (h : Passes id s trail last) (hQ : Q s.store)
    (halter : ∀ s name change, Q s → Q (s.alter id name change)) : Q last.store := by
  induction h with
  | done s => exact hQ
  | wrote _ hwrite ih => exact hwrite.keeps_of_alter (ih hQ) halter
  | counted _ refusals _ ih => exact ih hQ
  | noted _ entry ih => exact ih hQ
  | guarded _ _ ih ihinner => exact ihinner (ih hQ)

/-- As many changes are announced as writes were taken: no write is listed that was not made. -/
theorem count_changed (h : Passes id s trail last) :
    last.signals.count (.changed id) = s.signals.count (.changed id) + trail.length := by
  induction h with
  | done s => rfl
  | wrote _ _ ih =>
    simp only [Session.wrote, Session.signal, List.count_append, List.length_append, ih]
    simp [Nat.add_assoc]
  | counted _ refusals _ ih => exact ih
  | noted _ entry ih => exact ih
  | guarded _ _ ih ihinner =>
    simp only [Session.signal, List.count_append, List.length_append] at ihinner ⊢
    simp [ihinner, ih, Nat.add_assoc]

end Passes

/-- Notices are held back from the one session to the other if anything is done at all. -/
inductive Brackets (id : EntityId) (s : Session) : List Layer → Session → Prop where
  | idle : Brackets id s [] s
  | guarded {trail : List Layer} {last : Session} (h : Passes id (s.signal .hold) trail last) :
      Brackets id s trail (last.signal .release)

/-- While notices are held back an entity is written to as without that. -/
theorem Brackets.passes {id : EntityId} {s last : Session} {trail : List Layer}
    (h : s.Brackets id trail last) : s.Passes id trail last := by
  cases h with
  | idle => exact .done s
  | guarded h => exact (Passes.done s).guarded h

end Session

/-! ## Reverting -/

/-- Reverting edits of an entity writes to that entity, and leaves such edits if it stops. -/
theorem Journal.revert_passes {id : EntityId} {journal : Journal}
    (h : ∀ edit ∈ journal, edit.entity = id) (s : Session) :
    (∃ trail, s.Passes id trail (journal.revert s).2) ∧
      ∀ edit ∈ (journal.revert s).1.2, edit.entity = id := by
  induction journal generalizing s with
  | nil => exact ⟨⟨[], .done s⟩, h⟩
  | cons edit older ih =>
    obtain ⟨hedit, hothers⟩ := List.forall_mem_cons.1 h
    unfold Journal.revert
    split
    · next layer hrevert =>
      obtain ⟨⟨trail, hpasses⟩, hleft⟩ := ih hothers (s.wrote edit.entity layer)
      have hwrote : s.Passes id ([] ++ [layer]) (s.wrote edit.entity layer) := by
        rw [hedit]
        exact (Session.Passes.done s).wrote (.revert edit hedit hrevert)
      exact ⟨⟨_, hwrote.trans hpasses⟩, hleft⟩
    · exact ⟨⟨[], .done s⟩, h⟩
    · exact ⟨⟨[], .done s⟩, h⟩

/-! ## Transactions -/

/-- The layer counts the op that it refuses to add. -/
theorem Layer.exists_refusals_of_addOp {layer layer' : Layer} {id : EntityId} {op : Op}
    {answer : Except StoreError Bool} (h : layer.addOp id op = (answer, layer'))
    (hanswer : answer ≠ .ok true) :
    ∃ refusals, (layer.refusals = {} → refusals = {}) ∧ layer' = { layer with refusals } := by
  simp only [Layer.addOp] at h
  split at h
  · cases h
    exact ⟨_, countAdd_of_free, rfl⟩
  · split at h <;> cases h
    · exact absurd rfl hanswer
    · exact ⟨_, countAdd_of_free, rfl⟩
    · exact ⟨_, countAdd_of_free, rfl⟩

namespace Edit

variable {s : Store} {id : EntityId} {name : String} {time : TimeCode}

/-- What is noted before a write is of the entity that is written to. -/
theorem entity_before {edit : Edit} (h : Edit.before s id name time = .ok edit) :
    edit.entity = id := by
  rcases before_eq_ok_iff.1 h with ⟨-, rfl⟩ | ⟨-, -, -, -, -, -, rfl⟩ <;> rfl

/-- What is noted before adding an op is of the entity of the op. -/
theorem entity_beforeAdding {op : Op} {edits : Journal}
    (h : Edit.beforeAdding s id op = .ok edits) : ∀ edit ∈ edits, edit.entity = id := by
  obtain ⟨edit, record, hedit, -, rfl⟩ := beforeAdding_eq_ok_iff.1 h
  refine List.forall_mem_cons.2 ⟨entity_before hedit, fun edit' hedit' => ?_⟩
  cases record with
  | some record => cases hedit'
  | none =>
    obtain rfl := List.mem_singleton.1 hedit'
    rfl

end Edit

namespace Transaction

variable {id : EntityId} {s : Session} {tx : Transaction}

/-- A transaction writes to one entity, and what takes its writes back does so too. -/
structure Stays (id : EntityId) (s : Session) (tx : Transaction) : Prop where
  passes : ∃ trail, s.Passes id trail tx.toSession
  journal : ∀ edit ∈ tx.journal, edit.entity = id

/-- A transaction starts without a write. -/
theorem Stays.start (s : Session) : (start s).Stays id s :=
  ⟨⟨[], .done s⟩, fun _ hedit => nomatch hedit⟩

/-- A write to the entity stays there, and so does what takes it back. -/
theorem Stays.wrote (h : tx.Stays id s) {layer : Layer} {edits : Journal}
    (hwrite : tx.layer.Takes id layer) (hedits : ∀ edit ∈ edits, edit.entity = id) :
    (tx.wrote id layer edits).Stays id s := by
  obtain ⟨trail, hpasses⟩ := h.passes
  exact ⟨⟨_, hpasses.wrote hwrite⟩, List.forall_mem_append.2 ⟨hedits, h.journal⟩⟩

/-- Adding an op stays on its entity. -/
theorem Stays.addOp (h : tx.Stays id s) (op : Op) : (tx.addOp id op).2.Stays id s := by
  rw [addOp_eq]
  split
  · exact h
  · next edits hedits =>
    split
    · next layer hadd => exact h.wrote (.addOp op hadd) (Edit.entity_beforeAdding hedits)
    · next answer layer hanswer hadd =>
      obtain ⟨trail, hpasses⟩ := h.passes
      obtain ⟨refusals, hfree, rfl⟩ :=
        Layer.exists_refusals_of_addOp hadd fun htrue => hanswer htrue
      exact ⟨⟨trail, hpasses.counted refusals hfree⟩, h.journal⟩

/-- Setting the order stays on its entity. -/
theorem Stays.setOrder (h : tx.Stays id s) (order : OpOrder) :
    (tx.setOrder id order).2.Stays id s := by
  unfold Transaction.setOrder
  split
  · exact h
  · next edit hedit =>
    split
    · next layer hset =>
      exact h.wrote (.setOrder order hset) (by simpa using Edit.entity_before hedit)
    · exact h
    · exact h

/-- Authoring a value stays on its entity. -/
theorem Stays.setValue (h : tx.Stays id s) (name : String) (value : Value) (time : TimeCode) :
    (tx.setValue id name value time).2.Stays id s := by
  unfold Transaction.setValue
  split
  · exact h
  · split
    · next layer hset => exact h.wrote (.setValue name value time hset) (by simp [Edit.entity])
    · exact h
    · exact h

/-- Rolling back goes on writing to the entity, wherever it stops. -/
theorem Stays.rollback (h : tx.Stays id s) : ∃ trail, s.Passes id trail tx.rollback := by
  obtain ⟨trail, hpasses⟩ := h.passes
  unfold Transaction.rollback
  split
  · exact ⟨trail, hpasses⟩
  · have hnoted := hpasses.noted (.rollingBack tx.journal.length)
    obtain ⟨⟨back, hback⟩, -⟩ :=
      Journal.revert_passes h.journal (tx.note (.rollingBack tx.journal.length))
    split
    · next hrevert =>
      rw [hrevert] at hback
      exact ⟨_, hnoted.trans hback⟩
    · next e _ _ hrevert =>
      rw [hrevert] at hback
      exact ⟨_, (hnoted.trans hback).noted (.rollbackFailed e)⟩

end Transaction

end TransformStack
