import TransformStack.Edit.Arrangement
import TransformStack.Proofs.Edit.Steps
import TransformStack.Proofs.Store.Restriction

/-!
# Edits without the attributes of other entities

Edits of entities that keep their attributes come to the same whether the other entities have theirs
or not. This is shown for the writes of a layer and of a transaction, and carried over to steps and
to the journals that take writes back.
-/

namespace TransformStack

variable {keep : EntityId → Bool} {id : EntityId}

/-! ## Layers and sessions -/

/-- The layer with the attributes of some entities only. -/
def Layer.only (layer : Layer) (keep : EntityId → Bool) : Layer :=
  { layer with store := layer.store.only keep }

/-- The session with the attributes of some entities only. -/
def Session.only (s : Session) (keep : EntityId → Bool) : Session :=
  { s with layer := s.layer.only keep }

/-- The transaction with the attributes of some entities only. -/
def Transaction.only (tx : Transaction) (keep : EntityId → Bool) : Transaction :=
  { tx with toSession := tx.toSession.only keep }

namespace Layer

/-- A layer takes over a store with some entities only as it takes over the whole store. -/
theorem onStore_only (layer : Layer) (write : Except StoreError (Option Store)) :
    (layer.only keep).onStore (Option.map (Store.only · keep) <$> write) =
      Option.map (only · keep) <$> layer.onStore write := by
  rcases write with e | none | s <;> rfl

/-- A layer sets the order of a kept entity as it does without the others. -/
theorem setOrder_only (hid : keep id) (layer : Layer) (order : OpOrder) :
    (layer.only keep).setOrder id order = Option.map (only · keep) <$> layer.setOrder id order := by
  have hstore : (layer.only keep).store.setOrder id order = _ :=
    Store.setOrder_only hid order
  rw [setOrder, setOrder, hstore, onStore_only]
  show (if layer.refusals.orders then _ else _) = _
  split <;> rfl

/-- A layer adds an op to a kept entity as it does without the others. -/
theorem addOp_only (hid : keep id) (layer : Layer) (op : Op) :
    (layer.only keep).addOp id op = ((layer.addOp id op).1, (layer.addOp id op).2.only keep) := by
  have hstore : (layer.only keep).store.addOp id op = _ := Store.addOp_only hid op
  unfold addOp
  rw [hstore]
  show (if (countAdd layer.refusals).2 then _ else _) = _
  dsimp only
  split
  · rfl
  · rcases layer.store.addOp id op with e | none | s <;> rfl

end Layer

/-! ## Journals -/

/-- Reverting an edit of a kept entity comes to the same without the others. -/
theorem Edit.revert_only {edit : Edit} (hid : keep edit.entity) (s : Store) :
    edit.revert (s.only keep) = Option.map (Store.only · keep) <$> edit.revert s := by
  cases edit with
  | created id name => exact congrArg Except.ok (Store.removeAttribute_only hid name)
  | changed id name time previous =>
    cases previous with
    | none => exact Store.clearValue_only hid name time
    | some value => exact Store.setValue_only hid name value time

/-- What is noted before a write to a kept entity is the same without the others. -/
theorem Edit.before_only (hid : keep id) (s : Store) (name : String) (time : TimeCode) :
    Edit.before (s.only keep) id name time = Edit.before s id name time := by
  rw [before, before, Store.record?_only hid, Store.authored?_only hid]

/-- Reverting edits of kept entities comes to the same without the others. -/
theorem Journal.revert_only {journal : Journal} (hkept : ∀ edit ∈ journal, keep edit.entity)
    (s : Session) :
    journal.revert (s.only keep) = ((journal.revert s).1, (journal.revert s).2.only keep) := by
  induction journal generalizing s with
  | nil => rfl
  | cons edit older ih =>
    obtain ⟨hedit, holder⟩ := List.forall_mem_cons.1 hkept
    have hwrite : (s.only keep).layer.onStore (edit.revert (s.only keep).store) =
        Option.map (Layer.only · keep) <$> s.layer.onStore (edit.revert s.store) := by
      have hrevert : edit.revert (s.only keep).store = _ := Edit.revert_only hedit s.store
      rw [hrevert]
      exact Layer.onStore_only s.layer _
    rw [revert, revert, hwrite]
    rcases s.layer.onStore (edit.revert s.store) with e | none | layer
    · rfl
    · rfl
    · exact ih holder (s.wrote edit.entity layer)

/-! ## Transactions -/

namespace Transaction

/-- A transaction adds an op to a kept entity as it does without the others. -/
theorem addOp_only (hid : keep id) (tx : Transaction) (op : Op) :
    (tx.only keep).addOp id op = ((tx.addOp id op).1, (tx.addOp id op).2.only keep) := by
  have hbefore : Edit.before (tx.only keep).store id Op.orderName .default =
      Edit.before tx.store id Op.orderName .default := Edit.before_only hid tx.store _ _
  have hrecord : (tx.only keep).store.record? id op.attributeName =
      tx.store.record? id op.attributeName := Store.record?_only hid _
  have hlayer : (tx.only keep).layer.addOp id op = _ := Layer.addOp_only hid tx.layer op
  unfold addOp
  rw [hbefore, hrecord, hlayer]
  dsimp only
  split
  · rfl
  · rcases tx.layer.addOp id op with ⟨e | taken, layer⟩
    · rfl
    · cases taken <;> rfl

/-- A transaction sets the order of a kept entity as it does without the others. -/
theorem setOrder_only (hid : keep id) (tx : Transaction) (order : OpOrder) :
    (tx.only keep).setOrder id order =
      ((tx.setOrder id order).1, (tx.setOrder id order).2.only keep) := by
  have hbefore : Edit.before (tx.only keep).store id Op.orderName .default =
      Edit.before tx.store id Op.orderName .default := Edit.before_only hid tx.store _ _
  have hlayer : (tx.only keep).layer.setOrder id order = _ := Layer.setOrder_only hid tx.layer order
  unfold setOrder
  rw [hbefore, hlayer]
  split
  · rfl
  · rcases tx.layer.setOrder id order with e | none | layer <;> rfl

/-- A transaction authors a value of a kept entity as it does without the others. -/
theorem setValue_only (hid : keep id) (tx : Transaction) (name : String) (value : Value)
    (time : TimeCode) :
    (tx.only keep).setValue id name value time =
      ((tx.setValue id name value time).1, (tx.setValue id name value time).2.only keep) := by
  have hauthored : (tx.only keep).store.authored? id name time = tx.store.authored? id name time :=
    Store.authored?_only hid _ _
  have hwrite : (tx.only keep).layer.onStore ((tx.only keep).store.setValue id name value time) =
      Option.map (Layer.only · keep) <$>
        tx.layer.onStore (tx.store.setValue id name value time) := by
    have hset : (tx.only keep).store.setValue id name value time = _ :=
      Store.setValue_only hid name value time
    rw [hset]
    exact Layer.onStore_only tx.layer _
  unfold setValue
  rw [hauthored, hwrite]
  split
  · rfl
  · rcases tx.layer.onStore (tx.store.setValue id name value time) with e | none | layer <;> rfl

/-- Rolling back edits of kept entities comes to the same without the others. -/
theorem rollback_only {tx : Transaction} (hkept : ∀ edit ∈ tx.journal, keep edit.entity) :
    (tx.only keep).rollback = tx.rollback.only keep := by
  have hrevert : tx.journal.revert ((tx.only keep).note (.rollingBack tx.journal.length)) = _ :=
    Journal.revert_only hkept (tx.note (.rollingBack tx.journal.length))
  unfold rollback
  show (if tx.journal.isEmpty then _ else _) = _
  split
  · rfl
  · rw [show (tx.only keep).journal = tx.journal from rfl, hrevert]
    rcases tx.journal.revert (tx.note (.rollingBack tx.journal.length)) with ⟨⟨e | u, rest⟩, s⟩ <;>
      rfl

end Transaction

/-! ## Steps -/

namespace Steps

variable {α β : Type}

/-- Steps come to the same without the attributes of entities that are not kept. -/
def Local (keep : EntityId → Bool) (steps : Steps α) : Prop :=
  ∀ tx : Transaction, steps.on (tx.only keep) = ((steps.on tx).1, (steps.on tx).2.only keep)

namespace Local

/-- Steps that do nothing do not depend on other entities. -/
theorem pure (a : α) : Local keep (Pure.pure a) := fun _ => rfl

/-- Steps that fail at once do not depend on other entities. -/
theorem throw (e : EditError) : Local keep (MonadExcept.throw e : Steps α) := fun _ => rfl

/-- Steps one after the other do not depend on other entities if none of them does. -/
theorem bind {steps : Steps α} {next : α → Steps β} (hsteps : Local keep steps)
    (hnext : ∀ a, Local keep (next a)) : Local keep (steps >>= next) := by
  intro tx
  rw [bind_on, bind_on, hsteps tx]
  rcases steps.on tx with ⟨e | a, mid⟩
  · rfl
  · exact hnext a mid

/-- A question about kept entities does not depend on the others. -/
theorem ask {question : Store → Except StoreError α}
    (hquestion : ∀ s : Store, question (s.only keep) = question s) :
    Local keep (Steps.ask question) := by
  intro tx
  rw [on, on, Steps.ask]
  exact congrArg (fun answer => (EditError.ofStore answer, tx.only keep)) (hquestion tx.store)

/-- A write to kept entities does not depend on the others. -/
theorem tell {write : Transaction → Except StoreError Bool × Transaction}
    (hwrite : ∀ tx : Transaction, write (tx.only keep) = ((write tx).1, (write tx).2.only keep)) :
    Local keep (Steps.tell write) := by
  intro tx
  rw [on, on, Steps.tell, hwrite]
  rfl

/-- Requiring an answer does not depend on any entity. -/
theorem require (cause : StructuralCause) (taken : Bool) :
    Local keep (Steps.require cause taken) := by
  cases taken with
  | false => exact throw _
  | true => exact pure ()

end Local

end Steps

/-! ## Arrangements -/

namespace Arrangement

variable (hid : keep id)

include hid

/-- Adding the op of a recipe does not depend on other entities. -/
theorem local_add (recipe : Recipe) (inverse : Bool) :
    (add id recipe inverse).Local keep := by
  refine .bind (.tell fun tx => Transaction.addOp_only hid tx _) fun taken => ?_
  exact .bind (.require _ taken) fun _ => .pure _

/-- Adding the other half of a pair does not depend on other entities. -/
theorem local_addCompanion (recipe : Recipe) (order : OpOrder) :
    (addCompanion id recipe order).Local keep := by
  unfold addCompanion
  split
  · exact .pure ()
  · split
    · exact .pure ()
    · exact .bind (local_add hid recipe _) fun _ => .pure ()

/-- Sorting an order does not depend on other entities. -/
theorem local_sort : (sort id).Local keep := by
  refine .bind (.ask fun s => Store.order_only hid) fun order => ?_
  split
  · exact .throw _
  · exact .bind (.tell fun tx => Transaction.setOrder_only hid tx _) fun taken => .require _ taken

/-- Ensuring an op does not depend on other entities. -/
theorem local_ensure (recipe : Recipe) : (ensure id recipe).Local keep := by
  refine .bind (.ask fun s => Store.order_only hid) fun order => ?_
  split
  · exact .pure _
  · refine .bind (local_add hid recipe _) fun op => ?_
    refine .bind (local_addCompanion hid recipe order) fun _ => ?_
    exact .bind (local_sort hid) fun _ => .pure op

end Arrangement

end TransformStack
