import TransformStack.Proofs.Edit.Steps

/-!
# What the writes of a transaction do

A write of a transaction is taken, and then the store is the one that the store's own write gives
and the journal knows how to take it back, or it is not, and then store and journal are what they
were. Hence the journal of a transaction always takes back to where the transaction started, and
rolling back goes there.
-/

namespace TransformStack

namespace Transaction

variable {tx tx' : Transaction} {id : EntityId}

/-! ## Writes that are taken -/

/-- Before an op is added what takes it back is noted, and a layer may refuse the op. -/
theorem addOp_eq (tx : Transaction) (id : EntityId) (op : Op) :
    tx.addOp id op =
      match Edit.beforeAdding tx.store id op with
      | .error e => (.error e, tx)
      | .ok edits =>
        match tx.layer.addOp id op with
        | (.ok true, layer) => (.ok true, tx.wrote id layer edits)
        | (answer, layer) => (answer, { tx with layer }) := rfl

/-- An op is added where the layer and the store take it, and then what takes it back is noted. -/
theorem addOp_eq_ok_iff {op : Op} :
    tx.addOp id op = (.ok true, tx') ↔
      (Layer.countAdd tx.layer.refusals).2 = false ∧
        ∃ edits store, Edit.beforeAdding tx.store id op = .ok edits ∧
          tx.store.addOp id op = .ok (some store) ∧
          tx' = tx.wrote id { store, refusals := (Layer.countAdd tx.layer.refusals).1 } edits := by
  rw [addOp_eq]
  cases Edit.beforeAdding tx.store id op with
  | error e => simp
  | ok edits =>
    simp only [Layer.addOp, show tx.layer.store = tx.store from rfl]
    rcases Layer.countAdd tx.layer.refusals with ⟨refusals, - | -⟩
    · rcases tx.store.addOp id op with e | - | store <;> simp [eq_comm]
    · simp

/-- An order is set where the layer and the store take it, and then what takes it back is noted. -/
theorem setOrder_eq_ok_iff {order : OpOrder} :
    tx.setOrder id order = (.ok true, tx') ↔
      tx.layer.refusals.orders = false ∧
        ∃ edit store, Edit.before tx.store id Op.orderName .default = .ok edit ∧
          tx.store.setOrder id order = .ok (some store) ∧
          tx' = tx.wrote id { tx.layer with store } [edit] := by
  unfold setOrder
  cases Edit.before tx.store id Op.orderName .default with
  | error e => simp
  | ok edit =>
    simp only [Layer.setOrder, Layer.onStore, show tx.layer.store = tx.store from rfl]
    cases tx.layer.refusals.orders
    · rcases tx.store.setOrder id order with e | - | store <;>
        simp [Functor.map, Except.map, eq_comm]
    · simp

/-- A value is authored where the store takes it, and then what takes it back is noted. -/
theorem setValue_eq_ok_iff {name : String} {value : Value} {time : TimeCode} :
    tx.setValue id name value time = (.ok true, tx') ↔
      ∃ previous store, tx.store.authored? id name time = .ok previous ∧
        tx.store.setValue id name value time = .ok (some store) ∧
        tx' = tx.wrote id { tx.layer with store } [.changed id name time previous] := by
  unfold setValue
  cases tx.store.authored? id name time with
  | error e => simp
  | ok previous =>
    simp only [Layer.onStore]
    rcases tx.store.setValue id name value time with e | - | store <;>
      simp [Functor.map, Except.map, eq_comm]

/-! ## Writes that are not taken -/

/-- An op is added, or the store and the journal stay as they are. -/
theorem addOp_taken_or (tx : Transaction) (id : EntityId) (op : Op) :
    (∃ tx', tx.addOp id op = (.ok true, tx')) ∨
      (tx.addOp id op).2.store = tx.store ∧ (tx.addOp id op).2.journal = tx.journal := by
  rw [addOp_eq]
  cases Edit.beforeAdding tx.store id op with
  | error e => exact .inr ⟨rfl, rfl⟩
  | ok edits =>
    simp only [Layer.addOp]
    rcases Layer.countAdd tx.layer.refusals with ⟨refusals, - | -⟩
    · rcases tx.layer.store.addOp id op with e | - | store
      · exact .inr ⟨rfl, rfl⟩
      · exact .inr ⟨rfl, rfl⟩
      · exact .inl ⟨_, rfl⟩
    · exact .inr ⟨rfl, rfl⟩

/-- An order is set, or the transaction stays as it is. -/
theorem setOrder_taken_or (tx : Transaction) (id : EntityId) (order : OpOrder) :
    (∃ tx', tx.setOrder id order = (.ok true, tx')) ∨ (tx.setOrder id order).2 = tx := by
  unfold setOrder
  cases Edit.before tx.store id Op.orderName .default with
  | error e => exact .inr rfl
  | ok edit =>
    dsimp only
    rcases tx.layer.setOrder id order with e | - | layer
    · exact .inr rfl
    · exact .inr rfl
    · exact .inl ⟨_, rfl⟩

/-- A value is authored, or the transaction stays as it is. -/
theorem setValue_taken_or (tx : Transaction) (id : EntityId) (name : String) (value : Value)
    (time : TimeCode) :
    (∃ tx', tx.setValue id name value time = (.ok true, tx')) ∨
      (tx.setValue id name value time).2 = tx := by
  unfold setValue
  cases tx.store.authored? id name time with
  | error e => exact .inr rfl
  | ok previous =>
    dsimp only
    rcases tx.layer.onStore (tx.store.setValue id name value time) with e | - | layer
    · exact .inr rfl
    · exact .inr rfl
    · exact .inl ⟨_, rfl⟩

/-! ## What writes keep -/

/-- A property of stores that the store's own write keeps is kept by adding an op. -/
theorem addOp_keeps {Q : Store → Prop} {op : Op} (h : Q tx.store)
    (hwrite : ∀ s, tx.store.addOp id op = .ok (some s) → Q s) : Q (tx.addOp id op).2.store := by
  rcases tx.addOp_taken_or id op with ⟨tx', htaken⟩ | ⟨hstore, -⟩
  · obtain ⟨-, edits, s, -, hadd, rfl⟩ := addOp_eq_ok_iff.1 htaken
    rw [htaken]
    exact hwrite s hadd
  · rwa [hstore]

/-- A property of stores that the store's own write keeps is kept by writing an order. -/
theorem setOrder_keeps {Q : Store → Prop} {order : OpOrder} (h : Q tx.store)
    (hwrite : ∀ s, tx.store.setOrder id order = .ok (some s) → Q s) :
    Q (tx.setOrder id order).2.store := by
  rcases tx.setOrder_taken_or id order with ⟨tx', htaken⟩ | hsame
  · obtain ⟨-, edit, s, -, hset, rfl⟩ := setOrder_eq_ok_iff.1 htaken
    rw [htaken]
    exact hwrite s hset
  · rwa [hsame]

section

variable {Q : Store → Prop} {E : Edit → Prop}

/-- Adding an op keeps a property of the store, and another one of all that is noted. -/
theorem addOp_notes {op : Op} (hstore : Q tx.store) (hjournal : ∀ edit ∈ tx.journal, E edit)
    (hbefore : ∀ edit, Edit.before tx.store id Op.orderName .default = .ok edit → E edit)
    (hcreated : tx.store.find? id op.attributeName = none → E (.created id op.attributeName))
    (hwrite : ∀ s, tx.store.addOp id op = .ok (some s) → Q s) :
    Q (tx.addOp id op).2.store ∧ ∀ edit ∈ (tx.addOp id op).2.journal, E edit := by
  refine ⟨addOp_keeps hstore hwrite, ?_⟩
  rcases tx.addOp_taken_or id op with ⟨tx', htaken⟩ | ⟨-, hsame⟩
  · obtain ⟨-, edits, s, hedits, -, rfl⟩ := addOp_eq_ok_iff.1 htaken
    obtain ⟨edit, record, hedit, hrecord, rfl⟩ := Edit.beforeAdding_eq_ok_iff.1 hedits
    rw [htaken]
    refine List.forall_mem_append.2 ⟨List.forall_mem_cons.2 ⟨hbefore edit hedit, ?_⟩, hjournal⟩
    cases record with
    | some record => exact List.forall_mem_nil _
    | none => exact List.forall_mem_singleton.2 (hcreated (Store.record?_eq_none_iff.1 hrecord))
  · rwa [hsame]

/-- Writing an order keeps a property of the store, and another one of all that is noted. -/
theorem setOrder_notes {order : OpOrder} (hstore : Q tx.store)
    (hjournal : ∀ edit ∈ tx.journal, E edit)
    (hbefore : ∀ edit, Edit.before tx.store id Op.orderName .default = .ok edit → E edit)
    (hwrite : ∀ s, tx.store.setOrder id order = .ok (some s) → Q s) :
    Q (tx.setOrder id order).2.store ∧ ∀ edit ∈ (tx.setOrder id order).2.journal, E edit := by
  refine ⟨setOrder_keeps hstore hwrite, ?_⟩
  rcases tx.setOrder_taken_or id order with ⟨tx', htaken⟩ | hsame
  · obtain ⟨-, edit, s, hedit, -, rfl⟩ := setOrder_eq_ok_iff.1 htaken
    rw [htaken]
    exact List.forall_mem_cons.2 ⟨hbefore edit hedit, hjournal⟩
  · rwa [hsame]

/-- Authoring a value keeps a property of the store, and another one of all that is noted. -/
theorem setValue_notes {name : String} {value : Value} {time : TimeCode} (hstore : Q tx.store)
    (hjournal : ∀ edit ∈ tx.journal, E edit)
    (hprevious : ∀ previous, tx.store.authored? id name time = .ok previous →
      E (.changed id name time previous))
    (hwrite : ∀ s, tx.store.setValue id name value time = .ok (some s) → Q s) :
    Q (tx.setValue id name value time).2.store ∧
      ∀ edit ∈ (tx.setValue id name value time).2.journal, E edit := by
  rcases tx.setValue_taken_or id name value time with ⟨tx', htaken⟩ | hsame
  · obtain ⟨previous, s, hauthored, hset, rfl⟩ := setValue_eq_ok_iff.1 htaken
    rw [htaken]
    exact ⟨hwrite s hset, List.forall_mem_cons.2 ⟨hprevious previous hauthored, hjournal⟩⟩
  · rw [hsame]
    exact ⟨hstore, hjournal⟩

/-- Rolling back keeps what reverting what was noted keeps, also where it fails. -/
theorem rollback_keeps
    (hrevert : ∀ edit s s', E edit → Q s → edit.revert s = .ok (some s') → Q s')
    (hstore : Q tx.store) (hjournal : ∀ edit ∈ tx.journal, E edit) : Q tx.rollback.store := by
  have hnote : Q (tx.note (.rollingBack tx.journal.length)).store := hstore
  have hkept := (Journal.revert_keeps hrevert hjournal hnote).1
  unfold Transaction.rollback
  split
  · exact hstore
  · split <;>
      next hrun =>
        rw [hrun] at hkept
        exact hkept

end

/-! ## Journals of transactions -/

/-- The journal of a transaction takes its store back to a store. -/
def Traced (origin : Store) (tx : Transaction) : Prop := tx.journal.TakesBack tx.store origin

variable {origin : Store}

/-- Adding an op extends the way back if the order is typed. -/
theorem Traced.addOp (h : tx.Traced origin) (htyped : tx.store.OrderTyped id) (op : Op) :
    (tx.addOp id op).2.Traced origin := by
  rcases tx.addOp_taken_or id op with ⟨tx', htaken⟩ | ⟨hstore, hjournal⟩
  · obtain ⟨-, edits, s, hedits, hadd, rfl⟩ := addOp_eq_ok_iff.1 htaken
    rw [htaken]
    exact (Store.addOp_takesBack htyped hedits hadd).append h
  · rwa [Traced, hstore, hjournal]

/-- Setting the order extends the way back if the order is typed. -/
theorem Traced.setOrder (h : tx.Traced origin) (htyped : tx.store.OrderTyped id)
    (order : OpOrder) : (tx.setOrder id order).2.Traced origin := by
  rcases tx.setOrder_taken_or id order with ⟨tx', htaken⟩ | hsame
  · obtain ⟨-, edit, s, hedit, hset, rfl⟩ := setOrder_eq_ok_iff.1 htaken
    rw [htaken]
    exact (Store.setOrder_takesBack htyped hedit hset).append h
  · rwa [hsame]

/-- Authoring a value extends the way back if what is replaced is typed. -/
theorem Traced.setValue (h : tx.Traced origin) {name : String} {time : TimeCode}
    (htyped : tx.store.ValueTyped id name time) (value : Value) :
    (tx.setValue id name value time).2.Traced origin := by
  rcases tx.setValue_taken_or id name value time with ⟨tx', htaken⟩ | hsame
  · obtain ⟨previous, s, hprevious, hset, rfl⟩ := setValue_eq_ok_iff.1 htaken
    rw [htaken]
    exact (Store.setValue_takesBack htyped hprevious hset).append h
  · rwa [hsame]

/-- Rolling back goes to where the journal takes back to, and leaves the refusals of the layer. -/
theorem Traced.rollback (h : tx.Traced origin) :
    tx.rollback.layer = { tx.layer with store := origin } := by
  unfold Transaction.rollback
  split
  -- Nothing was written where the journal is empty, and nothing is reverted.
  · next hempty =>
    have hstore : tx.store = origin := by
      rw [Traced, List.isEmpty_iff.1 hempty] at h
      exact h
    rw [← hstore]
    rfl
  · have hnote : tx.journal.TakesBack (tx.note (.rollingBack tx.journal.length)).store origin := h
    obtain ⟨houtcome, hlayer⟩ := hnote.revert
    split
    · next s hrevert =>
      rw [hrevert] at hlayer
      exact hlayer
    · next e s hrevert =>
      rw [hrevert] at houtcome
      cases houtcome

/-- Rolling back leads to the store that the journal takes back to. -/
theorem Traced.store_rollback (h : tx.Traced origin) : tx.rollback.store = origin := by
  rw [Session.store, h.rollback]

/-! ## Transactions without refusals -/

/-- A transaction as it would be on a layer that refuses nothing. -/
structure Freed (tx free : Transaction) : Prop where
  layer : free.layer = { store := tx.store }
  journal : free.journal = tx.journal

/-- Without refusals a transaction has the same store. -/
theorem Freed.store {free : Transaction} (h : tx.Freed free) : free.store = tx.store := by
  rw [Session.store, h.layer]

/-- An op that is added in spite of refusals is added without them. -/
theorem Freed.addOp {free : Transaction} (h : tx.Freed free) {op : Op}
    (hadd : tx.addOp id op = (.ok true, tx')) :
    ∃ free', free.addOp id op = (.ok true, free') ∧ tx'.Freed free' := by
  obtain ⟨-, edits, s, hedits, hs, rfl⟩ := addOp_eq_ok_iff.1 hadd
  rw [← h.store] at hedits hs
  -- Without refusals nothing is counted, so the layer stays free of them.
  refine ⟨_, addOp_eq_ok_iff.2 ⟨?_, edits, s, hedits, hs, rfl⟩, ?_⟩
  · rw [h.layer]
    rfl
  · refine ⟨?_, congrArg (edits ++ ·) h.journal⟩
    rw [h.layer]
    rfl

/-- An order that is set in spite of refusals is set without them. -/
theorem Freed.setOrder {free : Transaction} (h : tx.Freed free) {order : OpOrder}
    (hset : tx.setOrder id order = (.ok true, tx')) :
    ∃ free', free.setOrder id order = (.ok true, free') ∧ tx'.Freed free' := by
  obtain ⟨-, edit, s, hedit, hs, rfl⟩ := setOrder_eq_ok_iff.1 hset
  rw [← h.store] at hedit hs
  refine ⟨_, setOrder_eq_ok_iff.2 ⟨?_, edit, s, hedit, hs, rfl⟩, ?_⟩
  · rw [h.layer]
  · refine ⟨?_, congrArg ([edit] ++ ·) h.journal⟩
    rw [h.layer]
    rfl

/-- A value that is authored in spite of refusals is authored without them. -/
theorem Freed.setValue {free : Transaction} (h : tx.Freed free) {name : String} {value : Value}
    {time : TimeCode} (hset : tx.setValue id name value time = (.ok true, tx')) :
    ∃ free', free.setValue id name value time = (.ok true, free') ∧ tx'.Freed free' := by
  obtain ⟨previous, s, hprevious, hs, rfl⟩ := setValue_eq_ok_iff.1 hset
  rw [← h.store] at hprevious hs
  refine ⟨_, setValue_eq_ok_iff.2 ⟨previous, s, hprevious, hs, rfl⟩, ?_⟩
  refine ⟨?_, congrArg (Edit.changed id name time previous :: ·) h.journal⟩
  rw [h.layer]
  rfl

end Transaction

/-! ## Steps that go through -/

namespace Steps

variable {α β : Type}

/-- Steps that go through in spite of refusals go through in the same way without them. -/
def Unhindered (steps : Steps α) : Prop :=
  ∀ tx free a tx', tx.Freed free → steps.on tx = (.ok a, tx') →
    ∃ free', steps.on free = (.ok a, free') ∧ tx'.Freed free'

namespace Unhindered

/-- Steps that do nothing go through anyway. -/
theorem pure (a : α) : Unhindered (Pure.pure a) := by
  rintro tx free _ _ hfree ⟨⟩
  exact ⟨free, rfl, hfree⟩

/-- Steps that fail at once do not go through. -/
theorem throw (e : EditError) : Unhindered (MonadExcept.throw e : Steps α) := by
  rintro tx free _ _ hfree ⟨⟩

/-- Steps one after the other go through without refusals if each of them does. -/
theorem bind {steps : Steps α} {next : α → Steps β} (hsteps : Unhindered steps)
    (hnext : ∀ a, Unhindered (next a)) : Unhindered (steps >>= next) := by
  intro tx free b tx' hfree hrun
  obtain ⟨a, mid, hfirst, hsecond⟩ := bind_eq_ok_iff.1 hrun
  obtain ⟨free₁, hfirst', hfree₁⟩ := hsteps tx free a mid hfree hfirst
  obtain ⟨free₂, hsecond', hfree₂⟩ := hnext a mid free₁ b tx' hfree₁ hsecond
  exact ⟨free₂, bind_eq_ok_iff.2 ⟨a, free₁, hfirst', hsecond'⟩, hfree₂⟩

/-- A question is answered alike with refusals and without. -/
theorem ask (question : Store → Except StoreError α) : Unhindered (Steps.ask question) := by
  intro tx free a tx' hfree hask
  obtain ⟨hanswer, rfl⟩ := ask_eq_ok_iff.1 hask
  rw [← hfree.store] at hanswer
  exact ⟨free, ask_eq_ok_iff.2 ⟨hanswer, rfl⟩, hfree⟩

/-- A write that goes through without refusals does so where it is required. -/
theorem tell_require {write : Transaction → Except StoreError Bool × Transaction}
    (hwrite : ∀ tx free tx', tx.Freed free → write tx = (.ok true, tx') →
      ∃ free', write free = (.ok true, free') ∧ tx'.Freed free') (cause : StructuralCause) :
    Unhindered (Steps.tell write >>= Steps.require cause) := by
  intro tx free u tx' hfree hrun
  obtain ⟨free', hfree', h⟩ := hwrite tx free tx' hfree (tell_require_eq_ok_iff.1 hrun)
  exact ⟨free', tell_require_eq_ok_iff.2 hfree', h⟩

end Unhindered

end Steps

/-! ## Whole transactions -/

namespace Session

variable {α : Type} {s : Session}

theorem store_eq {layer : Layer} (h : s.layer = layer) : s.store = layer.store := by
  rw [store, h]

/-- A transaction of steps is committed or rolled back, as the steps succeed or fail. -/
theorem transact_eq (s : Session) (steps : Steps α) :
    s.transact steps =
      match steps.on (.start s) with
      | (.ok a, tx) => (.ok (a, tx.journal), tx.toSession)
      | (.error e, tx) => (.error e, tx.rollback) := rfl

end Session

end TransformStack
