import TransformStack.Command.Basic
import TransformStack.Proofs.Edit.Arrangement

/-!
# What a command writes

Writing the value of a command either takes a store to another, with the op it went to and a
journal that takes it back, or it fails and the store stays as it was. Which store comes of it is
settled by the store before: refusals of the layer can only make it fail, and a command that
remembers its op writes to that op again.
-/

namespace TransformStack

namespace Command

variable {c : Command} {value : Vector3}

/-! ## The steps of a write -/

/-- The parts of a write: find the op, convert the value, and have the store take it. -/
theorem write_eq (c : Command) (value : Vector3) :
    c.write value = c.target >>= fun op =>
      write.liftExcept (c.converter.store op value) >>= fun stored =>
        (Steps.tell (·.setValue c.entity op.attributeName stored .default) >>=
          Steps.require (.writeRefused op.attributeName c.entity)) >>= fun _ => pure op := by
  simp [write]

/-- Lifting an answer into steps gives the answer and writes nothing. -/
theorem liftExcept_on_iff {α : Type} {answer answer' : Except EditError α} {tx tx' : Transaction} :
    Steps.on (write.liftExcept answer) tx = (answer', tx') ↔ answer = answer' ∧ tx = tx' :=
  Prod.mk.injEq .. ▸ Iff.rfl

/-- A write goes through if the op is found, the value converts and the store takes it. -/
theorem write_eq_ok_iff {tx tx' : Transaction} {op : Op} :
    (c.write value).on tx = (.ok op, tx') ↔
      ∃ mid stored, c.target.on tx = (.ok op, mid) ∧ c.converter.store op value = .ok stored ∧
        mid.setValue c.entity op.attributeName stored .default = (.ok true, tx') := by
  rw [write_eq, Steps.bind_eq_ok_iff]
  constructor
  · rintro ⟨op', mid, htarget, h⟩
    obtain ⟨stored, mid', hlift, h⟩ := Steps.bind_eq_ok_iff.1 h
    obtain ⟨hstored, rfl⟩ := liftExcept_on_iff.1 hlift
    obtain ⟨u, tx₁, hset, hpure⟩ := Steps.bind_eq_ok_iff.1 h
    cases hpure
    exact ⟨mid, stored, htarget, hstored, Steps.tell_require_eq_ok_iff.1 hset⟩
  · rintro ⟨mid, stored, htarget, hstored, hset⟩
    refine ⟨op, mid, htarget, Steps.bind_eq_ok_iff.2
      ⟨stored, mid, liftExcept_on_iff.2 ⟨hstored, rfl⟩, ?_⟩⟩
    exact Steps.bind_eq_ok_iff.2 ⟨(), tx', Steps.tell_require_eq_ok_iff.2 hset, rfl⟩

/-- Where a write fails, it failed before the value, or at it without a change. -/
theorem write_eq_error {tx tx' : Transaction} {e : EditError}
    (h : (c.write value).on tx = (.error e, tx')) : (c.target.on tx).2 = tx' := by
  rw [write_eq] at h
  rcases Steps.bind_eq_error_iff.1 h with htarget | ⟨op, mid, htarget, h⟩
  · rw [htarget]
  rw [htarget]
  rcases Steps.bind_eq_error_iff.1 h with hstored | ⟨stored, mid', hstored, h⟩
  · exact (liftExcept_on_iff.1 hstored).2
  obtain ⟨-, rfl⟩ := liftExcept_on_iff.1 hstored
  -- The value is what is written last, so a value that was taken cannot be followed by a failure.
  rcases Steps.bind_eq_error_iff.1 h with hset | ⟨u, tx₁, hset, hpure⟩
  · obtain ⟨hrefused, rfl⟩ := Steps.tell_require_eq_error hset
    rcases mid.setValue_taken_or c.entity op.attributeName stored .default with
      ⟨tx₁, htaken⟩ | hsame
    · exact absurd htaken (hrefused tx₁)
    · exact hsame.symm
  · cases hpure

/-! ## The op that is written to -/

/-- The op of an order that the command writes to: the one written last if it is still there, else
the first at the position. -/
def opIn? (c : Command) (order : OpOrder) : Option Op :=
  (c.op.filter (· ∈ order.ops)).or (order.at? c.recipe.position)

/-- A command that remembers no op finds the first at its position. -/
theorem opIn?_of_none {order : OpOrder} (hop : c.op = none) :
    c.opIn? order = order.at? c.recipe.position := by
  rw [opIn?, hop]
  rfl

/-- A command finds the op that it remembers if that is in the order. -/
theorem opIn?_of_mem {op : Op} {order : OpOrder} (hop : c.op = some op) (hmem : op ∈ order.ops) :
    c.opIn? order = some op := by
  simp [opIn?, hop, hmem]

/-- A command whose op is gone finds the first at its position. -/
theorem opIn?_of_notMem {op : Op} {order : OpOrder} (hop : c.op = some op)
    (hmem : op ∉ order.ops) : c.opIn? order = order.at? c.recipe.position := by
  rw [opIn?, hop, Option.filter_some_neg (by simpa using hmem), Option.none_or]

/-- The op that a command writes to is in the order. -/
theorem mem_of_opIn? {op : Op} {order : OpOrder} (h : c.opIn? order = some op) :
    op ∈ order.ops := by
  rcases Option.or_eq_some_iff.1 h with hlast | ⟨-, hat⟩
  · simpa using (Option.filter_eq_some_iff.1 hlast).2
  · exact List.mem_of_find?_eq_some hat

/-- Finding the op takes the order, and then the op in it or one that is made. -/
theorem target_on {tx : Transaction} {order : OpOrder}
    (horder : tx.store.order c.entity = .ok order) :
    c.target.on tx =
      match c.opIn? order with
      | some op => (.ok op, tx)
      | none => (Arrangement.ensure c.entity c.recipe).on tx := by
  have hask : (Steps.ask (·.order c.entity)).on tx = (.ok order, tx) :=
    Steps.ask_eq_ok_iff.2 ⟨horder, rfl⟩
  have hensure : (Arrangement.ensure c.entity c.recipe).on tx =
      match order.at? c.recipe.position with
      | some op => (.ok op, tx)
      | none => (Arrangement.ensure c.entity c.recipe).on tx := by
    split
    · next op hat =>
      rw [Arrangement.ensure, Steps.bind_on, hask]
      dsimp only
      rw [hat]
      rfl
    · rfl
  unfold target
  split
  · next hop =>
    rw [opIn?_of_none hop]
    exact hensure
  · next op hop =>
    rw [Steps.bind_on, hask]
    dsimp only
    -- An op that was made before counts only while the order still has it.
    by_cases hmem : op ∈ order.ops
    · rw [if_pos hmem, opIn?_of_mem hop hmem]
      rfl
    · rw [if_neg hmem, opIn?_of_notMem hop hmem]
      exact hensure

/-- On an order that cannot be read no op is found, and nothing is written. -/
theorem target_of_unreadable {tx : Transaction} {e : StoreError}
    (horder : tx.store.order c.entity = .error e) : c.target.on tx = (.error (.store e), tx) := by
  have hask : (Steps.ask (·.order c.entity)).on tx = (.error (.store e), tx) := by
    rw [Steps.on, Steps.ask, horder]
    rfl
  unfold target
  split
  · rw [Arrangement.ensure, Steps.bind_on, hask]
  · rw [Steps.bind_on, hask]

/-- An op is found in one of two ways: it is in the order, and nothing is written; or the additions
of the recipe are sorted into the order. -/
theorem target_eq_ok {tx tx' : Transaction} {op : Op} (h : c.target.on tx = (.ok op, tx')) :
    ∃ order, tx.store.order c.entity = .ok order ∧
      (c.opIn? order = some op ∧ tx' = tx ∨
        c.opIn? order = none ∧ op = c.recipe.op c.recipe.position.isInverse ∧
          (∀ op ∈ order.ops, ∃ p, Position.ofOp? op = some p) ∧
          tx'.store.order c.entity = .ok { order with
            ops := Op.byPosition (order.ops ++ (c.recipe.additions order).map Op.stored) }) := by
  cases horder : tx.store.order c.entity with
  | error e =>
    rw [target_of_unreadable horder] at h
    cases h
  | ok order =>
    refine ⟨order, rfl, ?_⟩
    rw [target_on horder] at h
    cases hfound : c.opIn? order with
    | some op' =>
      rw [hfound] at h
      cases h
      exact .inl ⟨rfl, rfl⟩
    | none =>
      rw [hfound] at h
      obtain ⟨order', horder', hmade⟩ := Arrangement.ensure_eq_ok h
      obtain rfl : order = order' := Except.ok.inj (horder.symm.trans horder')
      rcases hmade with ⟨hat, -⟩ | ⟨-, hmade⟩
      · rw [(Option.or_eq_none_iff.1 hfound).2] at hat
        cases hat
      · exact .inr ⟨rfl, hmade⟩

/-- What adding ops of the recipe and sorting orders keep is kept by finding an op. -/
theorem target_keeps_of_sort {P : Transaction → Prop}
    (hadd : ∀ tx inverse, P tx → P (tx.addOp c.entity (c.recipe.op inverse)).2)
    (hsort : ∀ tx order, P tx → tx.store.order c.entity = .ok order →
      (∀ op ∈ order.ops, ∃ p, Position.ofOp? op = some p) →
      P (tx.setOrder c.entity { order with ops := Op.byPosition order.ops }).2) :
    c.target.Keeps P := by
  unfold target
  split
  · exact Arrangement.ensure_keeps hadd hsort
  · refine .bind (.ask _) fun order => ?_
    split
    · exact .pure _
    · exact Arrangement.ensure_keeps hadd hsort

/-- What adding ops and setting orders keep is kept by finding an op. -/
theorem target_keeps {P : Transaction → Prop}
    (hadd : ∀ tx op, P tx → P (tx.addOp c.entity op).2)
    (hset : ∀ tx order, P tx → P (tx.setOrder c.entity order).2) : c.target.Keeps P :=
  target_keeps_of_sort (fun tx _ => hadd tx _) fun tx _ htx _ _ => hset tx _ htx

/-- A write that goes through in spite of refusals goes through in the same way without them. -/
theorem write_unhindered : (c.write value).Unhindered := by
  rw [write_eq]
  refine .bind ?_ fun op => .bind ?_ fun stored => .bind ?_ fun _ => .pure _
  · unfold target
    split
    · exact Arrangement.ensure_unhindered
    · refine .bind (.ask _) fun order => ?_
      split
      · exact .pure _
      · exact Arrangement.ensure_unhindered
  · intro tx free a tx' hfree hlift
    obtain ⟨hanswer, rfl⟩ := liftExcept_on_iff.1 hlift
    exact ⟨free, liftExcept_on_iff.2 ⟨hanswer, rfl⟩, hfree⟩
  · exact .tell_require (fun _ _ _ hfree hset => hfree.setValue hset) _

/-! ## What a write comes to -/

/-- On a layer without refusals, writing a value takes one store to another through an op, and a
journal notes what was written. -/
def Writes (c : Command) (value : Vector3) (before after : Store) (op : Op)
    (journal : Journal) : Prop :=
  ∃ tx, (c.write value).on (.start { layer := { store := before } }) = (.ok op, tx) ∧
    tx.store = after ∧ tx.journal = journal

namespace Writes

variable {before after after' : Store} {op op' : Op} {journal journal' : Journal}

/-- The store before settles what a write comes to. -/
theorem unique (h : c.Writes value before after op journal)
    (h' : c.Writes value before after' op' journal') :
    after = after' ∧ op = op' ∧ journal = journal' := by
  obtain ⟨tx, hrun, rfl, rfl⟩ := h
  obtain ⟨tx', hrun', rfl, rfl⟩ := h'
  obtain ⟨rfl, rfl⟩ : op = op' ∧ tx = tx' := by simpa using hrun.symm.trans hrun'
  exact ⟨rfl, rfl, rfl⟩

/-- The op is found or made, and then holds the value. -/
theorem exists_target (h : c.Writes value before after op journal) :
    ∃ mid stored, c.target.on (.start { layer := { store := before } }) = (.ok op, mid) ∧
      c.converter.store op value = .ok stored ∧
      mid.store.setValue c.entity op.attributeName stored .default = .ok (some after) := by
  obtain ⟨tx, hrun, rfl, -⟩ := h
  obtain ⟨mid, stored, htarget, hstored, hset⟩ := write_eq_ok_iff.1 hrun
  obtain ⟨previous, s, -, hs, rfl⟩ := Transaction.setValue_eq_ok_iff.1 hset
  exact ⟨mid, stored, htarget, hstored, hs⟩

/-- What a write makes of the order: it is left alone if it has the op, else the additions of the
recipe are sorted into it. -/
theorem order_eq (h : c.Writes value before after op journal) :
    ∃ order, before.order c.entity = .ok order ∧
      (c.opIn? order = some op ∧ after.order c.entity = .ok order ∨
        c.opIn? order = none ∧ op = c.recipe.op c.recipe.position.isInverse ∧
          (∀ op ∈ order.ops, ∃ p, Position.ofOp? op = some p) ∧
          after.order c.entity = .ok { order with
            ops := Op.byPosition (order.ops ++ (c.recipe.additions order).map Op.stored) }) := by
  obtain ⟨mid, stored, htarget, -, hset⟩ := h.exists_target
  obtain ⟨order, horder, hcases⟩ := target_eq_ok htarget
  refine ⟨order, horder, ?_⟩
  rw [Store.order_setValue hset]
  rcases hcases with ⟨hfound, rfl⟩ | hmade
  · exact .inl ⟨hfound, horder⟩
  · exact .inr hmade

/-- The same for an order that is known. -/
theorem order_cases (h : c.Writes value before after op journal) {order : OpOrder}
    (horder : before.order c.entity = .ok order) :
    c.opIn? order = some op ∧ after.order c.entity = .ok order ∨
      c.opIn? order = none ∧ op = c.recipe.op c.recipe.position.isInverse ∧
        (∀ op ∈ order.ops, ∃ p, Position.ofOp? op = some p) ∧
        after.order c.entity = .ok { order with
          ops := Op.byPosition (order.ops ++ (c.recipe.additions order).map Op.stored) } := by
  obtain ⟨order', horder', hcases⟩ := h.order_eq
  obtain rfl : order = order' := Except.ok.inj (horder.symm.trans horder')
  exact hcases

/-- A property of stores that each write of a store keeps is kept by writing a value. -/
theorem keeps {Q : Store → Prop} (h : c.Writes value before after op journal) (hbefore : Q before)
    (hadd : ∀ s s' op, Q s → s.addOp c.entity op = .ok (some s') → Q s')
    (hset : ∀ s s' order, Q s → s.setOrder c.entity order = .ok (some s') → Q s')
    (hvalue : ∀ s s' (op : Op) value, Q s →
      s.setValue c.entity op.attributeName value .default = .ok (some s') → Q s') : Q after := by
  obtain ⟨mid, stored, htarget, -, hstored⟩ := h.exists_target
  have hkeeps : c.target.Keeps fun tx => Q tx.store :=
    target_keeps (fun tx op htx => Transaction.addOp_keeps htx fun s => hadd tx.store s op htx)
      fun tx order htx => Transaction.setOrder_keeps htx fun s => hset tx.store s order htx
  have hmid := hkeeps (.start { layer := { store := before } }) hbefore
  rw [htarget] at hmid
  exact hvalue mid.store after op stored hmid hstored

/-- A write keeps values and orders typed. -/
theorem wellTyped (h : c.Writes value before after op journal) (hbefore : before.WellTyped) :
    after.WellTyped :=
  h.keeps hbefore (fun _ _ _ hs hadd => hs.addOp hadd) (fun _ _ _ hs hset => hs.setOrder hset)
    fun _ _ _ _ hs hvalue => hs.setValue hvalue

/-- A write keeps orders declared as lists of tokens. -/
theorem ordersDeclared (h : c.Writes value before after op journal)
    (hbefore : before.OrdersDeclared) : after.OrdersDeclared :=
  h.keeps hbefore (fun _ _ _ hs hadd => hs.addOp hadd) (fun _ _ _ hs hset => hs.setOrder hset)
    fun _ _ _ _ hs hvalue => hs.setValue hvalue

/-- A property that no change to an attribute of the entity touches is kept. -/
theorem keeps_of_alter {Q : Store → Prop} (h : c.Writes value before after op journal)
    (hbefore : Q before) (halter : ∀ s name change, Q s → Q (s.alter c.entity name change)) :
    Q after := by
  refine h.keeps hbefore ?_ ?_ ?_
  · intro s s' op hs hadd
    obtain ⟨-, -, -, tokens, -, -, -, rfl⟩ := Store.addOp_eq_ok_iff.1 hadd
    exact halter _ _ _ (halter _ _ _ hs)
  · intro s s' order hs hset
    obtain ⟨-, -, -, rfl⟩ := Store.setOrder_eq_ok_iff.1 hset
    exact halter _ _ _ hs
  · intro s s' op value hs hvalue
    obtain ⟨-, a, type, -, -, -, -, rfl⟩ := Store.setValue_eq_ok_iff.1 hvalue
    exact halter _ _ _ hs

/-- Only a store that is open for writing is written to, and it stays open. -/
theorem writable (h : c.Writes value before after op journal) :
    before.readOnly = false ∧ after.readOnly = false := by
  have hkeeps : after.readOnly = before.readOnly :=
    h.keeps_of_alter (Q := fun s => s.readOnly = before.readOnly) rfl fun _ _ _ hs => hs
  obtain ⟨mid, stored, -, -, hstored⟩ := h.exists_target
  obtain ⟨hopen, a, type, -, -, -, -, rfl⟩ := Store.setValue_eq_ok_iff.1 hstored
  have hafter : mid.store.readOnly = before.readOnly := hkeeps
  exact ⟨hafter.symm.trans hopen, hopen⟩

/-- The journal takes the write back if the order and the value of the op are typed before it. -/
theorem takesBack_of_typed (h : c.Writes value before after op journal)
    (horder : before.OrderTyped c.entity)
    (hvalue : before.ValueTyped c.entity op.attributeName .default) :
    journal.TakesBack after before := by
  obtain ⟨tx, hrun, rfl, rfl⟩ := h
  obtain ⟨mid, stored, htarget, -, hset⟩ := write_eq_ok_iff.1 hrun
  have hname := op.attributeName_ne_orderName
  have hkeeps : c.target.Keeps fun tx => tx.store.OrderTyped c.entity ∧
      tx.store.ValueTyped c.entity op.attributeName .default ∧ tx.Traced before := by
    refine target_keeps ?_ ?_
    · rintro tx op' ⟨horder, hvalue, htraced⟩
      exact ⟨Transaction.addOp_keeps horder fun s => horder.addOp,
        Transaction.addOp_keeps hvalue fun s => hvalue.addOp hname, htraced.addOp horder op'⟩
    · rintro tx order ⟨horder, hvalue, htraced⟩
      exact ⟨Transaction.setOrder_keeps horder fun s => horder.setOrder,
        Transaction.setOrder_keeps hvalue fun s => hvalue.setOrder hname,
        htraced.setOrder horder order⟩
  have hmid := hkeeps (.start { layer := { store := before } }) ⟨horder, hvalue, rfl⟩
  rw [htarget] at hmid
  have htraced : (mid.setValue c.entity op.attributeName stored .default).2.Traced before :=
    hmid.2.2.setValue hmid.2.1 stored
  rw [hset] at htraced
  exact htraced

/-- On a well typed store the journal takes the write back. -/
theorem takesBack (h : c.Writes value before after op journal) (hbefore : before.WellTyped) :
    journal.TakesBack after before :=
  h.takesBack_of_typed (hbefore.orderTyped _) (hbefore.valueTyped _ _ _)

/-- A command that remembers the op it wrote to writes the same again. -/
theorem again (h : c.Writes value before after op journal) (hop : c.op = none)
    (hfits : c.recipe.Fits) : { c with op := some op }.Writes value before after op journal := by
  obtain ⟨tx, hrun, rfl, rfl⟩ := h
  refine ⟨tx, ?_, rfl, rfl⟩
  obtain ⟨mid, stored, htarget, hstored, hset⟩ := write_eq_ok_iff.1 hrun
  refine write_eq_ok_iff.2 ⟨mid, stored, ?_, hstored, hset⟩
  obtain ⟨order, horder, hcases⟩ := target_eq_ok htarget
  rw [target_on horder] at htarget
  have hcached := target_on (c := { c with op := some op }) horder
  rcases hcases with ⟨hfound, rfl⟩ | ⟨hmissing, rfl, -⟩
  · rw [opIn?_of_mem rfl (mem_of_opIn? hfound)] at hcached
    exact hcached
  -- The op that is made was not in the order, or it would have been found at its position.
  · have hmem : c.recipe.op c.recipe.position.isInverse ∉ order.ops := by
      intro hmem
      rw [opIn?_of_none hop] at hmissing
      exact absurd hfits.ofOp? (by simpa using List.find?_eq_none.1 hmissing _ hmem)
    rw [opIn?_of_notMem rfl hmem, ← opIn?_of_none hop, hmissing] at hcached
    rw [hmissing] at htarget
    exact hcached.trans htarget

end Writes

end Command

end TransformStack
