import TransformStack.Proofs.Edit.Forming
import TransformStack.Proofs.Stack.Reading

/-!
# Orders that are extended and written back

An op that is added reads at the end of the order, and as the op that was asked for if the type of
its attribute has the precision that was asked for. That is not so for quaternions, which are
stored with single precision only, nor for matrices, which are stored with double precision only.

Of an order that can be read the ops can be written in any selection and any arrangement, and read
as they were written. Writing the order as it was read brings its tokens into one form, in which the
token that detaches the stack stands at the front or nowhere; no reader can tell the difference.
-/

namespace TransformStack

/-! ## Adding an op -/

/-- The attribute of an op has the precision of the op, but for those of quaternions and matrices,
which have one precision only. -/
theorem Op.stored_eq_iff {op : Op} :
    op.stored = op ↔
      ¬(op.kind = .orient ∧ op.precision = .double) ∧
        ¬(op.kind = .transform ∧ op.precision = .float) := by
  obtain ⟨kind, suffix, precision, inverse⟩ := op
  simp only [stored, valueType, mk.injEq, true_and, and_true]
  cases kind <;> cases precision <;> decide

namespace Layer

variable {layer : Layer} {id : EntityId} {order : OpOrder}

/-- A layer that did not add an op holds the store that it held, and one that did holds the store
with the op. -/
theorem addOp_cases (layer : Layer) (id : EntityId) (op : Op) :
    ((layer.addOp id op).1 = .ok true ∧
        layer.store.addOp id op = .ok (some (layer.addOp id op).2.store)) ∨
      ((layer.addOp id op).1 ≠ .ok true ∧ (layer.addOp id op).2.store = layer.store) := by
  unfold addOp
  dsimp only
  split
  · exact .inr ⟨by simp, rfl⟩
  · cases hadd : layer.store.addOp id op with
    | error e => exact .inr ⟨by simp, rfl⟩
    | ok answer =>
      cases answer with
      | none => exact .inr ⟨by simp, rfl⟩
      | some store => exact .inl ⟨rfl, rfl⟩

/-- An op that was added reads at the end of the order, with the name, the kind, the attribute and
the inversion that were asked for. It reads as the op that was asked for exactly if it is neither
an orientation in double precision nor a matrix in single precision. Where no op was added the
store is as before. -/
theorem appends_op (horder : layer.store.order id = .ok order) (kind : OpKind)
    (precision : Precision) (suffix : Option String) (inverse : Bool) :
    let op := Op.make kind precision suffix inverse
    let (answer, after) := layer.addOp id op
    (answer = .ok true → ∃ added,
      after.store.order id = .ok { order with ops := order.ops ++ [added] } ∧
        added.name = op.name ∧ added.kind = kind ∧ added.attributeName = op.attributeName ∧
        added.inverse = inverse ∧
        (added = op ↔
          ¬(kind = .orient ∧ precision = .double) ∧ ¬(kind = .transform ∧ precision = .float))) ∧
      (answer ≠ .ok true → after.store = layer.store) := by
  intro op
  rcases layer.addOp_cases id op with ⟨hadded, hstore⟩ | ⟨hrefused, hstore⟩
  · refine ⟨fun _ => ⟨op.stored, Store.order_addOp horder hstore, rfl, rfl, rfl, rfl, ?_⟩,
      fun hnot => absurd hadded hnot⟩
    exact Op.stored_eq_iff
  · exact ⟨fun hadded => absurd hadded hrefused, fun _ => hstore⟩

/-- On a bare entity an orientation in single precision is added, and reads as it was asked for. -/
theorem appends_op_on_bare :
    let layer : Layer := { store := .bare }
    let op := Op.make .orient .float none false
    layer.store.order default = .ok ⟨[], false⟩ ∧
      (layer.addOp default op).2.store.order default = .ok ⟨[op], false⟩ := by
  intro layer op
  have horder : layer.store.order default = .ok ⟨[], false⟩ := by decide +kernel
  obtain ⟨added, hread, -, -, -, -, hsame⟩ :=
    (appends_op horder .orient .float none false).1 (by decide +kernel)
  obtain rfl := hsame.2 (by decide)
  exact ⟨horder, hread⟩

/-- An orientation in double precision is added to a bare entity, and then reads in single
precision. -/
theorem orient_appended_in_single :
    let layer : Layer := { store := .bare }
    let op := Op.make .orient .double none false
    layer.store.order default = .ok ⟨[], false⟩ ∧ (layer.addOp default op).1 = .ok true ∧
      (layer.addOp default op).2.store.order default =
        .ok ⟨[{ op with precision := .float }], false⟩ ∧
      (layer.addOp default op).2.store.order default ≠ .ok ⟨[op], false⟩ := by
  decide +kernel

end Layer

/-! ## Writing an order back -/

namespace Store

variable {s : Store} {id : EntityId} {order : OpOrder}

/-- An order is written whatever it is, unless the type that its attribute declares is none. -/
theorem setOrder_of_undamaged (hwritable : s.readOnly = false) (hhas : s.has id)
    (hundamaged : ∀ type, ¬s.Damaged id Op.orderName type) (order : OpOrder) :
    s.setOrder id order = .ok (some (s.putTokens id order.tokens)) := by
  refine setOrder_eq_ok_iff.2 ⟨hhas, hwritable, ?_, rfl⟩
  cases hrecord : s.record? id Op.orderName with
  | ok record => exact ⟨record, rfl⟩
  | error e =>
    obtain ⟨type, hdamaged, -⟩ := record?_eq_error_iff.1 hrecord
    exact absurd hdamaged (hundamaged type)

/-- An order is not written where the type of the old one is unknown. -/
theorem setOrder_of_damaged {type : String} (hwritable : s.readOnly = false) (hhas : s.has id)
    (hdamaged : s.Damaged id Op.orderName type) (order : OpOrder) :
    s.setOrder id order = .error (.data (.unknownType type)) := by
  obtain ⟨e, he⟩ := has_iff.1 hhas
  have hrecord : s.record? id Op.orderName = .error (.data (.unknownType type)) :=
    record?_eq_error_iff.2 ⟨type, hdamaged, rfl⟩
  rw [setOrder, he, hwritable, hrecord]
  rfl

/-- No reader of a stack tells the order as it is written back from the order as it was read. -/
theorem read_putTokens (horder : s.order id = .ok order)
    (horder' : (s.putTokens id order.tokens).order id = .ok order) (view : StackView)
    (p : Position) : view.read (s.putTokens id order.tokens) p = view.read s p := by
  have hframed : s.Framed id [Op.orderName] (s.putTokens id order.tokens) := framed_putTokens _
  refine StackView.read_congr ?_
  by_cases hentity : view.entity = id
  · subst hentity
    exact StackView.value?_congr horder horder' rfl fun op _ =>
      find?_putTokens_of_ne op.attributeName_ne_orderName
  · exact StackView.value?_of_ne (hframed.order_of_ne hentity) (hframed.find?_of_ne hentity)

/-- Where the order of an entity can be read and the store is open for writing, every selection of
its ops in every arrangement can be written, and then reads as it was written and nothing else has
changed, unless the type that the order attribute declares is none: then no order can be written.
No reader sees that an order is written as it was read, and writing it once more changes nothing. -/
theorem rewrites_order (hwritable : s.readOnly = false) (horder : s.order id = .ok order) :
    (∀ type, s.Damaged id Op.orderName type →
      ∀ order', s.setOrder id order' = .error (.data (.unknownType type))) ∧
    ((∀ type, ¬s.Damaged id Op.orderName type) →
      (∀ order' : OpOrder, order'.ops ⊆ order.ops → ∃ s', s.setOrder id order' = .ok (some s') ∧
        s'.order id = .ok order' ∧ s.Framed id [Op.orderName] s') ∧
      ∃ s', s.setOrder id order = .ok (some s') ∧ (∀ id', s'.order id' = s.order id') ∧
        (∀ (view : StackView) p, view.read s' p = view.read s p) ∧
        s'.orderTokens? id = .ok (some order.tokens) ∧
        s'.setOrder id order = .ok (some s')) := by
  have hhas : s.has id := (order_eq_ok_iff.1 horder).1
  refine ⟨fun type hdamaged => setOrder_of_damaged hwritable hhas hdamaged, fun hundamaged => ?_⟩
  have hwrites := setOrder_of_undamaged hwritable hhas hundamaged
  have hreads (order' : OpOrder) (hops : order'.ops ⊆ order.ops) :
      (s.putTokens id order'.tokens).order id = .ok order' :=
    order_setOrder (fun op hop => backs_of_order horder op (hops hop)) (hwrites order')
  have hback := hreads order (List.Subset.refl _)
  have hhas' : (s.putTokens id order.tokens).has id := by rw [putTokens, has_alter, hhas]
  have hundamaged' (type : String) : ¬(s.putTokens id order.tokens).Damaged id Op.orderName type :=
    fun h => hundamaged type (damaged_of_putTokens h)
  refine ⟨fun order' hops => ⟨_, hwrites order', hreads order' hops, framed_putTokens _⟩,
    _, hwrites order, fun id' => ?_, read_putTokens horder hback, orderTokens?_putTokens hhas _, ?_⟩
  · by_cases hid : id' = id
    · rw [hid, hback, horder]
    · exact (framed_putTokens _).order_of_ne hid
  · have hwritable' : (s.putTokens id order.tokens).readOnly = false := hwritable
    rw [setOrder_of_undamaged hwritable' hhas' hundamaged', putTokens_putTokens]

/-- An op and, out of place, the token that detaches a stack. The op can be written twice behind
the token. -/
theorem rewrites_order_with_token_astray :
    let translate := Op.make .translate .double none false
    let s := (Store.bare.declare default translate.attributeName .double3).putTokens default
      [translate.name, Op.resetToken]
    s.order default = .ok ⟨[translate], false⟩ ∧
      ∃ s', s.setOrder default ⟨[translate, translate], true⟩ = .ok (some s') ∧
        s'.order default = .ok ⟨[translate, translate], true⟩ := by
  intro translate s
  have horder : s.order default = .ok ⟨[translate], false⟩ := by decide +kernel
  have hundamaged (type : String) : ¬s.Damaged default Op.orderName type := by
    have hrecord : s.record? default Op.orderName = .ok (some ⟨.tokenArray, false⟩) := by
      decide +kernel
    intro hdamaged
    cases hrecord.symm.trans (record?_eq_error_iff.2 ⟨type, hdamaged, rfl⟩)
  obtain ⟨s', hset, hreads, -⟩ := ((rewrites_order rfl horder).2 hundamaged).1
    ⟨[translate, translate], true⟩ (by simp)
  exact ⟨horder, s', hset, hreads⟩

/-- The empty order of an entity reads, and cannot be written back, since its attribute declares a
name that is no type. -/
theorem damaged_order_not_rewritten :
    let s := (Store.bare.putTokens default []).overwriteType default Op.orderName (.unknown "half3")
    s.readOnly = false ∧ s.order default = .ok ⟨[], false⟩ ∧
      s.setOrder default ⟨[], false⟩ = .error (.data (.unknownType "half3")) := by
  intro s
  have hrecord : s.record? default Op.orderName = .error (.data (.unknownType "half3")) := by
    decide +kernel
  obtain ⟨type, hdamaged, heq⟩ := record?_eq_error_iff.1 hrecord
  obtain rfl : "half3" = type := by simpa using heq
  exact ⟨rfl, by decide +kernel, setOrder_of_damaged rfl (by decide +kernel) hdamaged _⟩

end Store

end TransformStack
