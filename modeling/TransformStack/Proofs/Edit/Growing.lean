import TransformStack.Proofs.Command.Commuting
import TransformStack.Proofs.Store.Alike

/-!
# Orders that grow

Asking for an op that is missing lets the order of an entity grow at the position of the recipe and
loses none of its ops. All that is noted for it takes arranging back, the tokens of the order first.
If the order attribute is declared as something else than a list of tokens, no tokens can be put
back into it, so whatever is left of such an attempt, the order retains its ops.
-/

namespace TransformStack

/-! ## Orders that grow -/

/-- An order was added to: every op is still there, and what is new stands at a position or at the
other half of its pair. -/
structure OpOrder.GrownAt (p : Position) (order order' : OpOrder) : Prop where
  keeps : ∀ op ∈ order.ops, op ∈ order'.ops
  adds : ∀ op ∈ order'.ops, op ∈ order.ops ∨ ∃ q, Position.ofOp? op = some q ∧ q.InPair p

/-- Sorting the additions of a recipe into an order lets it grow at the position of the recipe. -/
theorem OpOrder.grownAt_additions {order : OpOrder} {recipe : Recipe} (hfits : recipe.Fits)
    (hplaced : ∀ op ∈ order.ops, ∃ p, Position.ofOp? op = some p) :
    order.GrownAt recipe.position { order with
      ops := Op.byPosition (order.ops ++ (recipe.additions order).map Op.stored) } := by
  refine ⟨fun op hop => ?_, fun op hop => ?_⟩
  · obtain ⟨p, hp⟩ := hplaced op hop
    exact Op.mem_byPosition.2 ⟨List.mem_append_left _ hop, p, hp⟩
  · rcases List.mem_append.1 (Op.mem_byPosition.1 hop).1 with hold | hnew
    · exact .inl hold
    · obtain ⟨q, hq, hplace⟩ := ofOp?_of_mem_additions hfits hnew
      exact .inr ⟨q, hplace, (mem_lacking.1 hq).imp_right And.left⟩

/-! ## Orders whose attribute is declared as something else -/

namespace Store

variable {s s' : Store} {id : EntityId}

/-- The attribute of the order is there and is not declared as a list of tokens. -/
def OrderMistyped (s : Store) (id : EntityId) : Prop :=
  ∃ a, s.find? id Op.orderName = some a ∧ a.declared ≠ .known .tokenArray

/-- An order that can be read is typed, or its attribute is declared as something else. -/
theorem orderTyped_or_mistyped {order : OpOrder} (horder : s.order id = .ok order) :
    s.OrderTyped id ∨ s.OrderMistyped id := by
  by_cases hdeclared : ∀ a, s.find? id Op.orderName = some a → a.declared = .known .tokenArray
  · exact .inl (orderTyped_of_declared hdeclared horder)
  · simp only [not_forall] at hdeclared
    obtain ⟨a, ha, hne⟩ := hdeclared
    exact .inr ⟨a, ha, hne⟩

/-- A mistyped order is not a typed one. -/
theorem OrderMistyped.not_typed (h : s.OrderMistyped id) : ¬s.OrderTyped id := by
  obtain ⟨a, ha, hne⟩ := h
  exact fun htyped => hne (htyped a ha).1

/-- Stores that are alike have mistyped orders alike. -/
theorem Alike.orderMistyped (h : s'.Alike id s) (hs : s.OrderMistyped id) :
    s'.OrderMistyped id := by
  obtain ⟨a, ha, hne⟩ := hs
  exact ⟨a, h.order.trans ha, hne⟩

/-- Declaring the attribute of an op leaves the order mistyped. -/
theorem OrderMistyped.declare (h : s.OrderMistyped id) (op : Op) (type : ValueType) :
    (s.declare id op.attributeName type).OrderMistyped id := by
  obtain ⟨a, ha, hne⟩ := h
  refine ⟨a, ?_, hne⟩
  rw [Store.declare, find?_alter, if_neg fun hat => op.attributeName_ne_orderName hat.2.1, ha]

/-- Putting tokens into a mistyped order leaves it mistyped. -/
theorem OrderMistyped.putTokens (h : s.OrderMistyped id) (tokens : List String) :
    (s.putTokens id tokens).OrderMistyped id := by
  obtain ⟨a, ha, hne⟩ := h
  refine ⟨{ a with fixed := some (.value (.tokens tokens)) }, ?_, hne⟩
  rw [Store.putTokens, find?_alter, if_pos ⟨rfl, rfl, has_of_find? ha⟩, ha]
  rfl

/-- Adding an op leaves the order mistyped. -/
theorem OrderMistyped.addOp (h : s.OrderMistyped id) {op : Op}
    (hadd : s.addOp id op = .ok (some s')) : s'.OrderMistyped id := by
  obtain ⟨-, -, -, tokens, -, -, -, rfl⟩ := addOp_eq_ok_iff.1 hadd
  exact (h.declare op _).putTokens _

/-- Setting the order leaves it mistyped. -/
theorem OrderMistyped.setOrder (h : s.OrderMistyped id) {order : OpOrder}
    (hset : s.setOrder id order = .ok (some s')) : s'.OrderMistyped id := by
  obtain ⟨-, -, -, rfl⟩ := setOrder_eq_ok_iff.1 hset
  exact h.putTokens _

/-- The tokens of an order are what its attribute holds. -/
theorem orderTokens?_eq_some_iff {names : List String} :
    s.orderTokens? id = .ok (some names) ↔
      s.authored? id Op.orderName .default = .ok (some (.tokens names)) := by
  unfold orderTokens?
  rw [bind_eq_ok_iff]
  constructor
  · rintro ⟨value, hvalue, hread⟩
    rw [hvalue]
    cases value with
    | none => cases hread
    | some value =>
      cases value with
      | tokens found =>
        cases hread
        rfl
      | _ => exact absurd hread throw_ne_ok
  · intro hvalue
    exact ⟨_, hvalue, rfl⟩

/-- No tokens can be put back into an attribute that is declared as something else. -/
theorem OrderMistyped.revert_ne (h : s.OrderMistyped id) (names : List String) :
    (Edit.changed id Op.orderName .default (some (.tokens names))).revert s ≠ .ok (some s') := by
  intro hrevert
  obtain ⟨a, ha, hne⟩ := h
  obtain ⟨-, a', type, ha', hdeclared, htype, -⟩ := setValue_eq_ok_iff.1 hrevert
  obtain rfl : a = a' := Option.some.inj (ha.symm.trans ha')
  cases htype
  exact hne hdeclared

/-- The attribute of the order is not declared as a list of tokens, but the order can be read and
has some ops, if not more. -/
structure Retains (s : Store) (id : EntityId) (ops : List Op) : Prop where
  mistyped : s.OrderMistyped id
  order : ∃ order, s.order id = .ok order ∧ ∀ op ∈ ops, op ∈ order.ops

namespace Retains

variable {ops : List Op}

/-- Declaring the attribute of an op retains the ops of the order. -/
theorem declare (h : s.Retains id ops) (op : Op) (type : ValueType) :
    (s.declare id op.attributeName type).Retains id ops := by
  obtain ⟨order, horder, hops⟩ := h.order
  exact ⟨h.mistyped.declare op type, order, order_declare horder op type, hops⟩

/-- Adding an op retains those that are there. -/
theorem addOp (h : s.Retains id ops) {op : Op} (hadd : s.addOp id op = .ok (some s')) :
    s'.Retains id ops := by
  obtain ⟨order, horder, hops⟩ := h.order
  exact ⟨h.mistyped.addOp hadd, _, order_addOp horder hadd,
    fun op' hop' => List.mem_append_left _ (hops op' hop')⟩

/-- Sorting an order whose ops have positions loses none of them. -/
theorem sort (h : s.Retains id ops) {order : OpOrder} (horder : s.order id = .ok order)
    (hplaced : ∀ op ∈ order.ops, ∃ p, Position.ofOp? op = some p)
    (hset : s.setOrder id { order with ops := Op.byPosition order.ops } = .ok (some s')) :
    s'.Retains id ops := by
  obtain ⟨order', horder', hops⟩ := h.order
  obtain rfl : order = order' := Except.ok.inj (horder.symm.trans horder')
  refine ⟨h.mistyped.setOrder hset, _, order_setOrder (fun op hop => ?_) hset, fun op hop => ?_⟩
  · exact backs_of_order horder op (Op.mem_byPosition.1 hop).1
  · exact Op.mem_byPosition.2 ⟨hops op hop, hplaced op (hops op hop)⟩

end Retains

end Store

/-! ## What arranging notes -/

/-- What is noted before the order is written takes arranging back. -/
theorem Edit.isArranging_of_before {s : Store} {id : EntityId} {edit : Edit}
    (h : before s id Op.orderName .default = .ok edit) : edit.IsArranging id := by
  rcases before_eq_ok_iff.1 h with ⟨-, rfl⟩ | ⟨a, type, previous, -, -, -, rfl⟩
  · exact .inl ⟨_, rfl⟩
  · exact .inr ⟨previous, rfl⟩

namespace Transaction

variable {tx : Transaction} {id : EntityId}

/-- All that the journal takes back is arranging. -/
def Arranges (id : EntityId) (tx : Transaction) : Prop := ∀ edit ∈ tx.journal, edit.IsArranging id

/-- Adding an op is arranging. -/
theorem Arranges.addOp (h : tx.Arranges id) (op : Op) : (tx.addOp id op).2.Arranges id :=
  (addOp_notes (Q := fun _ => True) trivial h (fun _ => Edit.isArranging_of_before)
    (fun _ => .inl ⟨_, rfl⟩) fun _ _ => trivial).2

/-- Setting the order is arranging. -/
theorem Arranges.setOrder (h : tx.Arranges id) (order : OpOrder) :
    (tx.setOrder id order).2.Arranges id :=
  (setOrder_notes (Q := fun _ => True) trivial h (fun _ => Edit.isArranging_of_before)
    fun _ _ => trivial).2

end Transaction

namespace Arrangement

variable {tx tx' : Transaction} {id : EntityId} {recipe : Recipe}

/-- An order that was written holds tokens, and they are noted before it is written again. -/
theorem journal_of_sort {u : Unit} {names : List String}
    (hnames : tx.store.orderTokens? id = .ok (some names))
    (hsort : (sort id).on tx = (.ok u, tx')) :
    tx'.journal = .changed id Op.orderName .default (some (.tokens names)) :: tx.journal := by
  obtain ⟨order, mid, hask, hrest⟩ := Steps.bind_eq_ok_iff.1 hsort
  obtain ⟨-, rfl⟩ := Steps.ask_eq_ok_iff.1 hask
  split at hrest
  · cases hrest
  have htaken := Steps.tell_require_eq_ok_iff.1 hrest
  obtain ⟨-, edit, s, hbefore, -, rfl⟩ := Transaction.setOrder_eq_ok_iff.1 htaken
  have hvalue := Store.orderTokens?_eq_some_iff.1 hnames
  rcases Edit.before_eq_ok_iff.1 hbefore with
    ⟨hnone, -⟩ | ⟨a, type, previous, ha, -, hprevious, rfl⟩
  · rw [Store.authored?, hnone, Cell.read?_eq_ok_iff] at hvalue
    cases hvalue
  · rw [Store.authored?, ha, Cell.read?_eq_ok_iff, Option.bind_some, hprevious] at hvalue
    cases previous with
    | none => cases hvalue
    | some value =>
      cases hvalue
      rfl

/-- Where an op is made, the tokens of the order are what is taken back first. -/
theorem journal_of_ensure {op : Op} {order : OpOrder} (horder : tx.store.order id = .ok order)
    (hmissing : order.at? recipe.position = none)
    (h : (ensure id recipe).on tx = (.ok op, tx')) :
    ∃ names older,
      tx'.journal = .changed id Op.orderName .default (some (.tokens names)) :: older := by
  obtain ⟨tx₁, tx₂, hadd, hcompanion, hsort⟩ := (ensure_eq_ok_iff_of_missing horder hmissing).1 h
  -- From the first addition on the order attribute holds tokens.
  have hadds : ∀ (s s' : Store) op, s.addOp id op = .ok (some s') →
      ∃ names, s'.orderTokens? id = .ok (some names) := by
    intro s s' op hs
    obtain ⟨hhas, -, -, tokens, -, -, -, rfl⟩ := Store.addOp_eq_ok_iff.1 hs
    exact ⟨_, Store.orderTokens?_putTokens (by rw [Store.declare, Store.has_alter, hhas]) _⟩
  have hfirst : ∃ names, tx₁.store.orderTokens? id = .ok (some names) := by
    obtain ⟨-, htaken⟩ := add_eq_ok_iff.1 hadd
    obtain ⟨-, edits, s, -, hs, rfl⟩ := Transaction.addOp_eq_ok_iff.1 htaken
    exact hadds _ s _ hs
  have hkeeps : (addCompanion id recipe order).Keeps
      fun tx => ∃ names, tx.store.orderTokens? id = .ok (some names) := by
    refine addCompanion_keeps (fun tx inverse htx => ?_) order
    exact Transaction.addOp_keeps (Q := fun s => ∃ names, s.orderTokens? id = .ok (some names))
      htx fun s' hs' => hadds tx.store s' _ hs'
  have hmid := hkeeps tx₁ hfirst
  rw [hcompanion] at hmid
  obtain ⟨names, hnames⟩ := hmid
  exact ⟨names, tx₂.journal, journal_of_sort hnames hsort⟩

end Arrangement

end TransformStack
