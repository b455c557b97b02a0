import TransformStack.Proofs.Store.Typing

/-!
# Orders as they are read and written

An order reads as ops if its tokens, but for those that detach the stack, are the names of the ops,
and each op stands on an attribute of its precision. So an order that was written reads as it was
written, an op that was added reads at the end, and authoring a value leaves every order alone.
-/

namespace TransformStack

/-- The name of an op is not the token that detaches a stack. -/
theorem Op.name_ne_resetToken (op : Op) : op.name ≠ Op.resetToken := by
  intro h
  have hparse : Op.parse? Op.resetToken op.precision = some op :=
    Op.parse?_eq_some_iff.2 ⟨h.symm, rfl⟩
  have hnone : Op.parse? Op.resetToken op.precision = none := by cbv
  simp [hnone] at hparse

/-- Reading an op succeeds exactly where parsing it does, with the same op. -/
theorem Op.read_eq_ok_iff {name : String} {precision : Precision} {op : Op} :
    Op.read name precision = .ok op ↔ Op.parse? name precision = some op := by
  unfold Op.read
  cases Op.parse? name precision <;> simp

/-- An op as it is read back from the attribute that was created for it. -/
def Op.stored (op : Op) : Op := { op with precision := op.valueType.precision }

/-- Storing an op keeps its name. -/
@[simp] theorem Op.name_stored (op : Op) : op.stored.name = op.name := rfl

@[simp] theorem Op.attributeName_stored (op : Op) : op.stored.attributeName = op.attributeName :=
  rfl

namespace Store

/-- The attribute of an op is there and tells the precision of the op. -/
def Backs (s : Store) (id : EntityId) (op : Op) : Prop :=
  ∃ record, s.record? id op.attributeName = .ok (some record) ∧
    op.precision = record.type.precision

variable {s s' : Store} {id : EntityId}

/-! ## Reading -/

/-- A token is read as the op that has it as its name, if the op's attribute backs it. -/
theorem readOp_eq_ok_iff {token : String} {op : Op} :
    s.readOp id token = .ok op ↔ token = op.name ∧ s.Backs id op := by
  unfold readOp
  rw [bind_eq_ok_iff]
  constructor
  · rintro ⟨record, hrecord, h⟩
    cases record with
    | none => exact absurd h throw_ne_ok
    | some found =>
      obtain ⟨rfl, hprecision⟩ :=
        Op.parse?_eq_some_iff.1 (Op.read_eq_ok_iff.1 (mapError_eq_ok_iff.1 h))
      rw [Op.splitInverse_name] at hrecord
      exact ⟨rfl, found, hrecord, hprecision.symm⟩
  · rintro ⟨rfl, found, hrecord, hprecision⟩
    rw [Op.splitInverse_name]
    refine ⟨some found, hrecord, mapError_eq_ok_iff.2 (Op.read_eq_ok_iff.2 ?_)⟩
    exact Op.parse?_eq_some_iff.2 ⟨rfl, hprecision.symm⟩

/-- The tokens read as a list of ops are their names, if all of them are backed. -/
theorem mapM_readOp_eq_ok_iff {tokens : List String} {ops : List Op} :
    tokens.mapM (s.readOp id) = .ok ops ↔
      tokens = ops.map Op.name ∧ ∀ op ∈ ops, s.Backs id op := by
  induction tokens generalizing ops with
  | nil => cases ops <;> simp [pure, Except.pure]
  | cons token tokens ih =>
    rw [List.mapM_cons, bind_eq_ok_iff]
    constructor
    · rintro ⟨op, hop, h⟩
      obtain ⟨others, hothers, h⟩ := bind_eq_ok_iff.1 h
      obtain rfl := pure_eq_ok_iff.1 h
      obtain ⟨rfl, hback⟩ := readOp_eq_ok_iff.1 hop
      obtain ⟨rfl, hbacks⟩ := ih.1 hothers
      exact ⟨rfl, List.forall_mem_cons.2 ⟨hback, hbacks⟩⟩
    · rintro ⟨htokens, hbacks⟩
      cases ops with
      | nil => cases htokens
      | cons op others =>
        obtain ⟨hback, hbacks⟩ := List.forall_mem_cons.1 hbacks
        obtain ⟨hname, hnames⟩ := List.cons.inj htokens
        refine ⟨op, readOp_eq_ok_iff.2 ⟨hname, hback⟩, ?_⟩
        rw [bind_eq_ok_iff]
        exact ⟨others, ih.2 ⟨hnames, hbacks⟩, rfl⟩

/-- The order of an entity is what its tokens name, the reset aside, if all of it is backed. -/
theorem order_eq_ok_iff {order : OpOrder} :
    s.order id = .ok order ↔
      s.has id ∧ ∃ tokens, s.orderTokens? id = .ok tokens ∧
        (tokens.getD []).filter (· ≠ Op.resetToken) = order.ops.map Op.name ∧
        (∀ op ∈ order.ops, s.Backs id op) ∧
        order.resets = decide ((tokens.getD []).head? = some Op.resetToken) := by
  unfold Store.order
  constructor
  · intro h
    obtain ⟨e, he, h⟩ := bind_eq_ok_iff.1 h
    obtain ⟨tokens, htokens, h⟩ := bind_eq_ok_iff.1 h
    obtain ⟨ops, hops, h⟩ := bind_eq_ok_iff.1 h
    obtain rfl := pure_eq_ok_iff.1 h
    obtain ⟨hnames, hbacks⟩ := mapM_readOp_eq_ok_iff.1 hops
    exact ⟨has_iff.2 ⟨e, he⟩, tokens, htokens, hnames, hbacks, rfl⟩
  · rintro ⟨hhas, tokens, htokens, hnames, hbacks, hresets⟩
    obtain ⟨e, he⟩ := has_iff.1 hhas
    rw [bind_eq_ok_iff]
    refine ⟨e, he, ?_⟩
    rw [bind_eq_ok_iff]
    refine ⟨tokens, htokens, ?_⟩
    rw [bind_eq_ok_iff]
    refine ⟨order.ops, mapM_readOp_eq_ok_iff.2 ⟨hnames, hbacks⟩, ?_⟩
    rw [pure_eq_ok_iff, ← hresets]

/-- The ops of an order that can be read stand on attributes. -/
theorem backs_of_order {order : OpOrder} (h : s.order id = .ok order) :
    ∀ op ∈ order.ops, s.Backs id op := by
  obtain ⟨-, tokens, -, -, hbacks, -⟩ := order_eq_ok_iff.1 h
  exact hbacks

/-- An order that can be read is typed, if its attribute is declared as a list of tokens. -/
theorem orderTyped_of_declared
    (h : ∀ a, s.find? id Op.orderName = some a → a.declared = .known .tokenArray)
    {order : OpOrder} (horder : s.order id = .ok order) : s.OrderTyped id := by
  intro a ha
  have hdeclared := h a ha
  refine ⟨hdeclared, fun cell hcell => ?_⟩
  obtain ⟨-, tokens, htokens, -⟩ := order_eq_ok_iff.1 horder
  obtain ⟨value, hvalue, hnames⟩ := bind_eq_ok_iff.1 htokens
  rw [authored?, ha] at hvalue
  -- An order that can be read holds tokens, and nothing that is damaged.
  rcases cell with value' | -
  · have hsome : value = some value' := by
      simpa [Attribute.cell?, hcell, Cell.read?, Cell.read, Functor.map, Except.map,
        eq_comm] using hvalue
    rw [hsome] at hnames
    cases value' with
    | tokens names => exact ⟨_, _, rfl, rfl, hdeclared⟩
    | _ => exact absurd hnames throw_ne_ok
  · simp [Attribute.cell?, hcell, Cell.read?, Cell.read, Functor.map, Except.map] at hvalue

/-- Where all orders are declared as tokens, each that can be read is typed. -/
theorem OrdersDeclared.orderTyped (h : s.OrdersDeclared) {order : OpOrder}
    (horder : s.order id = .ok order) : s.OrderTyped id :=
  orderTyped_of_declared (h id) horder

/-! ## Stores that read alike -/

/-- The order of an entity is read from its tokens and from what its attributes are. -/
theorem order_congr (hhas : s'.has id = s.has id) (htokens : s'.orderTokens? id = s.orderTokens? id)
    (hrecords : ∀ name, s'.record? id name = s.record? id name) : s'.order id = s.order id := by
  have hread : s'.readOp id = s.readOp id := by
    funext token
    simp only [readOp, hrecords]
  simp only [order, htokens, hread]
  simp only [has] at hhas
  unfold entity
  cases hs : s.entities[id]? <;> cases hs' : s'.entities[id]? <;> simp_all [bind, Except.bind]

/-- Changing an attribute of another entity leaves the order. -/
theorem order_alter_of_ne {id' : EntityId} (hne : id' ≠ id) (name : String)
    (change : Option Attribute → Option Attribute) :
    (s.alter id' name change).order id = s.order id := by
  refine order_congr (has_alter _ _) ?_ fun name' => ?_
  · rw [orderTokens?, orderTokens?, authored?, authored?, find?_alter, if_neg fun hat => hne hat.1]
  · rw [record?, record?, find?_alter, if_neg fun hat => hne hat.1]

/-- Authoring a value of an op's attribute leaves the order of every entity. -/
theorem order_setValue {id' : EntityId} {op : Op} {value : Value} {time : TimeCode}
    (hset : s.setValue id' op.attributeName value time = .ok (some s')) :
    s'.order id = s.order id := by
  obtain ⟨-, a, type, ha, hdeclared, -, -, rfl⟩ := setValue_eq_ok_iff.1 hset
  refine order_congr (has_alter _ _) ?_ fun name => ?_
  · rw [orderTokens?, orderTokens?, authored?, authored?, find?_alter,
      if_neg fun hat => op.attributeName_ne_orderName hat.2.1]
  · rw [record?, record?, find?_alter]
    by_cases hat : id' = id ∧ op.attributeName = name ∧ s.has id'
    · rw [if_pos hat]
      obtain ⟨rfl, rfl, -⟩ := hat
      simp [ha]
    · rw [if_neg hat]

/-! ## Writing -/

/-- The tokens that were written are the order's. -/
theorem orderTokens?_putTokens (hhas : s.has id) (tokens : List String) :
    (s.putTokens id tokens).orderTokens? id = .ok (some tokens) := by
  rw [orderTokens?, authored?, putTokens, find?_alter, if_pos ⟨rfl, rfl, hhas⟩]
  rfl

/-- Writing an order backs no op and leaves none unbacked. -/
theorem backs_putTokens {op : Op} {tokens : List String} :
    (s.putTokens id tokens).Backs id op ↔ s.Backs id op := by
  rw [Backs, Backs, record?, record?, putTokens, find?_alter,
    if_neg fun hat => op.attributeName_ne_orderName hat.2.1.symm]

/-- Leaving the reset out of the names of ops leaves them all. -/
theorem filter_map_name (ops : List Op) :
    (ops.map Op.name).filter (· ≠ Op.resetToken) = ops.map Op.name := by
  rw [List.filter_eq_self]
  simp [Op.name_ne_resetToken]

/-- An order of ops that stand on attributes reads as it was written. -/
theorem order_setOrder {order : OpOrder} (hbacks : ∀ op ∈ order.ops, s.Backs id op)
    (hset : s.setOrder id order = .ok (some s')) : s'.order id = .ok order := by
  obtain ⟨hhas, -, -, rfl⟩ := setOrder_eq_ok_iff.1 hset
  refine order_eq_ok_iff.2 ⟨by rw [putTokens, has_alter, hhas], _,
    orderTokens?_putTokens hhas _, ?_, fun op hop => backs_putTokens.2 (hbacks op hop), ?_⟩
  · rw [Option.getD_some, OpOrder.tokens, List.filter_append, filter_map_name]
    cases order.resets <;> simp
  · rw [Option.getD_some, OpOrder.tokens]
    cases order.resets with
    | true => simp
    | false => cases order.ops <;> simp [Op.name_ne_resetToken]

/-- An op whose attribute is declared for it is backed as it is stored. -/
theorem backs_declare {op : Op} (hhas : s.has id) {record : Option AttributeRecord}
    (hrecord : s.record? id op.attributeName = .ok record)
    (hsame : record.any (·.type ≠ op.valueType) = false) :
    (s.declare id op.attributeName op.valueType).Backs id op.stored := by
  have hfind : (s.declare id op.attributeName op.valueType).find? id op.attributeName =
      some ((s.find? id op.attributeName).getD (.ofType op.valueType)) := by
    rw [declare, find?_alter, if_pos ⟨rfl, rfl, hhas⟩]
  cases record with
  | none =>
    rw [record?_eq_none_iff.1 hrecord] at hfind
    exact ⟨⟨op.valueType, false⟩, record?_eq_some_iff.2 ⟨_, hfind, rfl, rfl⟩, rfl⟩
  | some record =>
    obtain ⟨a, ha, hdeclared, hlocked⟩ := record?_eq_some_iff.1 hrecord
    rw [ha] at hfind
    have htype : record.type = op.valueType := by simpa using hsame
    refine ⟨record, record?_eq_some_iff.2 ⟨a, hfind, hdeclared, hlocked⟩, ?_⟩
    rw [htype]
    rfl

/-- A declaration leaves every op backed that was. -/
theorem Backs.declare {op : Op} (h : s.Backs id op) (name : String) (type : ValueType) :
    (s.declare id name type).Backs id op := by
  obtain ⟨record, hrecord, hprecision⟩ := h
  refine ⟨record, ?_, hprecision⟩
  obtain ⟨a, ha, hdeclared, hlocked⟩ := record?_eq_some_iff.1 hrecord
  refine record?_eq_some_iff.2 ⟨a, ?_, hdeclared, hlocked⟩
  rw [Store.declare, find?_alter, ha]
  split <;> rfl

/-- An op that is declared but not added does not show in the order. -/
theorem order_declare {order : OpOrder} (horder : s.order id = .ok order) (op : Op)
    (type : ValueType) : (s.declare id op.attributeName type).order id = .ok order := by
  obtain ⟨hhas, tokens, htokens, hnames, hbacks, hresets⟩ := order_eq_ok_iff.1 horder
  refine order_eq_ok_iff.2 ⟨by rw [Store.declare, has_alter, hhas], tokens, ?_, hnames,
    fun op' hop' => (hbacks op' hop').declare _ _, hresets⟩
  rw [← htokens, orderTokens?, orderTokens?, authored?, authored?, Store.declare, find?_alter,
    if_neg fun hat => op.attributeName_ne_orderName hat.2.1]

/-- An op that was added reads at the end of the order, with the precision of its attribute. -/
theorem order_addOp {order : OpOrder} {op : Op} (horder : s.order id = .ok order)
    (hadd : s.addOp id op = .ok (some s')) :
    s'.order id = .ok { order with ops := order.ops ++ [op.stored] } := by
  obtain ⟨hhas, -, -, tokens, htokens, -, ⟨record, hrecord, hsame⟩, rfl⟩ := addOp_eq_ok_iff.1 hadd
  obtain ⟨-, tokens', htokens', hnames, hbacks, hresets⟩ := order_eq_ok_iff.1 horder
  obtain rfl : tokens = tokens' := Except.ok.inj (htokens.symm.trans htokens')
  have hhas' : (s.declare id op.attributeName op.valueType).has id := by
    rw [declare, has_alter, hhas]
  refine order_eq_ok_iff.2 ⟨by rw [putTokens, has_alter, hhas'], _,
    orderTokens?_putTokens hhas' _, ?_, ?_, ?_⟩
  · rw [Option.getD_some, List.filter_append, hnames, List.map_append]
    simp [Op.name_ne_resetToken]
  · intro op' hop'
    rw [backs_putTokens]
    rcases List.mem_append.1 hop' with hold | hnew
    · exact (hbacks op' hold).declare _ _
    · obtain rfl := List.mem_singleton.1 hnew
      exact backs_declare hhas hrecord hsame
  · rw [Option.getD_some]
    show order.resets = _
    rw [hresets]
    cases tokens.getD [] <;> simp [Op.name_ne_resetToken]

end Store

end TransformStack
