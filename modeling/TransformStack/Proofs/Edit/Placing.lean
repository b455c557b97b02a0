import TransformStack.Proofs.Edit.Arrangement
import TransformStack.Proofs.Store.Independence

/-!
# The store that asking for an op leads to

Asking for an op that is missing declares its attribute and writes the order with the additions of
the recipe sorted into it; nothing else remains of the steps on the way. It goes through exactly if
the store accepts the op, each op of the order has a position, and the layer refuses no write.
-/

namespace TransformStack

/-! ## Refusals -/

namespace Refusals

/-- The refusals once so many ops have been added, unless one of them is refused. -/
def added (refusals : Refusals) : Nat → Option Refusals
  | 0 => some refusals
  | count + 1 =>
    if (Layer.countAdd refusals).2 then none else (Layer.countAdd refusals).1.added count

variable {refusals after : Refusals}

/-- Adding ops uses up no refusal of orders. -/
theorem orders_added {count : Nat} (h : refusals.added count = some after) :
    after.orders = refusals.orders := by
  induction count generalizing refusals with
  | zero =>
    obtain rfl := Option.some.inj h
    rfl
  | succ count ih =>
    rw [added] at h
    split at h
    · cases h
    · rw [ih h, Layer.countAdd]
      split <;> rfl

/-- Without refusals any number of ops can be added. -/
theorem added_of_none (count : Nat) : ({} : Refusals).added count = some {} := by
  induction count with
  | zero => rfl
  | succ count ih => exact ih

/-- Additions are counted one after the other. -/
theorem added_add (refusals : Refusals) (count count' : Nat) :
    refusals.added (count + count') = (refusals.added count).bind (·.added count') := by
  induction count generalizing refusals with
  | zero =>
    rw [Nat.zero_add]
    rfl
  | succ count ih =>
    rw [Nat.add_right_comm, added, added, ih]
    split <;> rfl

/-- Additions that are not refused are not refused in the other order. -/
theorem added_swap {mid : Refusals} {count count' : Nat} (h : refusals.added count = some mid)
    (h' : mid.added count' = some after) :
    ∃ mid', refusals.added count' = some mid' ∧ mid'.added count = some after := by
  have hsum := added_add refusals count' count
  rw [Nat.add_comm, added_add, h, Option.bind_some, h'] at hsum
  exact Option.bind_eq_some_iff.1 hsum.symm

/-- Adding one op more is counted as the op and then the others. -/
theorem added_succ_eq_some_iff {count : Nat} :
    refusals.added (count + 1) = some after ↔
      (Layer.countAdd refusals).2 = false ∧
        (Layer.countAdd refusals).1.added count = some after := by
  rw [added]
  cases (Layer.countAdd refusals).2 <;> simp

end Refusals

/-! ## Writes that are taken -/

namespace Transaction

variable {tx : Transaction} {id : EntityId} {s : Store}

/-- What stands in an order that can be read can be noted before a write. -/
theorem exists_before (hrecord : ∃ record, tx.store.record? id Op.orderName = .ok record)
    (htokens : ∃ tokens, tx.store.orderTokens? id = .ok tokens) :
    ∃ edit, Edit.before tx.store id Op.orderName .default = .ok edit := by
  obtain ⟨record, hrecord⟩ := hrecord
  obtain ⟨tokens, htokens⟩ := htokens
  obtain ⟨value, hvalue, -⟩ := bind_eq_ok_iff.1 htokens
  cases record with
  | none => exact ⟨_, bind_eq_ok_iff.2 ⟨none, hrecord, rfl⟩⟩
  | some record =>
    exact ⟨_, bind_eq_ok_iff.2 ⟨some record, hrecord, bind_eq_ok_iff.2 ⟨value, hvalue, rfl⟩⟩⟩

/-- An op that the store takes and the layer does not refuse is added. -/
theorem addOp_of_store {op : Op} (hcount : (Layer.countAdd tx.layer.refusals).2 = false)
    (hadd : tx.store.addOp id op = .ok (some s)) :
    ∃ tx', tx.addOp id op = (.ok true, tx') ∧
      tx'.layer = { store := s, refusals := (Layer.countAdd tx.layer.refusals).1 } := by
  obtain ⟨-, -, ⟨record, horder, -⟩, tokens, htokens, -, ⟨record', hrecord, -⟩, -⟩ :=
    Store.addOp_eq_ok_iff.1 hadd
  obtain ⟨edit, hedit⟩ := exists_before ⟨record, horder⟩ ⟨tokens, htokens⟩
  have hedits := Edit.beforeAdding_eq_ok_iff.2 ⟨edit, record', hedit, hrecord, rfl⟩
  exact ⟨_, addOp_eq_ok_iff.2 ⟨hcount, _, s, hedits, hadd, rfl⟩, rfl⟩

/-- An order that the store takes and the layer does not refuse is written. -/
theorem setOrder_of_store {order : OpOrder} (horders : tx.layer.refusals.orders = false)
    (htokens : ∃ tokens, tx.store.orderTokens? id = .ok tokens)
    (hset : tx.store.setOrder id order = .ok (some s)) :
    ∃ tx', tx.setOrder id order = (.ok true, tx') ∧ tx'.layer = { tx.layer with store := s } := by
  obtain ⟨-, -, hrecord, -⟩ := Store.setOrder_eq_ok_iff.1 hset
  obtain ⟨edit, hedit⟩ := exists_before hrecord htokens
  exact ⟨_, setOrder_eq_ok_iff.2 ⟨horders, edit, s, hedit, hset, rfl⟩, rfl⟩

end Transaction

/-! ## Ops that a store accepts -/

namespace Store

variable {s s' : Store} {id : EntityId} {op : Op} {order : OpOrder}

/-- The store takes an op of this name and type into an order that does not have it. -/
structure Accepts (s : Store) (id : EntityId) (op : Op) : Prop where
  writable : s.readOnly = false
  unlocked : s.Unlocked id Op.orderName
  fits : s.Fits id op.attributeName op.valueType

/-- The store once an op is declared and tokens are in the order. -/
def placed (s : Store) (id : EntityId) (op : Op) (tokens : List String) : Store :=
  (s.declare id op.attributeName op.valueType).putTokens id tokens

/-- Whether an op is placed once or twice, what counts are the tokens that come last. -/
theorem placed_placed (op op' : Op) (hname : op'.attributeName = op.attributeName)
    (htype : op'.valueType = op.valueType) (tokens tokens' : List String) :
    (s.placed id op tokens).placed id op' tokens' = s.placed id op tokens' := by
  rw [placed, placed, placed, hname, htype, declare_putTokens op.attributeName_ne_orderName,
    declare_declare, putTokens_putTokens]

/-- A store that accepted an op accepts the other op that applies its attribute. -/
theorem Accepts.placed (h : s.Accepts id op) (hhas : s.has id) (op' : Op)
    (hname : op'.attributeName = op.attributeName) (htype : op'.valueType = op.valueType)
    (tokens : List String) : (s.placed id op tokens).Accepts id op' := by
  have hhas' : (s.declare id op.attributeName op.valueType).has id := by
    rw [declare, has_alter, hhas]
  refine ⟨h.writable, ?_, ?_⟩
  · refine (unlocked_alter_getD (f := fun a => { a with fixed := _ }) hhas' ?_ ?_).2 ?_
    · exact fun _ => rfl
    · exact fun _ => rfl
    · rw [Unlocked, declare, record?_alter_of_ne op.attributeName_ne_orderName]
      exact h.unlocked
  · rw [Fits, hname, htype, Store.placed, putTokens,
      record?_alter_of_ne op.attributeName_ne_orderName.symm]
    exact h.fits.alter_getD (f := fun a => a) hhas (fun _ => rfl) fun _ => rfl

/-- An op that is not in the order can be added if the store accepts it. -/
theorem Accepts.addOp (h : s.Accepts id op) (horder : s.order id = .ok order)
    (hnew : op.name ∉ order.ops.map Op.name) :
    ∃ tokens, s.addOp id op = .ok (some (s.placed id op tokens)) := by
  obtain ⟨hhas, tokens, htokens, hnames, -⟩ := order_eq_ok_iff.1 horder
  refine ⟨_, addOp_eq_ok_iff.2
    ⟨hhas, h.writable, h.unlocked, tokens, htokens, fun hmem => hnew ?_, h.fits, rfl⟩⟩
  rw [← hnames, List.mem_filter]
  exact ⟨hmem, by simpa using op.name_ne_resetToken⟩

/-- What is added to a store was accepted, and was placed. -/
theorem accepts_of_addOp (h : s.addOp id op = .ok (some s')) :
    s.Accepts id op ∧ ∃ tokens, s' = s.placed id op tokens := by
  obtain ⟨-, hopen, hunlocked, tokens, -, -, hfits, rfl⟩ := addOp_eq_ok_iff.1 h
  exact ⟨⟨hopen, hunlocked, hfits⟩, _, rfl⟩

end Store

/-! ## Ops that are missing -/

/-- Sort ops into an order. -/
def OpOrder.sortIn (order : OpOrder) (ops : List Op) : OpOrder :=
  { order with ops := Op.byPosition (order.ops ++ ops) }

/-- An order without an op at the position of an op has none of its name. -/
theorem OpOrder.name_notMem {order : OpOrder} {op : Op} {p : Position}
    (hplace : Position.ofOp? op = some p) (hmissing : order.at? p = none) :
    op.name ∉ order.ops.map Op.name := by
  intro hmem
  obtain ⟨op', hop', hname⟩ := List.mem_map.1 hmem
  -- A name tells all of an op but its precision, and that says nothing about the position.
  have hparse : Op.parse? op'.name op.precision = some { op' with precision := op.precision } :=
    Op.parse?_eq_some_iff.2 ⟨rfl, rfl⟩
  have hsame : op = { op' with precision := op.precision } :=
    Option.some.inj ((Op.parse?_eq_some_iff.2 ⟨hname, rfl⟩).symm.trans hparse)
  have hplace' : Position.ofOp? op' = some p := by
    rw [hsame] at hplace
    exact hplace
  exact absurd hplace' (by simpa using List.find?_eq_none.1 hmissing op' hop')

namespace Arrangement

variable {tx tx' : Transaction} {id : EntityId} {recipe : Recipe} {order : OpOrder} {op : Op}
  {layer : Layer}

/-- What adding an op leads to. -/
theorem layer_of_add {inverse : Bool} (hadd : (add id recipe inverse).on tx = (.ok op, tx')) :
    op = recipe.op inverse ∧ tx.store.Accepts id op ∧
      (Layer.countAdd tx.layer.refusals).2 = false ∧
      ∃ tokens, tx'.layer = { store := tx.store.placed id op tokens,
                              refusals := (Layer.countAdd tx.layer.refusals).1 } := by
  obtain ⟨rfl, htaken⟩ := add_eq_ok_iff.1 hadd
  obtain ⟨hcount, edits, s, -, hstore, rfl⟩ := Transaction.addOp_eq_ok_iff.1 htaken
  obtain ⟨haccepts, tokens, rfl⟩ := Store.accepts_of_addOp hstore
  exact ⟨rfl, haccepts, hcount, tokens, rfl⟩

/-- An op that is not in the order is added if store and layer take it. -/
theorem exists_add {inverse : Bool} (horder : tx.store.order id = .ok order)
    (hnew : (recipe.op inverse).name ∉ order.ops.map Op.name)
    (haccepts : tx.store.Accepts id (recipe.op inverse))
    (hcount : (Layer.countAdd tx.layer.refusals).2 = false) :
    ∃ tx' tokens, (add id recipe inverse).on tx = (.ok (recipe.op inverse), tx') ∧
      tx'.layer = { store := tx.store.placed id (recipe.op inverse) tokens,
                    refusals := (Layer.countAdd tx.layer.refusals).1 } := by
  obtain ⟨tokens, hstore⟩ := haccepts.addOp horder hnew
  obtain ⟨tx', htaken, hlayer⟩ := Transaction.addOp_of_store hcount hstore
  exact ⟨tx', tokens, add_eq_ok_iff.2 ⟨rfl, htaken⟩, hlayer⟩

/-- What adding all that a recipe lacks leads to. -/
theorem layer_of_additions {u : Unit} {mid : Transaction}
    (hadd : (add id recipe recipe.position.isInverse).on tx = (.ok op, mid))
    (hcompanion : (addCompanion id recipe order).on mid = (.ok u, tx')) :
    tx.store.Accepts id op ∧ ∃ tokens refusals,
      tx.layer.refusals.added (recipe.additions order).length = some refusals ∧
      tx'.layer = { store := tx.store.placed id op tokens, refusals } := by
  obtain ⟨rfl, haccepts, hcount, tokens, hmid⟩ := layer_of_add hadd
  refine ⟨haccepts, ?_⟩
  rcases addCompanion_cases id recipe order with ⟨hadditions, hnone⟩ | ⟨q, -, -, hadditions, hsome⟩
  · rw [hnone] at hcompanion
    cases hcompanion
    rw [hadditions]
    exact ⟨tokens, _, Refusals.added_succ_eq_some_iff.2 ⟨hcount, rfl⟩, hmid⟩
  · rw [hsome] at hcompanion
    obtain ⟨other, last, hother, hpure⟩ := Steps.bind_eq_ok_iff.1 hcompanion
    cases hpure
    obtain ⟨rfl, -, hcount', tokens', hlast⟩ := layer_of_add hother
    have hstore : mid.store = tx.store.placed id (recipe.op recipe.position.isInverse) tokens :=
      Session.store_eq hmid
    rw [hmid] at hcount' hlast
    rw [hstore, Store.placed_placed (recipe.op recipe.position.isInverse)
      (recipe.op q.isInverse) rfl rfl] at hlast
    rw [hadditions]
    exact ⟨tokens', _, Refusals.added_succ_eq_some_iff.2
      ⟨hcount, Refusals.added_succ_eq_some_iff.2 ⟨hcount', rfl⟩⟩, hlast⟩

/-- All that a recipe lacks is added if store and layer take it. -/
theorem exists_additions (hfits : recipe.Fits) (horder : tx.store.order id = .ok order)
    (hmissing : order.at? recipe.position = none)
    (haccepts : tx.store.Accepts id (recipe.op recipe.position.isInverse)) {refusals : Refusals}
    (hcount : tx.layer.refusals.added (recipe.additions order).length = some refusals) :
    ∃ mid tx' tokens,
      (add id recipe recipe.position.isInverse).on tx =
        (.ok (recipe.op recipe.position.isInverse), mid) ∧
      (addCompanion id recipe order).on mid = (.ok (), tx') ∧
      tx'.layer =
        { store := tx.store.placed id (recipe.op recipe.position.isInverse) tokens, refusals } := by
  have hfirst : (Layer.countAdd tx.layer.refusals).2 = false := by
    rw [Recipe.additions, List.length_cons, Refusals.added_succ_eq_some_iff] at hcount
    exact hcount.1
  obtain ⟨mid, tokens, hadd, hmid⟩ := exists_add horder
    (OpOrder.name_notMem hfits.ofOp? hmissing) haccepts hfirst
  rcases addCompanion_cases id recipe order with
    ⟨hadditions, hnone⟩ | ⟨q, hcompanion, hlacks, hadditions, hsome⟩
  · rw [hadditions] at hcount
    obtain ⟨-, hlast⟩ := Refusals.added_succ_eq_some_iff.1 hcount
    cases hlast
    exact ⟨mid, mid, tokens, hadd, by rw [hnone]; rfl, hmid⟩
  · rw [hadditions] at hcount
    obtain ⟨-, hrest⟩ := Refusals.added_succ_eq_some_iff.1 hcount
    obtain ⟨hsecond, hlast⟩ := Refusals.added_succ_eq_some_iff.1 hrest
    cases hlast
    have hhas := (Store.order_eq_ok_iff.1 horder).1
    obtain ⟨-, horder'⟩ := order_of_add horder hadd
    have hstore : mid.store = tx.store.placed id (recipe.op recipe.position.isInverse) tokens :=
      Session.store_eq hmid
    have haccepts' : mid.store.Accepts id (recipe.op q.isInverse) := by
      rw [hstore]
      exact haccepts.placed hhas (recipe.op q.isInverse) rfl rfl tokens
    -- The first half is in the order by now, but not at the position of the other.
    have hmissing' : OpOrder.at? { order with
        ops := order.ops ++ [(recipe.op recipe.position.isInverse).stored] } q = none := by
      have hne := Position.ne_of_companion hcompanion
      rw [OpOrder.at?] at hlacks ⊢
      rw [List.find?_append, hlacks]
      simp [hfits.ofOp?, hne]
    have hcount' : (Layer.countAdd mid.layer.refusals).2 = false := by
      rw [hmid]
      exact hsecond
    obtain ⟨tx', tokens', hadd', hlayer⟩ := exists_add horder'
      (OpOrder.name_notMem (hfits.ofOp?_companion hcompanion) hmissing') haccepts' hcount'
    rw [hstore, Store.placed_placed (recipe.op recipe.position.isInverse)
      (recipe.op q.isInverse) rfl rfl, hmid] at hlayer
    refine ⟨mid, tx', tokens', hadd, ?_, hlayer⟩
    rw [hsome]
    exact Steps.bind_eq_ok_iff.2 ⟨_, tx', hadd', rfl⟩

/-- What sorting leads to. -/
theorem layer_of_sort {u : Unit} (horder : tx.store.order id = .ok order)
    (hsort : (sort id).on tx = (.ok u, tx')) :
    tx.layer.refusals.orders = false ∧
      tx'.layer = { tx.layer with
        store := tx.store.putTokens id { order with ops := Op.byPosition order.ops }.tokens } := by
  obtain ⟨-, htaken⟩ := (sort_eq_ok_iff horder).1 hsort
  obtain ⟨horders, edit, s, -, hset, rfl⟩ := Transaction.setOrder_eq_ok_iff.1 htaken
  obtain ⟨-, -, -, rfl⟩ := Store.setOrder_eq_ok_iff.1 hset
  exact ⟨horders, rfl⟩

/-- Sorting goes through where each op has a position, if store and layer take the order. -/
theorem exists_sort (horder : tx.store.order id = .ok order)
    (hplaced : ∀ op ∈ order.ops, ∃ p, Position.ofOp? op = some p)
    (hopen : tx.store.readOnly = false) (hunlocked : tx.store.Unlocked id Op.orderName)
    (horders : tx.layer.refusals.orders = false) :
    ∃ tx', (sort id).on tx = (.ok (), tx') ∧ tx'.layer = { tx.layer with
      store := tx.store.putTokens id { order with ops := Op.byPosition order.ops }.tokens } := by
  obtain ⟨hhas, tokens, htokens, -⟩ := Store.order_eq_ok_iff.1 horder
  obtain ⟨record, hrecord, -⟩ := hunlocked
  have hset := Store.setOrder_eq_ok_iff.2 ⟨hhas, hopen, ⟨record, hrecord⟩,
    (rfl : _ = tx.store.putTokens id { order with ops := Op.byPosition order.ops }.tokens)⟩
  obtain ⟨tx', htaken, hlayer⟩ := Transaction.setOrder_of_store horders ⟨tokens, htokens⟩ hset
  exact ⟨tx', (sort_eq_ok_iff horder).2 ⟨hplaced, htaken⟩, hlayer⟩

/-- Asking for an op that is missing goes through exactly if store and layer take what the recipe
lacks, and every op of the order has a position. The additions are then sorted into the order. -/
theorem ensure_missing_iff (hfits : recipe.Fits) (horder : tx.store.order id = .ok order)
    (hmissing : order.at? recipe.position = none) :
    (∃ tx', (ensure id recipe).on tx = (.ok op, tx') ∧ tx'.layer = layer) ↔
      op = recipe.op recipe.position.isInverse ∧ tx.store.Accepts id op ∧
        (∀ op ∈ order.ops, ∃ p, Position.ofOp? op = some p) ∧
        tx.layer.refusals.orders = false ∧ ∃ refusals,
          tx.layer.refusals.added (recipe.additions order).length = some refusals ∧
          layer = { refusals, store := tx.store.placed id op (order.sortIn
            ((recipe.additions order).map Op.stored)).tokens } := by
  simp only [ensure_eq_ok_iff_of_missing horder hmissing]
  constructor
  · rintro ⟨tx', ⟨mid, last, hadd, hcompanion, hsort⟩, rfl⟩
    obtain ⟨hop, horder₂⟩ := order_of_additions horder hadd hcompanion
    obtain ⟨haccepts, tokens, refusals, hcount, hlayer⟩ := layer_of_additions hadd hcompanion
    obtain ⟨hplaced, -⟩ := order_of_sort horder₂ hsort
    obtain ⟨horders, hlayer'⟩ := layer_of_sort horder₂ hsort
    rw [hlayer, Refusals.orders_added hcount] at horders
    refine ⟨hop, haccepts, fun op hop => hplaced op (List.mem_append_left _ hop), horders, refusals,
      hcount, ?_⟩
    rw [hlayer', hlayer, Session.store_eq hlayer]
    simp only [Store.placed, Store.putTokens_putTokens]
    rfl
  · rintro ⟨rfl, haccepts, hplaced, horders, refusals, hcount, rfl⟩
    have hhas := (Store.order_eq_ok_iff.1 horder).1
    obtain ⟨mid, tx₂, tokens, hadd, hcompanion, hlayer⟩ :=
      exists_additions hfits horder hmissing haccepts hcount
    obtain ⟨-, horder₂⟩ := order_of_additions horder hadd hcompanion
    have hstore : tx₂.store = _ := Session.store_eq hlayer
    have haccepts₂ : tx₂.store.Accepts id (recipe.op recipe.position.isInverse) := by
      rw [hstore]
      exact haccepts.placed hhas _ rfl rfl tokens
    have hplaced₂ := OpOrder.exists_ofOp?_of_additions hfits hplaced
    have horders₂ : tx₂.layer.refusals.orders = false := by
      rw [hlayer, Refusals.orders_added hcount, horders]
    obtain ⟨tx', hsort, hlayer'⟩ :=
      exists_sort horder₂ hplaced₂ haccepts₂.writable haccepts₂.unlocked horders₂
    refine ⟨tx', ⟨mid, tx₂, hadd, hcompanion, hsort⟩, ?_⟩
    rw [hlayer', hlayer, hstore]
    simp only [Store.placed, Store.putTokens_putTokens]
    rfl

end Arrangement

end TransformStack
