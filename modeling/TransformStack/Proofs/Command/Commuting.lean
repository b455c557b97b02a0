import TransformStack.Proofs.Command.Redoing
import TransformStack.Proofs.Edit.Placing

/-!
# Commands at different positions

A command that has not been executed settles its value on the attribute of one op, and sorts the ops
that are missing into the order. Commands at different positions settle their values on different
attributes, and add ops at different positions, so neither changes what the other needs or does:
they can be executed in either order. By exchanging neighbours, so can all orders of a list.
-/

namespace TransformStack

/-! ## Positions that are apart -/

namespace Position

variable {p p' q : Position}

/-- One half of each pivot pair is the inverse. -/
theorem isInverse_of_companion (h : p.companion = some q) : q.isInverse = !p.isInverse := by
  cases p <;> cases q <;> first | rfl | cases h

/-- A position is that of a recipe, or the other half of its pair. -/
def InPair (q p : Position) : Prop := q = p ∨ p.companion = some q

/-- Upright positions that differ are not of one pair. -/
theorem InPair.eq (h : q.InPair p) (h' : q.InPair p') (hp : p.isInverse = false)
    (hp' : p'.isInverse = false) : p = p' := by
  rcases h with rfl | hcompanion
  · rcases h' with rfl | hcompanion'
    · rfl
    · have hinverse := isInverse_of_companion hcompanion'
      simp [hp, hp'] at hinverse
  · rcases h' with rfl | hcompanion'
    · have hinverse := isInverse_of_companion hcompanion
      simp [hp, hp'] at hinverse
    · rw [companion_symm] at hcompanion hcompanion'
      exact Option.some.inj (hcompanion.symm.trans hcompanion')

end Position

/-! ## What a recipe makes of an order -/

namespace Recipe

variable {recipe recipe' : Recipe} {order : OpOrder}

/-- The op that a recipe asks for: the first at its position, else the one that it makes. -/
def opIn (recipe : Recipe) (order : OpOrder) : Op :=
  (order.at? recipe.position).getD (recipe.op recipe.position.isInverse)

/-- What asking for the op of a recipe adds to an order, as the order will read it. -/
def added (recipe : Recipe) (order : OpOrder) : List Op :=
  match order.at? recipe.position with
  | some _ => []
  | none => (recipe.additions order).map Op.stored

/-- The order once the op of a recipe was asked for. Nothing is sorted where nothing is added. -/
def arrange (recipe : Recipe) (order : OpOrder) : OpOrder :=
  match order.at? recipe.position with
  | some _ => order
  | none => order.sortIn (recipe.added order)

/-- An order that has an op at the position stays as it is. -/
theorem arrange_of_some {op : Op} (hat : order.at? recipe.position = some op) :
    recipe.arrange order = order := by
  rw [arrange, hat]

/-- The op that a recipe finds or makes stands at its position. -/
theorem ofOp?_opIn (hfits : recipe.Fits) (order : OpOrder) :
    Position.ofOp? (recipe.opIn order) = some recipe.position := by
  unfold opIn
  cases hat : order.at? recipe.position with
  | none => exact hfits.ofOp?
  | some op => simpa using List.find?_some hat

/-- Arranging an order for a recipe leaves the ops at all positions that the recipe does not add
to. -/
theorem at?_arrange (hfits : recipe.Fits) {p : Position}
    (hp : p ∉ order.lacking recipe.position) : (recipe.arrange order).at? p = order.at? p := by
  unfold arrange added
  split
  · rfl
  · have hnone :
        ((recipe.additions order).map Op.stored).filter (Position.ofOp? · = some p) = [] := by
      rw [List.filter_eq_nil_iff]
      intro op hop hat
      obtain ⟨q, hq, hplace⟩ := OpOrder.ofOp?_of_mem_additions hfits hop
      rw [decide_eq_true_eq, hplace] at hat
      exact hp (Option.some.inj hat ▸ hq)
    rw [OpOrder.at?, OpOrder.at?, ← List.head?_filter, ← List.head?_filter, OpOrder.sortIn,
      Op.filter_byPosition, List.filter_append, hnone, List.append_nil]

/-- Two recipes make ops at different positions, neither of which is the inverse of a pair. -/
structure Apart (recipe recipe' : Recipe) : Prop where
  fits : recipe.Fits
  upright : recipe.position.isInverse = false
  fits' : recipe'.Fits
  upright' : recipe'.position.isInverse = false
  ne : recipe.position ≠ recipe'.position

namespace Apart

/-- Recipes that are apart are so either way round. -/
theorem symm (h : recipe.Apart recipe') : recipe'.Apart recipe :=
  ⟨h.fits', h.upright', h.fits, h.upright, h.ne.symm⟩

/-- A recipe adds no op at a position of a recipe apart from it. -/
theorem notMem_lacking (h : recipe.Apart recipe') {q : Position}
    (hq : q.InPair recipe'.position) : q ∉ order.lacking recipe.position := by
  intro hmem
  have hpair : q.InPair recipe.position := (OpOrder.mem_lacking.1 hmem).imp_right And.left
  exact h.ne (hpair.eq hq h.upright h.upright')

/-- Arranging for one recipe leaves the op that a recipe apart from it finds. -/
theorem at?_arrange (h : recipe.Apart recipe') {q : Position} (hq : q.InPair recipe'.position) :
    (recipe.arrange order).at? q = order.at? q :=
  Recipe.at?_arrange h.fits (h.notMem_lacking hq)

/-- The op that the one asks for is the same once the other was asked for. -/
theorem opIn_arrange (h : recipe.Apart recipe') (order : OpOrder) :
    recipe'.opIn (recipe.arrange order) = recipe'.opIn order := by
  rw [opIn, h.at?_arrange (.inl rfl), opIn]

/-- What the one adds is the same once the other was asked for. -/
theorem added_arrange (h : recipe.Apart recipe') (order : OpOrder) :
    recipe'.added (recipe.arrange order) = recipe'.added order := by
  have hadditions : recipe'.additions (recipe.arrange order) = recipe'.additions order := by
    rw [additions, additions]
    cases hcompanion : recipe'.position.companion with
    | none => rfl
    | some q =>
      dsimp only
      rw [h.at?_arrange (.inr hcompanion)]
  rw [added, h.at?_arrange (.inl rfl), hadditions, added]

/-- The ops that the two ask for apply different attributes. -/
theorem attributeName_ne (h : recipe.Apart recipe') (order order' : OpOrder) :
    (recipe.opIn order).attributeName ≠ (recipe'.opIn order').attributeName := by
  refine Position.attributeName_ne (ofOp?_opIn h.fits order) (ofOp?_opIn h.fits' order') h.ne ?_
  intro hcompanion
  have hinverse := Position.isInverse_of_companion hcompanion
  simp [h.upright, h.upright'] at hinverse

/-- Orders can be arranged for the two in either order. -/
theorem arrange_comm (h : recipe.Apart recipe') (order : OpOrder) :
    recipe'.arrange (recipe.arrange order) = recipe.arrange (recipe'.arrange order) := by
  rw [arrange, h.at?_arrange (.inl rfl), h.added_arrange, arrange, arrange,
    h.symm.at?_arrange (.inl rfl), h.symm.added_arrange, arrange]
  cases hat : order.at? recipe.position with
  | some op => cases order.at? recipe'.position <;> rfl
  | none =>
    cases hat' : order.at? recipe'.position with
    | some op' => rfl
    | none =>
      simp only [OpOrder.sortIn, Op.byPosition_byPosition_append]
      rw [Op.byPosition_append_comm]
      intro op hop op' hop' hsame
      simp only [added, hat, hat'] at hop hop'
      obtain ⟨q, hq, hplace⟩ := OpOrder.ofOp?_of_mem_additions h.fits hop
      obtain ⟨q', hq', hplace'⟩ := OpOrder.ofOp?_of_mem_additions h.fits' hop'
      obtain rfl : q = q' := Option.some.inj (hplace.symm.trans (hsame.trans hplace'))
      exact h.notMem_lacking ((OpOrder.mem_lacking.1 hq').imp_right And.left) hq

end Apart

end Recipe

/-! ## What a write needs of a store -/

namespace Store

variable {s : Store} {id : EntityId} {op : Op} {value : Value} {tokens : List String}

/-- The attribute of an op, or a new one in its place, has the type of a value and holds nothing
that is damaged. -/
def Takes (s : Store) (id : EntityId) (op : Op) (value : Value) : Prop :=
  let a := (s.find? id op.attributeName).getD (.ofType op.valueType)
  (∃ type, a.declared = .known type ∧ value.type? = some type) ∧
    ∃ previous, a.fixed = Option.map .value previous

/-- A placed op has an attribute, the one that was there or a new one. -/
theorem find?_placed (hhas : s.has id) (op : Op) (tokens : List String) :
    (s.placed id op tokens).find? id op.attributeName =
      some ((s.find? id op.attributeName).getD (.ofType op.valueType)) := by
  rw [placed, find?_putTokens_of_ne op.attributeName_ne_orderName, declare, find?_alter,
    if_pos ⟨rfl, rfl, hhas⟩]

/-- Placing an op does not change whether its attribute takes a value. -/
theorem takes_placed (hhas : s.has id) :
    (s.placed id op tokens).Takes id op value ↔ s.Takes id op value := by
  rw [Takes, Takes, find?_placed hhas, Option.getD_some]

/-- A value that is settled once its op was placed is settled as if the op had been there. -/
theorem settle_placed :
    (s.placed id op tokens).settle id op.attributeName op.valueType value =
      (s.settle id op.attributeName op.valueType value).putTokens id tokens := by
  rw [placed, settle_putTokens op.attributeName_ne_orderName, settle, settle, declare, alter_alter]
  congr 1

end Store

/-- A value that the attribute of an op takes is settled on it. -/
theorem Transaction.setValue_iff {tx : Transaction} {id : EntityId} {op : Op} {value : Value}
    {a : Attribute} (ha : tx.store.find? id op.attributeName = some a) {layer : Layer} :
    (∃ tx', tx.setValue id op.attributeName value .default = (.ok true, tx') ∧
        tx'.layer = layer) ↔
      tx.store.readOnly = false ∧ tx.store.Takes id op value ∧ layer = { tx.layer with
        store := tx.store.settle id op.attributeName op.valueType value } := by
  have hsettle : tx.store.alter id op.attributeName
      (·.map (·.setCell (some (.value value)) .default)) =
        tx.store.settle id op.attributeName op.valueType value := by
    refine Store.alter_congr ?_
    rw [ha]
    rfl
  simp only [Store.Takes, ha, Option.getD_some]
  constructor
  · rintro ⟨tx', htaken, rfl⟩
    obtain ⟨previous, s, hprevious, hset, rfl⟩ := setValue_eq_ok_iff.1 htaken
    obtain ⟨hopen, a', type, ha', hdeclared, htype, -, rfl⟩ := Store.setValue_eq_ok_iff.1 hset
    obtain rfl := Option.some.inj (ha.symm.trans ha')
    rw [Store.authored?, ha, Cell.read?_eq_ok_iff] at hprevious
    rw [hsettle]
    exact ⟨hopen, ⟨⟨type, hdeclared, htype⟩, previous, hprevious⟩, rfl⟩
  · rintro ⟨hopen, ⟨⟨type, hdeclared, htype⟩, previous, hprevious⟩, rfl⟩
    have hauthored : tx.store.authored? id op.attributeName .default = .ok previous := by
      rw [Store.authored?, ha, Cell.read?_eq_ok_iff]
      exact hprevious
    have htime : TimeCode.default.time?.any (·.isNaN) = false := rfl
    have hset := Store.setValue_eq_ok_iff.2
      ⟨hopen, a, type, ha, hdeclared, htype, htime, hsettle.symm⟩
    exact ⟨_, setValue_eq_ok_iff.2 ⟨previous, _, hauthored, hset, rfl⟩, rfl⟩

/-- On a store where the op was placed, its value is settled as if the op had been there. -/
theorem Transaction.setValue_placed_iff {tx : Transaction} {s : Store} {id : EntityId} {op : Op}
    {value : Value} {tokens : List String} (hhas : s.has id)
    (hstore : tx.store = s.placed id op tokens) {layer : Layer} :
    (∃ tx', tx.setValue id op.attributeName value .default = (.ok true, tx') ∧
        tx'.layer = layer) ↔
      s.readOnly = false ∧ s.Takes id op value ∧ layer = { tx.layer with
        store := (s.settle id op.attributeName op.valueType value).putTokens id tokens } := by
  have hfind := Store.find?_placed hhas op tokens
  rw [← hstore] at hfind
  have hreadOnly : (s.placed id op tokens).readOnly = s.readOnly := rfl
  rw [setValue_iff hfind, hstore, Store.takes_placed hhas, Store.settle_placed, hreadOnly]

namespace Command

variable {c d : Command} {value value' : Vector3} {s : Store} {order : OpOrder}
  {stored stored' : Value}

/-- The store once a command settled a value, where the order read as `order` before. -/
def leave (c : Command) (s : Store) (order : OpOrder) (stored : Value) : Store :=
  let op := c.recipe.opIn order
  let settled := s.settle c.entity op.attributeName op.valueType stored
  match order.at? c.recipe.position with
  | some _ => settled
  | none => settled.putTokens c.entity (c.recipe.arrange order).tokens

/-- What a command that has not been executed needs of a store to settle a value in it. -/
structure Settles (c : Command) (value : Vector3) (s : Store) (order : OpOrder)
    (stored : Value) : Prop where
  reads : s.order c.entity = .ok order
  converts : c.converter.store (c.recipe.opIn order) value = .ok stored
  writable : s.readOnly = false
  takes : s.Takes c.entity (c.recipe.opIn order) stored
  room : order.at? c.recipe.position = none → s.Accepts c.entity (c.recipe.opIn order) ∧
    ∀ op ∈ order.ops, ∃ p, Position.ofOp? op = some p

/-- Writing the value of a command takes one layer to another. -/
def Moves (c : Command) (value : Vector3) (before after : Layer) : Prop :=
  ∃ order stored refusals, c.Settles value before.store order stored ∧
    (order.at? c.recipe.position = none → before.refusals.orders = false) ∧
    before.refusals.added (c.recipe.added order).length = some refusals ∧
    after = { store := c.leave before.store order stored, refusals }

/-- Where the op is in the order, all that a command leaves is the value. -/
theorem leave_of_some {op : Op} (hat : order.at? c.recipe.position = some op) :
    c.leave s order stored = s.settle c.entity op.attributeName op.valueType stored := by
  rw [leave, hat, Recipe.opIn, hat, Option.getD_some]

/-- Where the op is missing, a command leaves the value and an order with its additions. -/
theorem leave_of_none (hat : order.at? c.recipe.position = none) :
    c.leave s order stored =
      (s.settle c.entity (c.recipe.opIn order).attributeName (c.recipe.opIn order).valueType
        stored).putTokens c.entity
          (order.sortIn ((c.recipe.additions order).map Op.stored)).tokens := by
  rw [leave, hat, Recipe.arrange, hat, Recipe.added, hat]

/-- An op that is in the order is the one that the recipe finds. -/
theorem opIn_of_some {op : Op} (hat : order.at? c.recipe.position = some op) :
    c.recipe.opIn order = op := by
  rw [Recipe.opIn, hat, Option.getD_some]

/-- Where the order has the op of a command, the value is settled on that. -/
theorem write_found_iff (hop : c.op = none) {tx : Transaction} {op : Op}
    (horder : tx.store.order c.entity = .ok order)
    (hat : order.at? c.recipe.position = some op) {after : Layer} :
    (∃ op tx', (c.write value).on tx = (.ok op, tx') ∧ tx'.layer = after) ↔
      c.Moves value tx.layer after := by
  have htarget : c.target.on tx = (.ok op, tx) := by
    rw [target_on horder, opIn?_of_none hop, hat]
  obtain ⟨record, hrecord, -⟩ :=
    Store.backs_of_order horder op (List.mem_of_find?_eq_some hat)
  obtain ⟨a, ha, -⟩ := Store.record?_eq_some_iff.1 hrecord
  have hopIn := opIn_of_some hat
  constructor
  · rintro ⟨op', tx', hrun, rfl⟩
    obtain ⟨mid, stored, htarget', hstored, hset⟩ := write_eq_ok_iff.1 hrun
    cases htarget.symm.trans htarget'
    obtain ⟨hopen, htakes, hlayer⟩ := (Transaction.setValue_iff ha).1 ⟨tx', hset, rfl⟩
    rw [← hopIn] at hstored htakes
    refine ⟨order, stored, tx.layer.refusals,
      ⟨horder, hstored, hopen, htakes, fun hnone => ?_⟩, fun hnone => ?_, ?_, ?_⟩
    · cases hat.symm.trans hnone
    · cases hat.symm.trans hnone
    · rw [Recipe.added, hat]
      rfl
    · rw [hlayer, leave_of_some hat]
      rfl
  · rintro ⟨order', stored, refusals, hsettles, -, hcount, rfl⟩
    obtain rfl : order = order' := Except.ok.inj (horder.symm.trans hsettles.reads)
    have hconverts := hsettles.converts
    have htakes := hsettles.takes
    rw [hopIn] at hconverts htakes
    obtain ⟨tx', hset, hlayer⟩ :=
      (Transaction.setValue_iff ha).2 ⟨hsettles.writable, htakes, rfl⟩
    refine ⟨op, tx', write_eq_ok_iff.2 ⟨tx, stored, htarget, hconverts, hset⟩, ?_⟩
    rw [Recipe.added, hat] at hcount
    obtain rfl := Option.some.inj hcount
    rw [hlayer, leave_of_some hat]
    rfl

/-- Where the order lacks the op of a command, it is placed, and the value is settled on it. -/
theorem write_missing_iff (hop : c.op = none) (hfits : c.recipe.Fits) {tx : Transaction}
    (horder : tx.store.order c.entity = .ok order)
    (hmissing : order.at? c.recipe.position = none) {after : Layer} :
    (∃ op tx', (c.write value).on tx = (.ok op, tx') ∧ tx'.layer = after) ↔
      c.Moves value tx.layer after := by
  have htarget : c.target = Arrangement.ensure c.entity c.recipe := by rw [target, hop]
  have hhas := (Store.order_eq_ok_iff.1 horder).1
  have hopIn : c.recipe.opIn order = c.recipe.op c.recipe.position.isInverse := by
    rw [Recipe.opIn, hmissing, Option.getD_none]
  constructor
  · rintro ⟨op, tx', hrun, rfl⟩
    obtain ⟨mid, stored, hensure, hstored, hset⟩ := write_eq_ok_iff.1 hrun
    rw [htarget] at hensure
    obtain ⟨rfl, haccepts, hplaced, horders, refusals, hcount, hmid⟩ :=
      (Arrangement.ensure_missing_iff hfits horder hmissing).1 ⟨mid, hensure, rfl⟩
    obtain ⟨hopen, htakes, hlayer⟩ :=
      (Transaction.setValue_placed_iff hhas (Session.store_eq hmid)).1 ⟨tx', hset, rfl⟩
    rw [← hopIn] at hstored htakes hlayer haccepts
    refine ⟨order, stored, refusals,
      ⟨horder, hstored, hopen, htakes, fun _ => ⟨haccepts, hplaced⟩⟩, fun _ => horders, ?_, ?_⟩
    · rw [Recipe.added, hmissing, List.length_map, hcount]
    · rw [hlayer, hmid, leave_of_none hmissing]
      rfl
  · rintro ⟨order', stored, refusals, hsettles, horders, hcount, rfl⟩
    obtain rfl : order = order' := Except.ok.inj (horder.symm.trans hsettles.reads)
    obtain ⟨haccepts, hplaced⟩ := hsettles.room hmissing
    rw [Recipe.added, hmissing, List.length_map] at hcount
    obtain ⟨mid, hensure, hmid⟩ := (Arrangement.ensure_missing_iff hfits horder hmissing).2
      ⟨hopIn, haccepts, hplaced, horders hmissing, refusals, hcount, rfl⟩
    rw [← htarget] at hensure
    obtain ⟨tx', hset, hlayer⟩ :=
      (Transaction.setValue_placed_iff hhas (Session.store_eq hmid)).2
        ⟨hsettles.writable, hsettles.takes, rfl⟩
    refine ⟨_, tx', write_eq_ok_iff.2 ⟨mid, stored, hensure, hsettles.converts, hset⟩, ?_⟩
    rw [hlayer, hmid, leave_of_none hmissing]
    rfl

/-- A command that has not been executed writes a value exactly if that moves the layer. -/
theorem write_iff (hop : c.op = none) (hfits : c.recipe.Fits) (tx : Transaction) {after : Layer} :
    (∃ op tx', (c.write value).on tx = (.ok op, tx') ∧ tx'.layer = after) ↔
      c.Moves value tx.layer after := by
  have hreads {order : OpOrder} (horder : tx.store.order c.entity = .ok order) :
      (∃ op tx', (c.write value).on tx = (.ok op, tx') ∧ tx'.layer = after) ↔
        c.Moves value tx.layer after := by
    cases hat : order.at? c.recipe.position with
    | some op => exact write_found_iff hop horder hat
    | none => exact write_missing_iff hop hfits horder hat
  constructor
  · rintro ⟨op, tx', hrun, hafter⟩
    obtain ⟨mid, stored, htarget, -⟩ := write_eq_ok_iff.1 hrun
    obtain ⟨order, horder, -⟩ := target_eq_ok htarget
    exact (hreads horder).1 ⟨op, tx', hrun, hafter⟩
  · intro hmoves
    have ⟨_, _, _, hsettles, _⟩ := hmoves
    exact (hreads hsettles.reads).2 hmoves

/-! ## What a command leaves to another -/

@[simp] theorem readOnly_leave : (c.leave s order stored).readOnly = s.readOnly := by
  unfold leave
  dsimp only
  split <;> rfl

/-- A command leaves every attribute but that of its op and the order. -/
theorem find?_leave {name : String} (hname : (c.recipe.opIn order).attributeName ≠ name)
    (horder : name ≠ Op.orderName) :
    (c.leave s order stored).find? c.entity name = s.find? c.entity name := by
  unfold leave
  dsimp only
  split
  · exact Store.find?_settle_of_ne hname
  · rw [Store.find?_putTokens_of_ne horder, Store.find?_settle_of_ne hname]

/-- The value of a command stands in the attribute of its op. -/
theorem find?_leave_self (hhas : s.has c.entity) (order : OpOrder) (stored : Value) :
    let op := c.recipe.opIn order
    (c.leave s order stored).find? c.entity op.attributeName =
      some { (s.find? c.entity op.attributeName).getD (.ofType op.valueType) with
        fixed := some (.value stored) } := by
  intro op
  have hsettle : (s.settle c.entity op.attributeName op.valueType stored).find? c.entity
      op.attributeName = some { (s.find? c.entity op.attributeName).getD (.ofType op.valueType) with
        fixed := some (.value stored) } := by
    rw [Store.settle, Store.find?_alter, if_pos ⟨rfl, rfl, hhas⟩]
    rfl
  unfold leave
  dsimp only
  split
  · exact hsettle
  · rw [Store.find?_putTokens_of_ne op.attributeName_ne_orderName]
    exact hsettle

/-- What a command leaves does not change whether the order is unlocked. -/
theorem unlocked_leave (hhas : s.has c.entity) (order : OpOrder) (stored : Value) :
    (c.leave s order stored).Unlocked c.entity Op.orderName ↔
      s.Unlocked c.entity Op.orderName := by
  have hsettle : (s.settle c.entity (c.recipe.opIn order).attributeName
      (c.recipe.opIn order).valueType stored).Unlocked c.entity Op.orderName ↔
        s.Unlocked c.entity Op.orderName := by
    rw [Store.Unlocked, Store.settle,
      Store.record?_alter_of_ne (c.recipe.opIn order).attributeName_ne_orderName]
    rfl
  unfold leave
  dsimp only
  split
  · exact hsettle
  · rw [← hsettle]
    refine Store.unlocked_alter_getD (f := fun a => { a with fixed := _ }) ?_ ?_ ?_
    · rw [Store.settle, Store.has_alter, hhas]
    · exact fun _ => rfl
    · exact fun _ => rfl

/-- What a command leaves reads with its op in the order. -/
theorem Settles.order_leave (h : c.Settles value s order stored) (hop : c.op = none)
    (hfits : c.recipe.Fits) :
    (c.leave s order stored).order c.entity = .ok (c.recipe.arrange order) := by
  have hmoves : c.Moves value { store := s } { store := c.leave s order stored } :=
    ⟨order, stored, {}, h, fun _ => rfl, Refusals.added_of_none _, rfl⟩
  obtain ⟨op, tx, hrun, hlayer⟩ :=
    (write_iff hop hfits (.start { layer := { store := s } })).2 hmoves
  have hwrites : c.Writes value s (c.leave s order stored) op tx.journal :=
    ⟨tx, hrun, Session.store_eq hlayer, rfl⟩
  rcases hwrites.order_cases h.reads with ⟨hfound, hsame⟩ | ⟨hmissing, -, -, hmade⟩
  · rw [opIn?_of_none hop] at hfound
    rw [hsame, Recipe.arrange, hfound]
  · rw [opIn?_of_none hop] at hmissing
    rw [hmade, Recipe.arrange, hmissing, Recipe.added, hmissing]
    rfl

variable (hapart : c.recipe.Apart d.recipe) (hentity : d.entity = c.entity)

include hapart hentity

/-- What a command leaves is as good for the op of another. -/
theorem takes_leave : (c.leave s order stored).Takes d.entity (d.recipe.opIn order) stored' ↔
    s.Takes d.entity (d.recipe.opIn order) stored' := by
  rw [Store.Takes, Store.Takes, hentity,
    find?_leave (hapart.attributeName_ne order order) (Op.attributeName_ne_orderName _)]

/-- What a command leaves does not change whether another op can be added. -/
theorem accepts_leave (hhas : s.has c.entity) :
    (c.leave s order stored).Accepts d.entity (d.recipe.opIn order) ↔
      s.Accepts d.entity (d.recipe.opIn order) := by
  have hunlocked := unlocked_leave hhas order stored
  have hfits : (c.leave s order stored).Fits c.entity (d.recipe.opIn order).attributeName
      (d.recipe.opIn order).valueType ↔ s.Fits c.entity (d.recipe.opIn order).attributeName
        (d.recipe.opIn order).valueType := by
    rw [Store.Fits, Store.Fits, Store.record?, Store.record?,
      find?_leave (hapart.attributeName_ne order order) (Op.attributeName_ne_orderName _)]
  rw [hentity]
  constructor
  · intro h
    exact ⟨readOnly_leave.symm.trans h.writable, hunlocked.1 h.unlocked, hfits.1 h.fits⟩
  · intro h
    exact ⟨readOnly_leave.trans h.writable, hunlocked.2 h.unlocked, hfits.2 h.fits⟩

/-- What one command needs of a store, it needs of what another leaves. -/
theorem Settles.leave_iff (h : c.Settles value s order stored) (hop : c.op = none) :
    d.Settles value' (c.leave s order stored) (c.recipe.arrange order) stored' ↔
      d.Settles value' s order stored' := by
  have hhas := (Store.order_eq_ok_iff.1 h.reads).1
  have hreads := h.order_leave hop hapart.fits
  have hreads' := h.reads
  rw [← hentity] at hreads hreads'
  -- An order that is sorted has no foreign ops, and one that is to be sorted must not have any.
  have hplaced : (∀ op ∈ (c.recipe.arrange order).ops, ∃ p, Position.ofOp? op = some p) ↔
      ∀ op ∈ order.ops, ∃ p, Position.ofOp? op = some p := by
    unfold Recipe.arrange
    split
    · exact Iff.rfl
    · next hmissing =>
      exact iff_of_true (fun op hop => (Op.mem_byPosition.1 hop).2) (h.room hmissing).2
  constructor
  · rintro ⟨-, hconverts, hopen, htakes, hroom⟩
    rw [hapart.opIn_arrange] at hconverts htakes hroom
    rw [hapart.at?_arrange (.inl rfl), hplaced, accepts_leave hapart hentity hhas] at hroom
    exact ⟨hreads', hconverts, readOnly_leave.symm.trans hopen,
      (takes_leave hapart hentity).1 htakes, hroom⟩
  · rintro ⟨-, hconverts, hopen, htakes, hroom⟩
    refine ⟨hreads, ?_, readOnly_leave.trans hopen, ?_, ?_⟩
    · rwa [hapart.opIn_arrange]
    · rw [hapart.opIn_arrange]
      exact (takes_leave hapart hentity).2 htakes
    · rwa [hapart.opIn_arrange, hapart.at?_arrange (.inl rfl), hplaced,
        accepts_leave hapart hentity hhas]

/-- Two commands leave the same, whichever goes first. -/
theorem leave_comm : d.leave (c.leave s order stored) (c.recipe.arrange order) stored' =
    c.leave (d.leave s order stored') (d.recipe.arrange order) stored := by
  have hne := hapart.attributeName_ne order order
  have hc := (c.recipe.opIn order).attributeName_ne_orderName
  have hd := (d.recipe.opIn order).attributeName_ne_orderName
  have hcomm := hapart.arrange_comm order
  unfold leave
  rw [hapart.at?_arrange (.inl rfl), hapart.symm.at?_arrange (.inl rfl), hapart.opIn_arrange,
    hapart.symm.opIn_arrange, hentity]
  -- Where both sort ops in, the tokens that are put last have the ops of both.
  cases hatc : order.at? c.recipe.position with
  | some op =>
    rw [Recipe.arrange_of_some hatc] at hcomm ⊢
    cases order.at? d.recipe.position with
    | some op' => exact Store.settle_comm hne
    | none =>
      dsimp only
      rw [Store.settle_putTokens hc, Store.settle_comm hne]
  | none =>
    cases hatd : order.at? d.recipe.position with
    | some op' =>
      rw [Recipe.arrange_of_some hatd]
      dsimp only
      rw [Store.settle_putTokens hd, Store.settle_comm hne]
    | none =>
      dsimp only
      rw [Store.settle_putTokens hd, Store.settle_putTokens hc, Store.putTokens_putTokens,
        Store.putTokens_putTokens, Store.settle_comm hne, hcomm]

/-- Two commands move a layer to the same, whichever goes first. -/
theorem Moves.swap {before mid after : Layer} (hopc : c.op = none) (hopd : d.op = none)
    (h : c.Moves value before mid) (h' : d.Moves value' mid after) :
    ∃ mid', d.Moves value' before mid' ∧ c.Moves value mid' after := by
  obtain ⟨order, stored, refusals, hc, horders, hcount, rfl⟩ := h
  obtain ⟨order', stored', refusals', hd, horders', hcount', rfl⟩ := h'
  have hreads := hd.reads
  rw [hentity] at hreads
  obtain rfl : order' = c.recipe.arrange order :=
    Except.ok.inj (hreads.symm.trans (hc.order_leave hopc hapart.fits))
  rw [hapart.at?_arrange (.inl rfl), Refusals.orders_added hcount] at horders'
  rw [hapart.added_arrange] at hcount'
  have hd' : d.Settles value' before.store order stored' :=
    (hc.leave_iff hapart hentity hopc).1 hd
  have hc' : c.Settles value (d.leave before.store order stored') (d.recipe.arrange order) stored :=
    (hd'.leave_iff hapart.symm hentity.symm hopd).2 hc
  obtain ⟨mid', hfirst, hsecond⟩ := Refusals.added_swap hcount hcount'
  refine ⟨{ store := d.leave before.store order stored', refusals := mid' },
    ⟨order, stored', mid', hd', horders', hfirst, rfl⟩,
    d.recipe.arrange order, stored, refusals', hc', ?_, ?_, ?_⟩
  · rw [hapart.symm.at?_arrange (.inl rfl), Refusals.orders_added hfirst]
    exact horders
  · rw [hapart.symm.added_arrange]
    exact hsecond
  · rw [leave_comm hapart hentity]

end Command

end TransformStack
