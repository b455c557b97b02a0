import TransformStack.Proofs.Command.Origin

/-!
# Rows of calls that each write one value

A value is in place where the op that a command writes to is in the order, and the attribute of the
op holds the value. Calls that each write one value, or nothing, are made one after the other, up to
the first that fails. If the commands edit ops apart from each other, the row leaves the store
exactly where each value it wrote was in place.
-/

namespace TransformStack

/-! ## Values that are there already -/

namespace Store

variable {s s' : Store} {id : EntityId} {name : String} {value : Value}

/-- A value that was set is what is authored. -/
theorem authored?_setValue (hset : s.setValue id name value .default = .ok (some s')) :
    s'.authored? id name .default = .ok (some value) := by
  obtain ⟨-, a, type, ha, -, -, -, rfl⟩ := setValue_eq_ok_iff.1 hset
  rw [authored?, find?_alter, if_pos ⟨rfl, rfl, has_of_find? ha⟩, ha]
  rfl

/-- Authoring the value that is there leaves the store, and nothing else does. -/
theorem setValue_eq_self_iff (hset : s.setValue id name value .default = .ok (some s')) :
    s' = s ↔ s.authored? id name .default = .ok (some value) := by
  constructor
  · rintro rfl
    exact authored?_setValue hset
  · intro hauthored
    obtain ⟨-, a, type, ha, -, -, -, rfl⟩ := setValue_eq_ok_iff.1 hset
    rw [authored?, ha, Cell.read?_eq_ok_iff] at hauthored
    refine alter_of_eq s id name _ ?_
    rw [ha, Option.map_some]
    have hcell : a.cell? .default = some (.value value) := hauthored
    rw [← hcell, Attribute.setCell_cell?]

/-- An op stands at a position of an entity, and an attribute holds a value. -/
structure Holds (s : Store) (id : EntityId) (position : Position) (name : String)
    (value : Value) : Prop where
  op : ∃ order, s.order id = .ok order ∧ (order.at? position).isSome
  value : s.authored? id name .default = .ok (some value)

end Store

/-! ## Ops with one attribute -/

/-- Ops at different positions apply different attributes, but for the halves of a pivot pair. -/
theorem Position.attributeName_ne {p q : Position} {op op' : Op} (hp : Position.ofOp? op = some p)
    (hq : Position.ofOp? op' = some q) (hne : p ≠ q) (hcompanion : p.companion ≠ some q) :
    op.attributeName ≠ op'.attributeName := by
  intro hname
  -- The kind and the suffix of an op can be read off the name, so the ops agree on both.
  have hparts : Op.parts? op.attributeName = some (op.kind, op.suffix) :=
    Op.parts?_eq_some_iff.2 rfl
  have hparts' : Op.parts? op.attributeName = some (op'.kind, op'.suffix) :=
    Op.parts?_eq_some_iff.2 hname
  obtain ⟨hkind, hsuffix⟩ := Prod.mk.inj (Option.some.inj (hparts.symm.trans hparts'))
  rw [Position.ofOp?_eq_some_iff, Position.isPlaceOf, Bool.and_eq_true, Bool.and_eq_true,
    beq_iff_eq, beq_iff_eq] at hp hq
  obtain ⟨⟨hpkind, hpsuffix⟩, -⟩ := hp
  obtain ⟨⟨hqkind, hqsuffix⟩, -⟩ := hq
  have hsame : p.suffix = q.suffix := hpsuffix.trans (hsuffix.trans hqsuffix.symm)
  rw [hkind] at hpkind
  clear hkind hsuffix hpsuffix hqsuffix hparts hparts' hname
  generalize op'.kind = kind at hpkind hqkind
  cases p <;> cases q <;> simp_all [Position.suffix, Position.admits, Position.defaultKind,
    OpKind.isRotation, Position.companion]

namespace Command

variable {c : Command} {value : Vector3} {before after : Store} {op : Op} {journal : Journal}

/-! ## What a write leaves alone -/

/-- A write leaves every attribute that was there, but for the order and the one it authors. -/
theorem Writes.find?_eq (h : c.Writes value before after op journal) {id : EntityId}
    {name : String} {a : Attribute} (ha : before.find? id name = some a)
    (horder : name ≠ Op.orderName) (hname : name ≠ op.attributeName) :
    after.find? id name = some a := by
  obtain ⟨mid, stored, htarget, -, hset⟩ := h.exists_target
  have hkeeps : c.target.Keeps fun tx => tx.store.find? id name = some a := by
    refine target_keeps ?_ ?_
    · intro tx op' htx
      refine Transaction.addOp_keeps (Q := fun s => s.find? id name = some a) htx fun s hadd => ?_
      obtain ⟨-, -, -, tokens, -, -, -, rfl⟩ := Store.addOp_eq_ok_iff.1 hadd
      rw [Store.putTokens, Store.find?_alter, if_neg fun hat => horder hat.2.1.symm,
        Store.declare, Store.find?_alter, htx]
      split <;> rfl
    · intro tx order htx
      refine Transaction.setOrder_keeps (Q := fun s => s.find? id name = some a) htx
        fun s hset => ?_
      obtain ⟨-, -, -, rfl⟩ := Store.setOrder_eq_ok_iff.1 hset
      rw [Store.putTokens, Store.find?_alter, if_neg fun hat => horder hat.2.1.symm, htx]
  have hmid := hkeeps (.start { layer := { store := before } }) ha
  rw [htarget] at hmid
  obtain ⟨-, a', type, -, -, -, -, rfl⟩ := Store.setValue_eq_ok_iff.1 hset
  rw [Store.find?_alter, if_neg fun hat => hname hat.2.1.symm, hmid]

/-- An op that was in the order is written to, and nothing else is. -/
theorem Writes.set_of_found (h : c.Writes value before after op journal) {order : OpOrder}
    (horder : before.order c.entity = .ok order) (hfound : (c.opIn? order).isSome) :
    c.opIn? order = some op ∧ ∃ stored, c.converter.store op value = .ok stored ∧
      before.setValue c.entity op.attributeName stored .default = .ok (some after) := by
  obtain ⟨mid, stored, htarget, hstored, hset⟩ := h.exists_target
  obtain ⟨order', horder', ⟨hop, rfl⟩ | ⟨hmissing, -⟩⟩ := target_eq_ok htarget
  · obtain rfl : order = order' := Except.ok.inj (horder.symm.trans horder')
    exact ⟨hop, stored, hstored, hset⟩
  · obtain rfl : order = order' := Except.ok.inj (horder.symm.trans horder')
    rw [hmissing] at hfound
    cases hfound

/-- After a write an op stands at each position where one stood. -/
theorem Writes.at?_isSome (h : c.Writes value before after op journal) {order : OpOrder}
    (horder : before.order c.entity = .ok order) {p : Position} (hat : (order.at? p).isSome) :
    ∃ order', after.order c.entity = .ok order' ∧ (order'.at? p).isSome := by
  rcases h.order_cases horder with ⟨-, hsame⟩ | ⟨-, -, -, hmade⟩
  · exact ⟨order, hsame, hat⟩
  · obtain ⟨op', hop', hplace⟩ := OpOrder.at?_isSome_iff.1 hat
    refine ⟨_, hmade, OpOrder.at?_isSome_iff.2 ⟨op', ?_, hplace⟩⟩
    exact Op.mem_byPosition.2 ⟨List.mem_append_left _ hop', p, hplace⟩

/-! ## Values in place -/

/-- After a write an op stands at the position of the command, and the value is in its
attribute. -/
theorem Writes.holds (h : c.Writes value before after op journal) {id : EntityId} {p : Position}
    (hat : c.At id p) : ∃ stored, c.converter.store op value = .ok stored ∧
      after.Holds id p op.attributeName stored := by
  obtain ⟨mid, stored, -, hstored, hset⟩ := h.exists_target
  obtain rfl := hat.entity
  refine ⟨stored, hstored, ?_, Store.authored?_setValue hset⟩
  have hplace := hat.ofOp? h
  obtain ⟨order, -, ⟨hfound, hsame⟩ | ⟨-, rfl, -, hmade⟩⟩ := h.order_eq
  · exact ⟨order, hsame, OpOrder.at?_isSome_iff.2 ⟨op, mem_of_opIn? hfound, hplace⟩⟩
  · refine ⟨_, hmade, OpOrder.at?_isSome_iff.2 ⟨(c.recipe.op c.recipe.position.isInverse).stored,
      Op.mem_byPosition.2 ⟨?_, p, hplace⟩, hplace⟩⟩
    exact List.mem_append_right _ (List.mem_map_of_mem List.mem_cons_self)

/-- A write of another command leaves what an op at a position holds, unless it stands at the other
half of the pair. -/
theorem Writes.keeps_holds (h : c.Writes value before after op journal) {id : EntityId}
    {p q : Position} (hat : c.At id q) (hne : p ≠ q) (hcompanion : p.companion ≠ some q)
    {op' : Op} {stored : Value} (hplace : Position.ofOp? op' = some p)
    (hholds : before.Holds id p op'.attributeName stored) :
    after.Holds id p op'.attributeName stored := by
  obtain ⟨⟨order, horder, hsome⟩, hvalue⟩ := hholds
  obtain rfl := hat.entity
  have hname : op'.attributeName ≠ op.attributeName :=
    Position.attributeName_ne hplace (hat.ofOp? h) hne hcompanion
  refine ⟨h.at?_isSome horder hsome, ?_⟩
  unfold Store.authored? at hvalue ⊢
  cases ha : before.find? c.entity op'.attributeName with
  | none =>
    rw [ha] at hvalue
    cases hvalue
  | some a =>
    rw [ha] at hvalue
    rw [h.find?_eq ha op'.attributeName_ne_orderName hname]
    exact hvalue

/-- The op that the command writes to is in the order, and its attribute holds a value. -/
def ValueInPlace (c : Command) (value : Vector3) (s : Store) : Prop :=
  ∃ order op stored, s.order c.entity = .ok order ∧ c.opIn? order = some op ∧
    c.converter.store op value = .ok stored ∧
    s.authored? c.entity op.attributeName .default = .ok (some stored)

/-- Where an op stands at the position of a command and the value in the attribute that the command
will write, the value is in place. -/
theorem valueInPlace_of_holds (h : c.Writes value before after op journal) {id : EntityId}
    {p : Position} (hat : c.At id p) {stored : Value}
    (hstored : c.converter.store op value = .ok stored)
    (hholds : before.Holds id p op.attributeName stored) : c.ValueInPlace value before := by
  obtain ⟨⟨order, horder, hsome⟩, hauthored⟩ := hholds
  obtain rfl := hat.entity
  have hfound : (c.opIn? order).isSome := by
    rw [opIn?, hat.recipe, Option.isSome_or, hsome, Bool.or_true]
  exact ⟨order, op, stored, horder, (h.set_of_found horder hfound).1, hstored, hauthored⟩

/-- A value that is in place is written where it is, so the store stays. -/
theorem ValueInPlace.after_eq (hplace : c.ValueInPlace value before)
    (h : c.Writes value before after op journal) : after = before := by
  obtain ⟨order, op', stored, horder, hfound, hstored, hauthored⟩ := hplace
  obtain ⟨hop, stored', hstored', hset⟩ := h.set_of_found horder (by rw [hfound]; rfl)
  obtain rfl : op' = op := Option.some.inj (hfound.symm.trans hop)
  obtain rfl : stored = stored' := Except.ok.inj (hstored.symm.trans hstored')
  exact (Store.setValue_eq_self_iff hset).2 hauthored

end Command

/-! ## Rows -/

/-- A call on a command that writes one value, or nothing. Where it fails it leaves the store. -/
structure Writer where
  command : Command
  /-- The value that is written, if one is. -/
  value? : Option Vector3
  run : Session → Call Command
  idle : value? = none → ∀ s, (run s).session.store = s.store
  writes : ∀ value, value? = some value → ∀ s, (run s).outcome = .ok () →
    ∃ op journal, command.Writes value s.store (run s).session.store op journal
  refuses : ∀ s e, (run s).outcome = .error e → s.store.OrdersDeclared →
    (run s).session.store = s.store

namespace Writer

/-- Make the calls of a row, up to the first that fails. -/
def runAll : List Writer → Session → Session
  | [], s => s
  | w :: others, s =>
    match (w.run s).outcome with
    | .ok _ => runAll others (w.run s).session
    | .error _ => (w.run s).session

/-- The calls of a row before the first that fails. -/
def ran : List Writer → Session → List Writer
  | [], _ => []
  | w :: others, s =>
    match (w.run s).outcome with
    | .ok _ => w :: ran others (w.run s).session
    | .error _ => []

/-- The value that is to be written, if one is, is in place. -/
def InPlace (w : Writer) (s : Store) : Prop :=
  ∀ value, w.value? = some value → w.command.ValueInPlace value s

variable {w : Writer} {row : List Writer} {s : Session} {id : EntityId}

/-- A call that succeeds writes nothing and leaves the store, or writes its value. -/
theorem ok_cases (hok : (w.run s).outcome = .ok ()) :
    (w.run s).session.store = s.store ∧ w.InPlace s.store ∨
      ∃ value op journal, w.value? = some value ∧
        w.command.Writes value s.store (w.run s).session.store op journal := by
  cases hvalue : w.value? with
  | none => exact .inl ⟨w.idle hvalue s, fun value hsome => nomatch hvalue.symm.trans hsome⟩
  | some value =>
    obtain ⟨op, journal, hwrites⟩ := w.writes value hvalue s hok
    exact .inr ⟨value, op, journal, rfl, hwrites⟩

/-- A row leaves what an op holds at a position that is apart from those of the row. -/
theorem runAll_holds (hat : ∀ w ∈ row, w.command.At id w.command.recipe.position) {p : Position}
    (hapart : ∀ w ∈ row, p ≠ w.command.recipe.position ∧
      p.companion ≠ some w.command.recipe.position)
    (hdeclared : s.store.OrdersDeclared) {op : Op} {stored : Value}
    (hplace : Position.ofOp? op = some p) (hholds : s.store.Holds id p op.attributeName stored) :
    (runAll row s).store.Holds id p op.attributeName stored := by
  induction row generalizing s with
  | nil => exact hholds
  | cons w row ih =>
    rw [List.forall_mem_cons] at hat hapart
    unfold runAll
    split
    · next houtcome =>
      -- A call that succeeds changes nothing, or writes at a position that is apart.
      rcases ok_cases houtcome with ⟨hsame, -⟩ | ⟨value, op', journal, -, hwrites⟩
      · exact ih hat.2 hapart.2 (hsame ▸ hdeclared) (hsame ▸ hholds)
      · exact ih hat.2 hapart.2 (hwrites.ordersDeclared hdeclared)
          (hwrites.keeps_holds hat.1 hapart.1.1 hapart.1.2 hplace hholds)
    · next e houtcome =>
      rw [w.refuses s e houtcome hdeclared]
      exact hholds

/-- A row of calls on commands at positions apart from each other leaves the store exactly where the
values of all calls that succeed were in place. -/
theorem store_runAll_eq_iff (hat : ∀ w ∈ row, w.command.At id w.command.recipe.position)
    (hapart : row.Pairwise fun w w' =>
      w.command.recipe.position ≠ w'.command.recipe.position ∧
        w.command.recipe.position.companion ≠ some w'.command.recipe.position)
    (hdeclared : s.store.OrdersDeclared) :
    (runAll row s).store = s.store ↔ ∀ w ∈ ran row s, w.InPlace s.store := by
  -- On the row, with the store as the calls before left it. One that fails ends the row.
  induction row generalizing s with
  | nil => exact iff_of_true rfl fun w hw => nomatch hw
  | cons w row ih =>
    rw [List.forall_mem_cons] at hat
    rw [List.pairwise_cons] at hapart
    unfold runAll ran
    split
    · next houtcome =>
      rw [List.forall_mem_cons]
      rcases ok_cases houtcome with ⟨hsame, hplace⟩ | ⟨value, op, journal, hvalue, hwrites⟩
      · have hrest := ih hat.2 hapart.2 (s := (w.run s).session) (hsame ▸ hdeclared)
        rw [hsame] at hrest
        rw [hrest]
        exact (and_iff_right hplace).symm
      · have hrest := ih hat.2 hapart.2 (hwrites.ordersDeclared hdeclared)
        obtain ⟨stored, hstored, hholds⟩ := hwrites.holds hat.1
        have hplaced (hplace : w.command.ValueInPlace value s.store) : w.InPlace s.store := by
          intro value' hvalue'
          cases hvalue.symm.trans hvalue'
          exact hplace
        constructor
        · -- What the first call wrote is there in the end, so it was there in the beginning.
          intro hback
          have hend := runAll_holds hat.2 hapart.1 (hwrites.ordersDeclared hdeclared)
            (hat.1.ofOp? hwrites) hholds
          rw [hback] at hend
          have hplace := Command.valueInPlace_of_holds hwrites hat.1 hstored hend
          rw [hplace.after_eq hwrites] at hrest
          exact ⟨hplaced hplace, hrest.1 hback⟩
        · rintro ⟨hplace, hothers⟩
          rw [(hplace value hvalue).after_eq hwrites] at hrest
          exact hrest.2 hothers
    · next e houtcome =>
      exact iff_of_true (w.refuses s e houtcome hdeclared) fun w hw => nomatch hw

end Writer

end TransformStack
