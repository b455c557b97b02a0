import TransformStack.Proofs.Edit.Arrangement
import TransformStack.Proofs.Stack.Forming

/-!
# Edits of well formed entities

An edit of a well formed entity leaves it well formed, whatever it adds to the order. It fails only
if the store refuses a write, or if it comes across an attribute whose declared type is none. Such
an attribute can be there without its op, as it has no values then, and is found out when the op is
added.
-/

namespace TransformStack

/-! ## Steps that fail for a reason -/

namespace Steps

variable {α β : Type}

/-- Started on a transaction with one property, steps that succeed leave another, and steps that
fail do so for a reason. -/
def Triple (P : Transaction → Prop) (steps : Steps α) (Q : α → Transaction → Prop)
    (F : EditError → Prop) : Prop :=
  ∀ tx, P tx → (∀ a tx', steps.on tx = (.ok a, tx') → Q a tx') ∧
    ∀ e tx', steps.on tx = (.error e, tx') → F e

namespace Triple

variable {P : Transaction → Prop} {Q : α → Transaction → Prop} {R : β → Transaction → Prop}
  {F : EditError → Prop}

/-- Steps that do nothing leave what holds before them. -/
theorem pure {a : α} (h : ∀ tx, P tx → Q a tx) : Triple P (Pure.pure a) Q F := by
  refine fun tx htx => ⟨?_, ?_⟩
  · rintro _ _ ⟨⟩
    exact h tx htx
  · rintro _ _ ⟨⟩

/-- Steps may be started where more is known. -/
theorem pre {P' : Transaction → Prop} {steps : Steps α} (h : Triple P steps Q F)
    (hP : ∀ tx, P' tx → P tx) : Triple P' steps Q F :=
  fun tx htx => h tx (hP tx htx)

/-- What is known besides the transaction is known throughout. -/
theorem lift {φ : Prop} {steps : Steps α} (h : φ → Triple P steps Q F) :
    Triple (fun tx => φ ∧ P tx) steps Q F :=
  fun tx htx => h htx.1 tx htx.2

/-- Steps go on from what the steps before them leave. -/
theorem bind {steps : Steps α} {next : α → Steps β} (hsteps : Triple P steps Q F)
    (hnext : ∀ a, Triple (Q a) (next a) R F) : Triple P (steps >>= next) R F := by
  refine fun tx htx => ⟨fun b tx' hok => ?_, fun e tx' herror => ?_⟩
  · obtain ⟨a, mid, hfirst, hsecond⟩ := bind_eq_ok_iff.1 hok
    exact (hnext a mid ((hsteps tx htx).1 a mid hfirst)).1 b tx' hsecond
  · rcases bind_eq_error_iff.1 herror with hfirst | ⟨a, mid, hfirst, hsecond⟩
    · exact (hsteps tx htx).2 e tx' hfirst
    · exact (hnext a mid ((hsteps tx htx).1 a mid hfirst)).2 e tx' hsecond

/-- What follows on a question that is always answered may rely on the answer. -/
theorem ask_bind {question : Store → Except StoreError α} {next : α → Steps β}
    (hask : ∀ tx, P tx → ∃ a, question tx.store = .ok a)
    (hnext : ∀ a, Triple (fun tx => P tx ∧ question tx.store = .ok a) (next a) R F) :
    Triple P (Steps.ask question >>= next) R F := by
  intro tx htx
  obtain ⟨a, ha⟩ := hask tx htx
  have hon : (Steps.ask question).on tx = (.ok a, tx) := ask_eq_ok_iff.2 ⟨ha, rfl⟩
  rw [bind_on, hon]
  exact hnext a tx ⟨htx, ha⟩

/-- A write that is required to be taken. -/
theorem tell_require {write : Transaction → Except StoreError Bool × Transaction}
    {cause : StructuralCause} {Q : Transaction → Prop}
    (hok : ∀ tx tx', P tx → write tx = (.ok true, tx') → Q tx')
    (herror : ∀ tx e, P tx → (write tx).1 = .error e → F (.store e))
    (hcause : F (.structural cause)) :
    Triple P (Steps.tell write >>= Steps.require cause) (fun _ => Q) F := by
  refine fun tx htx => ⟨fun u tx' hrun => hok tx tx' htx (tell_require_eq_ok_iff.1 hrun),
    fun e tx' hrun => ?_⟩
  rcases bind_eq_error_iff.1 hrun with htell | ⟨taken, mid, -, hrequire⟩
  · have hanswer : EditError.ofStore (write tx).1 = .error e := (Prod.mk.inj htell).1
    cases hwrite : (write tx).1 with
    | ok taken =>
      rw [hwrite] at hanswer
      cases hanswer
    | error e' =>
      rw [hwrite] at hanswer
      cases hanswer
      exact herror tx e' htx hwrite
  · cases taken with
    | true => cases hrequire
    | false =>
      cases hrequire
      exact hcause

end Triple

end Steps

/-! ## Attributes without a type -/

namespace Store

variable {s s' origin : Store} {id : EntityId} {name : String} {names : List String} {op : Op}

/-- An attribute declares a name that is no type. -/
def Damaged (s : Store) (id : EntityId) (name type : String) : Prop :=
  ∃ a, s.find? id name = some a ∧ a.declared = .unknown type

/-- Why an edit of a well formed entity can fail, if it may add ops to attributes of some names. -/
inductive Excuses (s : Store) (id : EntityId) (names : List String) : EditError → Prop where
  /-- The store refuses a write. -/
  | refused (cause : StructuralCause) : Excuses s id names (.structural cause)
  /-- The op that is there stores a quaternion, for which there are no angles. -/
  | quaternion : Excuses s id names (.data (.unsupportedRotation .orient))
  /-- The attribute of an op to be added is there, and its declared type is none. -/
  | damaged {name type : String} (hname : name ∈ names) (h : s.Damaged id name type) :
      Excuses s id names (.store (.data (.unknownType type)))

/-- A reason to fail remains one on a store with more damage and for more names. -/
theorem Excuses.mono {names' : List String} {e : EditError} (h : s.Excuses id names e)
    (hdamaged : ∀ name type, s.Damaged id name type → s'.Damaged id name type)
    (hnames : ∀ name ∈ names, name ∈ names') : s'.Excuses id names' e := by
  cases h with
  | refused cause => exact .refused cause
  | quaternion => exact .quaternion
  | damaged hname h => exact .damaged (hnames _ hname) (hdamaged _ _ h)

/-- What can keep the record of an attribute from being read is its declared type. -/
theorem record?_eq_error_iff {e : StoreError} :
    s.record? id name = .error e ↔
      ∃ type, s.Damaged id name type ∧ e = .data (.unknownType type) := by
  unfold record? Damaged
  cases s.find? id name with
  | none => simp
  | some a =>
    cases hdeclared : a.declared <;>
      simp [hdeclared, DeclaredType.read, Functor.map, Except.map, eq_comm]

/-- A change that keeps the declared type, or gives the attribute a type, damages nothing. -/
theorem damaged_of_alter {change : Option Attribute → Option Attribute}
    (hchange : ∀ a, change (s.find? id name) = some a →
      (∃ old, s.find? id name = some old ∧ a.declared = old.declared) ∨
        ∃ type, a.declared = .known type)
    {name' type : String} (h : (s.alter id name change).Damaged id name' type) :
    s.Damaged id name' type := by
  obtain ⟨a, ha, hdeclared⟩ := h
  rw [find?_alter] at ha
  split at ha
  · next hat =>
    obtain ⟨-, rfl, -⟩ := hat
    rcases hchange a ha with ⟨old, hold, hsame⟩ | ⟨type', hknown⟩
    · exact ⟨old, hold, hsame.symm.trans hdeclared⟩
    · cases hknown.symm.trans hdeclared
  · exact ⟨a, ha, hdeclared⟩

/-- Declaring an attribute damages nothing. -/
theorem damaged_of_declare {type : ValueType} {name' type' : String}
    (h : (s.declare id name type).Damaged id name' type') : s.Damaged id name' type' := by
  refine damaged_of_alter (fun a ha => ?_) h
  obtain rfl := Option.some.inj ha
  cases s.find? id name with
  | none => exact .inr ⟨type, rfl⟩
  | some old => exact .inl ⟨old, rfl, rfl⟩

/-- Writing tokens damages nothing. -/
theorem damaged_of_putTokens {tokens : List String} {name' type' : String}
    (h : (s.putTokens id tokens).Damaged id name' type') : s.Damaged id name' type' := by
  refine damaged_of_alter (fun a ha => ?_) h
  obtain rfl := Option.some.inj ha
  cases s.find? id Op.orderName with
  | none => exact .inr ⟨.tokenArray, rfl⟩
  | some old => exact .inl ⟨old, rfl, rfl⟩

/-! ## Attributes of ops -/

/-- Declaring an attribute leaves ops carried. -/
theorem Carries.declare (h : s.Carries id op) (name : String) (type : ValueType) :
    (s.declare id name type).Carries id op := by
  obtain ⟨a, ha, hdeclared⟩ := h
  refine ⟨a, ?_, hdeclared⟩
  rw [Store.declare, find?_alter, ha]
  split <;> rfl

/-- Writing tokens leaves ops carried. -/
theorem Carries.putTokens (h : s.Carries id op) (tokens : List String) :
    (s.putTokens id tokens).Carries id op := by
  obtain ⟨a, ha, hdeclared⟩ := h
  refine ⟨a, ?_, hdeclared⟩
  rw [Store.putTokens, find?_alter, ha]
  exact if_neg fun hat => op.attributeName_ne_orderName hat.2.1.symm

/-- Adding an op leaves the others carried. -/
theorem Carries.addOp (h : s.Carries id op) {op' : Op} (hadd : s.addOp id op' = .ok (some s')) :
    s'.Carries id op := by
  obtain ⟨-, -, -, tokens, -, -, -, rfl⟩ := addOp_eq_ok_iff.1 hadd
  exact (h.declare _ _).putTokens _

/-- Setting the order leaves ops carried. -/
theorem Carries.setOrder (h : s.Carries id op) {order : OpOrder}
    (hset : s.setOrder id order = .ok (some s')) : s'.Carries id op := by
  obtain ⟨-, -, -, rfl⟩ := setOrder_eq_ok_iff.1 hset
  exact h.putTokens _

/-- Authoring a value leaves ops carried. -/
theorem Carries.setValue (h : s.Carries id op) {name : String} {value : Value} {time : TimeCode}
    (hset : s.setValue id name value time = .ok (some s')) : s'.Carries id op := by
  obtain ⟨a, ha, hdeclared⟩ := h
  obtain ⟨-, -, -, -, -, -, -, rfl⟩ := setValue_eq_ok_iff.1 hset
  rw [Carries, find?_alter, ha]
  split
  · exact ⟨_, rfl, by rw [Attribute.declared_setCell, hdeclared]⟩
  · exact ⟨a, rfl, hdeclared⟩

/-- An op that was added is carried by its attribute: an attribute of another type is refused. -/
theorem carries_of_addOp (hadd : s.addOp id op = .ok (some s')) : s'.Carries id op := by
  obtain ⟨hhas, -, -, tokens, -, -, ⟨record, hrecord, hsame⟩, rfl⟩ := addOp_eq_ok_iff.1 hadd
  refine Carries.putTokens ?_ _
  refine ⟨(s.find? id op.attributeName).getD (.ofType op.valueType), ?_, ?_⟩
  · rw [declare, find?_alter, if_pos ⟨rfl, rfl, hhas⟩]
  · cases record with
    | none =>
      rw [record?_eq_none_iff.1 hrecord]
      rfl
    | some record =>
      obtain ⟨a, ha, hdeclared, -⟩ := record?_eq_some_iff.1 hrecord
      have htype : record.type = op.valueType := by simpa using hsame
      rw [ha, Option.getD_some, hdeclared, htype]

/-! ## Stores in form -/

/-- The store is well typed and the ops of the entity are carried, and where the type of an
attribute cannot be read, it could not be read in the store to begin with. -/
structure Formed (origin : Store) (id : EntityId) (s : Store) : Prop where
  typed : s.WellTyped
  carried : s.Carried id
  damaged : ∀ name type, s.Damaged id name type → origin.Damaged id name type

namespace Formed

variable (h : Formed origin id s)

include h

/-- The entity of a store in form is there. -/
theorem has : s.has id := by
  obtain ⟨order, horder, -⟩ := h.carried
  exact (order_eq_ok_iff.1 horder).1

/-- The order of a store in form can be read. -/
theorem exists_order : ∃ order, s.order id = .ok order :=
  h.carried.imp fun _ horder => horder.1

/-- The order that is read is the one whose ops are carried. -/
theorem ops_of_order {order : OpOrder} (horder : s.order id = .ok order) :
    ∀ op ∈ order.ops, (∃ p, Position.ofOp? op = some p) ∧ s.Carries id op := by
  obtain ⟨order', horder', hops⟩ := h.carried
  obtain rfl : order = order' := Except.ok.inj (horder.symm.trans horder')
  exact hops

/-- The attribute of the order can be looked up in a store in form. -/
theorem exists_record : ∃ record, s.record? id Op.orderName = .ok record := by
  cases hrecord : s.record? id Op.orderName with
  | ok record => exact ⟨record, rfl⟩
  | error e =>
    obtain ⟨type, ⟨a, ha, hdeclared⟩, -⟩ := record?_eq_error_iff.1 hrecord
    cases (h.typed.orders id a ha).symm.trans hdeclared

/-- What a store in form holds can be read. -/
theorem exists_authored (name : String) (time : TimeCode) :
    ∃ value, s.authored? id name time = .ok value := by
  cases hcell : (s.find? id name).bind (·.cell? time) with
  | none => exact ⟨none, by rw [authored?, hcell]; rfl⟩
  | some cell =>
    obtain ⟨a, ha, hheld⟩ := Option.bind_eq_some_iff.1 hcell
    obtain ⟨value, -, rfl, -⟩ := (h.typed.values id name a ha).cell? hheld
    exact ⟨some value, by rw [authored?, hcell]; rfl⟩

/-- What takes back a write of the order can be noted. -/
theorem exists_before : ∃ edit, Edit.before s id Op.orderName .default = .ok edit := by
  obtain ⟨record, hrecord⟩ := h.exists_record
  obtain ⟨value, hvalue⟩ := h.exists_authored Op.orderName .default
  cases record with
  | none => exact ⟨_, bind_eq_ok_iff.2 ⟨none, hrecord, rfl⟩⟩
  | some record =>
    exact ⟨_, bind_eq_ok_iff.2 ⟨some record, hrecord, bind_eq_ok_iff.2 ⟨value, hvalue, rfl⟩⟩⟩

/-! ### Adding an op -/

/-- An op is added to a store in form unless the type of its attribute cannot be read. -/
theorem addOp_error {e : StoreError} (herror : s.addOp id op = .error e) :
    ∃ type, s.Damaged id op.attributeName type ∧ e = .data (.unknownType type) := by
  obtain ⟨record, hrecord⟩ := h.exists_record
  obtain ⟨order, horder, -⟩ := h.carried
  obtain ⟨hhas, tokens, htokens, -⟩ := order_eq_ok_iff.1 horder
  obtain ⟨entity, hentity⟩ := has_iff.1 hhas
  rw [Store.addOp, hentity, hrecord, htokens] at herror
  -- Of all that is read, only the record of the op's attribute can be unreadable.
  dsimp only [bind, Except.bind] at herror
  split at herror
  · cases herror
  · split at herror
    · cases herror
    · split at herror
      · cases herror
      · split at herror
        · next hfailed =>
          cases herror
          exact record?_eq_error_iff.1 hfailed
        · split at herror <;> cases herror

/-- An op with a position that reads back as it was made leaves a store in form. -/
theorem addOp (hadd : s.addOp id op = .ok (some s'))
    (hplace : ∃ p, Position.ofOp? op = some p) (hstored : op.stored = op) :
    Formed origin id s' := by
  refine ⟨h.typed.addOp hadd, ?_, fun name type hdamaged => h.damaged name type ?_⟩
  · obtain ⟨order, horder, hops⟩ := h.carried
    refine ⟨_, order_addOp horder hadd, fun op' hop' => ?_⟩
    rcases List.mem_append.1 hop' with hold | hnew
    · obtain ⟨hplaced, hcarries⟩ := hops op' hold
      exact ⟨hplaced, hcarries.addOp hadd⟩
    · obtain rfl := List.mem_singleton.1 hnew
      rw [hstored]
      exact ⟨hplace, carries_of_addOp hadd⟩
  · obtain ⟨-, -, -, tokens, -, -, -, rfl⟩ := addOp_eq_ok_iff.1 hadd
    exact damaged_of_declare (damaged_of_putTokens hdamaged)

/-! ### Sorting the order -/

/-- An order can be set in a store in form, or is refused. -/
theorem exists_setOrder (order : OpOrder) : ∃ answer, s.setOrder id order = .ok answer := by
  obtain ⟨record, hrecord⟩ := h.exists_record
  cases hopen : s.readOnly with
  | false => exact ⟨_, setOrder_eq_ok_iff.2 ⟨h.has, hopen, ⟨record, hrecord⟩, rfl⟩⟩
  | true =>
    obtain ⟨entity, hentity⟩ := has_iff.1 h.has
    refine ⟨none, bind_eq_ok_iff.2 ⟨entity, hentity, ?_⟩⟩
    rw [hopen]
    rfl

/-- Sorting the order leaves a store in form. -/
theorem sort {order : OpOrder} (horder : s.order id = .ok order)
    (hset : s.setOrder id { order with ops := Op.byPosition order.ops } = .ok (some s')) :
    Formed origin id s' := by
  refine ⟨h.typed.setOrder hset, ⟨_, order_setOrder (fun op hop => ?_) hset, fun op hop => ?_⟩,
    fun name type hdamaged => h.damaged name type ?_⟩
  · exact backs_of_order horder op (Op.mem_byPosition.1 hop).1
  · obtain ⟨hplace, hcarries⟩ := h.ops_of_order horder op (Op.mem_byPosition.1 hop).1
    exact ⟨hplace, hcarries.setOrder hset⟩
  · obtain ⟨-, -, -, rfl⟩ := setOrder_eq_ok_iff.1 hset
    exact damaged_of_putTokens hdamaged

/-! ### Storing a value -/

omit h in
/-- The attribute of a carried op takes a value of the type of the op, or refuses it. -/
theorem exists_setValue {stored : Value} (hcarries : s.Carries id op)
    (htype : stored.type? = some op.valueType) :
    ∃ answer, s.setValue id op.attributeName stored .default = .ok answer := by
  obtain ⟨a, ha, hdeclared⟩ := hcarries
  cases hopen : s.readOnly with
  | false => exact ⟨_, setValue_eq_ok_iff.2 ⟨hopen, a, _, ha, hdeclared, htype, rfl, rfl⟩⟩
  | true => exact ⟨none, by rw [Store.setValue, hopen]; rfl⟩

/-- Authoring a value leaves a store in form. -/
theorem setValue {stored : Value}
    (hset : s.setValue id op.attributeName stored .default = .ok (some s')) :
    Formed origin id s' := by
  refine ⟨h.typed.setValue hset, ?_, fun name type hdamaged => h.damaged name type ?_⟩
  · obtain ⟨order, horder, hops⟩ := h.carried
    refine ⟨order, (order_setValue hset).trans horder, fun op' hop' => ?_⟩
    obtain ⟨hplace, hcarries⟩ := hops op' hop'
    exact ⟨hplace, hcarries.setValue hset⟩
  · obtain ⟨-, a, type', ha, -, -, -, rfl⟩ := setValue_eq_ok_iff.1 hset
    refine damaged_of_alter (fun a' ha' => .inl ⟨a, ha, ?_⟩) hdamaged
    rw [ha] at ha'
    obtain rfl := Option.some.inj ha'
    exact Attribute.declared_setCell ..

end Formed

end Store

/-! ## Transactions -/

namespace Transaction

open Store

variable {tx : Transaction} {origin : Store} {id : EntityId} {op : Op} {e : StoreError}

/-- Adding an op fails only if what takes it back cannot be noted, or if the store fails. -/
theorem addOp_eq_error (herror : (tx.addOp id op).1 = .error e) :
    Edit.beforeAdding tx.store id op = .error e ∨ tx.store.addOp id op = .error e := by
  revert herror
  rw [addOp_eq]
  cases Edit.beforeAdding tx.store id op with
  | error e' => exact fun herror => .inl (by simpa using herror)
  | ok edits =>
    simp only [Layer.addOp, show tx.layer.store = tx.store from rfl]
    rcases Layer.countAdd tx.layer.refusals with ⟨refusals, - | -⟩
    · rcases tx.store.addOp id op with e' | - | store <;> simp
    · simp

/-- A transaction adds an op to a store in form unless the type of its attribute cannot be read. -/
theorem addOp_error (h : Formed origin id tx.store) (herror : (tx.addOp id op).1 = .error e) :
    ∃ type, tx.store.Damaged id op.attributeName type ∧ e = .data (.unknownType type) := by
  rcases addOp_eq_error herror with hedits | hadd
  · obtain ⟨edit, hedit⟩ := h.exists_before
    rcases bind_eq_error_iff.1 hedits with hnone | ⟨edit', -, hedits⟩
    · cases hedit.symm.trans hnone
    rcases bind_eq_error_iff.1 hedits with hrecord | ⟨record, -, hpure⟩
    · exact record?_eq_error_iff.1 hrecord
    · cases record <;> cases hpure
  · exact h.addOp_error hadd

/-- A transaction sets an order in a store in form, or it is refused. -/
theorem exists_setOrder (h : Formed origin id tx.store) (order : OpOrder) :
    ∃ answer, (tx.setOrder id order).1 = .ok answer := by
  obtain ⟨edit, hedit⟩ := h.exists_before
  obtain ⟨answer, hanswer⟩ := h.exists_setOrder order
  rw [Transaction.setOrder, hedit]
  dsimp only [Layer.setOrder]
  cases tx.layer.refusals.orders with
  | true => exact ⟨false, rfl⟩
  | false =>
    have hlayer : tx.layer.store.setOrder id order = .ok answer := hanswer
    rw [hlayer]
    cases answer <;> exact ⟨_, rfl⟩

/-- A transaction authors a value of the type of a carried op, or it is refused. -/
theorem exists_setValue (h : Formed origin id tx.store) {stored : Value}
    (hcarries : tx.store.Carries id op) (htype : stored.type? = some op.valueType) :
    ∃ answer, (tx.setValue id op.attributeName stored .default).1 = .ok answer := by
  obtain ⟨previous, hprevious⟩ := h.exists_authored op.attributeName .default
  obtain ⟨answer, hanswer⟩ := Formed.exists_setValue hcarries htype
  rw [Transaction.setValue, hprevious, hanswer]
  cases answer <;> exact ⟨_, rfl⟩

end Transaction

/-! ## Arrangements -/

namespace Arrangement

open Store

variable {origin : Store} {id : EntityId} {recipe : Recipe} {names : List String} {made : Op}

/-- The store of a transaction is in form, and ops are carried in it. -/
structure Makes (origin : Store) (id : EntityId) (ops : List Op) (tx : Transaction) : Prop where
  formed : Formed origin id tx.store
  carries : ∀ op ∈ ops, tx.store.Carries id op

/-- Adding an op keeps the store in form, and another op carried. -/
theorem triple_add {inverse : Bool} (hplace : ∃ p, Position.ofOp? (recipe.op inverse) = some p)
    (hstored : (recipe.op inverse).stored = recipe.op inverse)
    (hname : (recipe.op inverse).attributeName ∈ names) {ops : List Op} :
    (add id recipe inverse).Triple (Makes origin id ops)
      (fun op tx => op = recipe.op inverse ∧ Makes origin id (op :: ops) tx)
      (origin.Excuses id names) := by
  rw [add_eq]
  refine .bind (.tell_require (Q := Makes origin id (recipe.op inverse :: ops)) ?_ ?_
    (.refused _)) ?_
  · intro tx tx' h hadd
    obtain ⟨-, edits, s, -, hs, rfl⟩ := Transaction.addOp_eq_ok_iff.1 hadd
    exact ⟨h.formed.addOp hs hplace hstored, List.forall_mem_cons.2
      ⟨carries_of_addOp hs, fun op hop => (h.carries op hop).addOp hs⟩⟩
  · intro tx e h herror
    obtain ⟨type, hdamaged, rfl⟩ := Transaction.addOp_error h.formed herror
    exact .damaged hname (h.formed.damaged _ _ hdamaged)
  · exact fun _ => .pure fun tx h => ⟨rfl, h⟩

section Ensure

variable (hplain : recipe.Plain)
  (hname : ∀ inverse, (recipe.op inverse).attributeName ∈ names)

include hplain hname

/-- Adding the other half of a pair leaves the store in form, or fails for an excusable reason. -/
theorem triple_addCompanion (order : OpOrder) {ops : List Op} :
    (addCompanion id recipe order).Triple (Makes origin id ops) (fun _ => Makes origin id ops)
      (origin.Excuses id names) := by
  rcases addCompanion_cases id recipe order with ⟨-, hnone⟩ | ⟨companion, hcompanion, -, -, hsome⟩
  · rw [hnone]
    exact .pure fun tx h => h
  · rw [hsome]
    have hplace : Position.ofOp? (recipe.op companion.isInverse) = some companion :=
      hplain.fits.ofOp?_companion hcompanion
    refine .bind (triple_add ⟨_, hplace⟩ (hplain.stored _) (hname _)) fun op => ?_
    exact .pure fun tx h => ⟨h.2.formed, (List.forall_mem_cons.1 h.2.carries).2⟩

omit hplain hname in
/-- Sorting leaves the store in form, or fails for an excusable reason. -/
theorem triple_sort {ops : List Op} :
    (sort id).Triple (Makes origin id ops) (fun _ => Makes origin id ops)
      (origin.Excuses id names) := by
  refine .ask_bind (fun tx h => h.formed.exists_order) fun order => ?_
  cases hforeign : order.ops.find? (Position.ofOp? · = none) with
  | some op =>
    rintro tx ⟨h, horder⟩
    -- In an order of ops that are carried, each stands at a position.
    have hnone := OpOrder.find?_foreign_eq_none_iff.2 fun op hop =>
      (h.formed.ops_of_order horder op hop).1
    cases hforeign.symm.trans hnone
  | none =>
    refine .tell_require ?_ ?_ (.refused _)
    · rintro tx tx' ⟨h, horder⟩ hset
      obtain ⟨-, edit, s, -, hs, rfl⟩ := Transaction.setOrder_eq_ok_iff.1 hset
      exact ⟨h.formed.sort horder hs, fun op hop => (h.carries op hop).setOrder hs⟩
    · rintro tx e ⟨h, -⟩ herror
      obtain ⟨answer, hanswer⟩ := Transaction.exists_setOrder h.formed
        { order with ops := Op.byPosition order.ops }
      cases herror.symm.trans hanswer

/-- An op that is asked for stands at its position and is carried, whether it was there or is
made. -/
theorem triple_ensure :
    (ensure id recipe).Triple (Makes origin id [])
      (fun op tx => Position.ofOp? op = some recipe.position ∧ Makes origin id [op] tx)
      (origin.Excuses id names) := by
  refine .ask_bind (fun tx h => h.formed.exists_order) fun order => ?_
  cases hat : order.at? recipe.position with
  | some op =>
    refine .pure fun tx ⟨h, horder⟩ => ?_
    have hcarries := (h.formed.ops_of_order horder op (List.mem_of_find?_eq_some hat)).2
    exact ⟨by simpa using List.find?_some hat, h.formed, List.forall_mem_singleton.2 hcarries⟩
  | none =>
    have hplace : Position.ofOp? (recipe.op recipe.position.isInverse) = some recipe.position :=
      hplain.fits.ofOp?
    refine .bind ((triple_add ⟨_, hplace⟩ (hplain.stored _) (hname _)).pre fun tx h => h.1)
      fun op => .lift ?_
    rintro rfl
    refine .bind (triple_addCompanion hplain hname order) fun _ => .bind triple_sort fun _ => ?_
    exact .pure fun tx h => ⟨hplace, h⟩

end Ensure

end Arrangement

end TransformStack
