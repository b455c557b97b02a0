import TransformStack.Proofs.Store.Order

/-!
# What stores come to hold

A store begins empty and is changed by calls. Authoring a value checks it against the type that the
attribute declares, but an order is put into its attribute whatever that declares. So in every store
that calls lead to, each value has its declared type, except for orders in attributes that were
created for something else.
-/

namespace TransformStack

/-! ## Calls -/

/-- A call that changes a store. -/
inductive StoreCall where
  | create (id : EntityId) (path : String)
  | createAttribute (id : EntityId) (name : String) (type : ValueType)
  | removeAttribute (id : EntityId) (name : String)
  | setValue (id : EntityId) (name : String) (value : Value) (time : TimeCode)
  | clearValue (id : EntityId) (name : String) (time : TimeCode)
  | setOrder (id : EntityId) (order : OpOrder)
  | addOp (id : EntityId) (op : Op)
  | setLocked (id : EntityId) (name : String) (on : Bool)
  | setProxy (id : EntityId) (on : Bool)
  | setReadOnly (on : Bool)

/-- What a store answers to a call: a failure, a refusal, or a new store. -/
def StoreCall.answer (s : Store) : StoreCall → Except StoreError (Option Store)
  | create id path => some <$> s.create id path
  | createAttribute id name type => s.createAttribute id name type
  | removeAttribute id name => .ok (s.removeAttribute id name)
  | setValue id name value time => s.setValue id name value time
  | clearValue id name time => s.clearValue id name time
  | setOrder id order => s.setOrder id order
  | addOp id op => s.addOp id op
  | setLocked id name on => some <$> s.setLocked id name on
  | setProxy id on => some <$> s.setProxy id on
  | setReadOnly on => .ok (some (s.setReadOnly on))

namespace Store

/-- Make a call. One that fails or is refused leaves the store. -/
def perform (s : Store) (call : StoreCall) : Store :=
  match call.answer s with
  | .ok (some s') => s'
  | .ok none | .error _ => s

/-- Make calls one after the other. -/
def run (s : Store) (calls : List StoreCall) : Store := calls.foldl perform s

variable {s s' : Store} {id : EntityId} {name : String}

/-- A call that gives a new store leaves that one. -/
theorem perform_of_ok {call : StoreCall} (h : call.answer s = .ok (some s')) :
    s.perform call = s' := by
  rw [perform, h]

/-- A call that gives none leaves the store. -/
theorem perform_of_not {call : StoreCall} (h : ∀ s', call.answer s ≠ .ok (some s')) :
    s.perform call = s := by
  unfold perform
  split
  · next s' hanswer => exact absurd hanswer (h s')
  · rfl
  · rfl

/-! ## What a call makes of an attribute -/

/-- What stands under a name after a call, given what stood there before. -/
inductive Makes (call : StoreCall) (id : EntityId) (name : String) :
    Option Attribute → Attribute → Prop
  | kept (a : Attribute) : Makes call id name (some a) a
  | created (type : ValueType)
      (h : call = .createAttribute id name type ∨ name ≠ Op.orderName) :
      Makes call id name none (.ofType type)
  | authored (a : Attribute) (value : Value) (time : TimeCode)
      (h : (Cell.value value).Fits a.declared) :
      Makes call id name (some a) (a.setCell (some (.value value)) time)
  | cleared (a : Attribute) (time : TimeCode) : Makes call id name (some a) (a.setCell none time)
  | locked (a : Attribute) (on : Bool) : Makes call id name (some a) { a with locked := on }
  | ordered (a : Option Attribute) (tokens : List String) (h : name = Op.orderName) :
      Makes call id name a
        { a.getD (.ofType .tokenArray) with fixed := some (.value (.tokens tokens)) }

/-- A new entity has no attributes. -/
theorem find?_of_create {path : String} {id' : EntityId} (h : s.create id' path = .ok s') :
    s'.find? id name = s.find? id name := by
  unfold create at h
  split at h
  · cases h
  next hfree =>
  cases h
  rw [find?, find?, Std.ExtTreeMap.getElem?_insert]
  split
  · next hid =>
    obtain rfl := Std.LawfulEqOrd.compare_eq_iff_eq.1 hid
    have hnone : s.entities[id']? = none :=
      Std.ExtTreeMap.getElem?_eq_none fun hmem => hfree (.inl hmem)
    simp [hnone]
  · rfl

/-- Making an entity a proxy leaves all attributes. -/
theorem find?_of_setProxy {id' : EntityId} {on : Bool} (h : s.setProxy id' on = .ok s') :
    s'.find? id name = s.find? id name := by
  obtain ⟨_, -, h⟩ := bind_eq_ok_iff.1 h
  obtain rfl := pure_eq_ok_iff.1 h
  rw [find?, find?, Std.ExtTreeMap.getElem?_modify]
  split
  · next hid =>
    obtain rfl := Std.LawfulEqOrd.compare_eq_iff_eq.1 hid
    cases s.entities[id']? <;> rfl
  · rfl

/-- An attribute that is created is declared, unless it is there already. -/
theorem of_createAttribute {type : ValueType}
    (h : s.createAttribute id name type = .ok (some s')) :
    s' = s ∨ s.find? id name = none ∧ s' = s.declare id name type := by
  obtain ⟨_, -, h⟩ := bind_eq_ok_iff.1 h
  split at h
  · cases h
  obtain ⟨record, hrecord, h⟩ := bind_eq_ok_iff.1 h
  cases record with
  | none =>
    cases h
    exact .inr ⟨record?_eq_none_iff.1 hrecord, rfl⟩
  | some record =>
    dsimp only at h
    split at h
    · cases h
      exact .inl rfl
    · cases h

/-- What one change makes of an attribute is to be shown under its own name only. -/
theorem makes_alter {call : StoreCall} {id' : EntityId} {name' : String}
    {change : Option Attribute → Option Attribute}
    (hchange : ∀ a, change (s.find? id' name') = some a →
      Makes call id' name' (s.find? id' name') a) {a : Attribute}
    (h : (s.alter id' name' change).find? id name = some a) :
    Makes call id name (s.find? id name) a := by
  rw [find?_alter] at h
  split at h
  · next hat =>
    obtain ⟨rfl, rfl, -⟩ := hat
    exact hchange a h
  · rw [h]
    exact .kept a

/-- An attribute after a declaration is one that the call can make of what was there. -/
theorem makes_declare {call : StoreCall} {id' : EntityId} {name' : String} {type : ValueType}
    (hcall : call = .createAttribute id' name' type ∨ name' ≠ Op.orderName) {a : Attribute}
    (h : (s.declare id' name' type).find? id name = some a) :
    Makes call id name (s.find? id name) a := by
  refine makes_alter (fun a ha => ?_) h
  obtain rfl := Option.some.inj ha
  cases s.find? id' name' with
  | none => exact .created type hcall
  | some a => exact .kept a

/-- An attribute after a writing of tokens is one that the call can make of what was there. -/
theorem makes_putTokens {call : StoreCall} {id' : EntityId} {tokens : List String} {a : Attribute}
    (h : (s.putTokens id' tokens).find? id name = some a) :
    Makes call id name (s.find? id name) a := by
  refine makes_alter (fun a ha => ?_) h
  obtain rfl := Option.some.inj ha
  exact .ordered _ tokens rfl

/-- A call that is answered makes of each attribute one of the things that calls make. -/
theorem makes_answer {call : StoreCall} (h : call.answer s = .ok (some s')) {a : Attribute}
    (ha : s'.find? id name = some a) : Makes call id name (s.find? id name) a := by
  have hkept (hsame : s'.find? id name = s.find? id name) :
      Makes call id name (s.find? id name) a := by
    rw [← hsame, ha]
    exact .kept a
  cases call with
  | create id' path =>
    obtain ⟨_, hcreate, hs⟩ := map_eq_ok_iff.1 h
    obtain rfl := Option.some.inj hs
    exact hkept (find?_of_create hcreate)
  | createAttribute id' name' type =>
    rcases of_createAttribute h with rfl | ⟨-, rfl⟩
    · exact hkept rfl
    · exact makes_declare (.inl rfl) ha
  | removeAttribute id' name' =>
    obtain ⟨-, -, rfl⟩ := removeAttribute_eq_some_iff.1 (Except.ok.inj h)
    refine makes_alter (fun a ha => ?_) ha
    cases ha
  | setValue id' name' value time =>
    obtain ⟨-, a', type, ha', hdeclared, htype, -, rfl⟩ := setValue_eq_ok_iff.1 h
    refine makes_alter (fun a ha => ?_) ha
    rw [ha'] at ha ⊢
    obtain rfl := Option.some.inj ha
    exact .authored a' value time ⟨value, type, rfl, htype, hdeclared⟩
  | clearValue id' name' time =>
    obtain ⟨-, a', type, ha', -, rfl⟩ := clearValue_eq_ok_iff.1 h
    refine makes_alter (fun a ha => ?_) ha
    rw [ha'] at ha ⊢
    obtain rfl := Option.some.inj ha
    exact .cleared a' time
  | setOrder id' order =>
    obtain ⟨-, -, -, rfl⟩ := setOrder_eq_ok_iff.1 h
    exact makes_putTokens ha
  | addOp id' op =>
    obtain ⟨-, -, -, tokens, -, -, -, rfl⟩ := addOp_eq_ok_iff.1 h
    -- The two changes are under different names, so at most one of them shows.
    by_cases hname : name = Op.orderName
    · have hsame : (s.declare id' op.attributeName op.valueType).find? id name =
          s.find? id name := by
        rw [declare, find?_alter, if_neg fun hat => op.attributeName_ne_orderName
          (hat.2.1.trans hname)]
      rw [← hsame]
      exact makes_putTokens ha
    · rw [putTokens, find?_alter, if_neg fun hat => hname hat.2.1.symm] at ha
      exact makes_declare (.inr op.attributeName_ne_orderName) ha
  | setLocked id' name' on =>
    obtain ⟨_, hlocked, hs⟩ := map_eq_ok_iff.1 h
    obtain rfl := Option.some.inj hs
    unfold setLocked at hlocked
    split at hlocked
    · next a' ha' =>
      cases hlocked
      refine makes_alter (fun a ha => ?_) ha
      rw [ha'] at ha ⊢
      obtain rfl := Option.some.inj ha
      exact .locked a' on
    · cases hlocked
  | setProxy id' on =>
    obtain ⟨_, hproxy, hs⟩ := map_eq_ok_iff.1 h
    obtain rfl := Option.some.inj hs
    exact hkept (find?_of_setProxy hproxy)
  | setReadOnly on =>
    obtain rfl := Option.some.inj (Except.ok.inj h)
    exact hkept rfl

/-! ## Types of attributes -/

end Store

/-- Everything that an attribute holds has the type that the attribute declares, except that one
for an order may hold an order whatever it declares. -/
structure Attribute.Sound (name : String) (a : Attribute) : Prop where
  declared : ∃ type, a.declared = .known type
  fixed : ∀ cell, a.fixed = some cell →
    cell.Fits a.declared ∨ name = Op.orderName ∧ ∃ tokens, cell = .value (.tokens tokens)
  samples : ∀ (place : SampleTime) cell, a.samples[place]? = some cell → cell.Fits a.declared

/-- The attribute holds an order, but was created for something else. -/
def Attribute.IsMisused (a : Attribute) : Prop :=
  a.declared ≠ .known .tokenArray ∧ ∃ tokens, a.fixed = some (.value (.tokens tokens))

namespace Attribute

variable {name : String} {a : Attribute}

/-- A well typed attribute of a known type is sound. -/
theorem WellTyped.sound (h : a.WellTyped) {type : ValueType} (hdeclared : a.declared = .known type)
    (name : String) : a.Sound name :=
  ⟨⟨type, hdeclared⟩, fun cell hcell => .inl (h.fixed cell hcell), h.samples⟩

/-- A sound attribute is well typed unless it is that of an order and misused. -/
theorem Sound.wellTyped_iff (h : a.Sound name) :
    a.WellTyped ↔ ¬(name = Op.orderName ∧ a.IsMisused) := by
  constructor
  · rintro htyped ⟨-, hdeclared, tokens, htokens⟩
    obtain ⟨value, type, hvalue, htype, hknown⟩ := htyped.fixed _ htokens
    obtain rfl := Cell.value.inj hvalue
    obtain rfl : ValueType.tokenArray = type := Option.some.inj htype
    exact hdeclared hknown
  · intro hused
    refine ⟨fun cell hcell => ?_, h.samples⟩
    rcases h.fixed cell hcell with hfits | ⟨hname, tokens, rfl⟩
    · exact hfits
    · have hdeclared : a.declared = .known .tokenArray :=
        Decidable.byContradiction fun hother => hused ⟨hname, hother, tokens, hcell⟩
      exact ⟨_, _, rfl, rfl, hdeclared⟩

/-- Writing a cell that fits keeps an attribute sound. -/
theorem Sound.setCell (h : a.Sound name) {c : Option Cell} (time : TimeCode)
    (hc : ∀ cell, c = some cell → cell.Fits a.declared) : (a.setCell c time).Sound name := by
  rw [← declared_setCell a c time] at hc
  refine ⟨?_, fun cell hcell => ?_, fun place cell hcell => ?_⟩
  · rw [declared_setCell]
    exact h.declared
  · rcases fixed_setCell hcell with hold | hnew
    · rw [declared_setCell]
      exact h.fixed cell hold
    · exact .inl (hc cell hnew)
  · rcases samples_setCell hcell with hold | hnew
    · rw [declared_setCell]
      exact h.samples place cell hold
    · exact hc cell hnew

end Attribute

namespace Store

variable {s : Store} {call : StoreCall} {id : EntityId} {name : String} {before : Option Attribute}
  {after : Attribute}

/-- What a call makes of a sound attribute is sound. -/
theorem Makes.sound (h : Makes call id name before after)
    (hbefore : ∀ a, before = some a → a.Sound name) : after.Sound name := by
  cases h with
  | kept => exact hbefore _ rfl
  | created type => exact (Attribute.WellTyped.ofType type).sound rfl name
  | authored a value time hfits =>
    refine (hbefore a rfl).setCell time ?_
    rintro cell ⟨⟩
    exact hfits
  | cleared a time => exact (hbefore a rfl).setCell time fun _ hcell => nomatch hcell
  | locked a on =>
    obtain ⟨hdeclared, hfixed, hsamples⟩ := hbefore a rfl
    exact ⟨hdeclared, hfixed, hsamples⟩
  | ordered before tokens hname =>
    have hsound : (before.getD (.ofType .tokenArray)).Sound name := by
      cases before with
      | none => exact (Attribute.WellTyped.ofType _).sound rfl name
      | some a => exact hbefore a rfl
    refine ⟨hsound.declared, ?_, hsound.samples⟩
    rintro cell ⟨⟩
    exact .inr ⟨hname, tokens, rfl⟩

/-- A call that does not create it with another type leaves the attribute of an order declared as a
list of tokens. -/
theorem Makes.declared (h : Makes call id Op.orderName before after)
    (hcall : ∀ type, call = .createAttribute id Op.orderName type → type = .tokenArray)
    (hbefore : ∀ a, before = some a → a.declared = .known .tokenArray) :
    after.declared = .known .tokenArray := by
  cases h with
  | kept => exact hbefore _ rfl
  | created type hcreate =>
    rcases hcreate with hcreate | hname
    · rw [hcall type hcreate]
      rfl
    · exact absurd rfl hname
  | authored a value time => rw [Attribute.declared_setCell, hbefore a rfl]
  | cleared a time => rw [Attribute.declared_setCell, hbefore a rfl]
  | locked a on => exact hbefore a rfl
  | ordered before tokens =>
    cases before with
    | none => rfl
    | some a => exact hbefore a rfl

/-! ## Runs of calls -/

/-- What each call makes of an attribute, a run of calls keeps. -/
theorem forall_run {P : EntityId → String → Attribute → Prop} {calls : List StoreCall}
    (hmakes : ∀ call ∈ calls, ∀ id name before after, Makes call id name before after →
      (∀ a, before = some a → P id name a) → P id name after)
    (h : ∀ id name a, s.find? id name = some a → P id name a) :
    ∀ id name a, (s.run calls).find? id name = some a → P id name a := by
  induction calls generalizing s with
  | nil => exact h
  | cons call calls ih =>
    obtain ⟨hcall, hcalls⟩ := List.forall_mem_cons.1 hmakes
    refine ih hcalls fun id name a ha => ?_
    unfold perform at ha
    split at ha
    · next s' hanswer => exact hcall id name _ a (makes_answer hanswer ha) (h id name)
    · exact h id name a ha
    · exact h id name a ha

/-- An empty store has no attributes. -/
theorem find?_empty (id : EntityId) (name : String) : empty.find? id name = none := by
  simp [find?, empty]

/-- In every store that calls lead to from the empty one, an attribute holds nothing but values of
the type that it declares, unless it is that of an order and misused. Without a call that creates
the attribute of an order with another type none is. -/
theorem wellTyped_run (calls : List StoreCall) :
    (∀ id name a, (empty.run calls).find? id name = some a →
      (a.WellTyped ↔ ¬(name = Op.orderName ∧ a.IsMisused))) ∧
      ((∀ id type, .createAttribute id Op.orderName type ∈ calls → type = .tokenArray) →
        (empty.run calls).WellTyped) := by
  have hsound : ∀ id name a, (empty.run calls).find? id name = some a → a.Sound name :=
    forall_run (P := fun _ name a => a.Sound name)
      (fun _ _ _ _ _ _ hmakes hbefore => hmakes.sound hbefore)
      fun id name a ha => nomatch (find?_empty id name).symm.trans ha
  refine ⟨fun id name a ha => (hsound id name a ha).wellTyped_iff, fun hcalls => ?_⟩
  have hdeclared : (empty.run calls).OrdersDeclared := fun id a ha =>
    forall_run (P := fun _ name a => name = Op.orderName → a.declared = .known .tokenArray)
      (fun call hcall id name before after hmakes hbefore hname => by
        subst hname
        refine hmakes.declared ?_ fun a ha => hbefore a ha rfl
        rintro type rfl
        exact hcalls id type hcall)
      (fun id name a ha => nomatch (find?_empty id name).symm.trans ha) id Op.orderName a ha rfl
  refine ⟨fun id name a ha => (hsound id name a ha).wellTyped_iff.2 ?_, hdeclared⟩
  rintro ⟨rfl, hother, -⟩
  exact hother (hdeclared id a ha)

/-- A translation that is added and authored is typed, as is all that could have come before. -/
theorem wellTyped_run_of_translation :
    let op := Op.make .translate .double none false
    let calls : List StoreCall := [.create default "/a", .addOp default op,
      .setValue default op.attributeName (Value.ofVector .one .double) .default]
    ((empty.run calls).find? default op.attributeName).bind (·.fixed) =
        some (.value (Value.ofVector .one .double)) ∧
      (empty.run calls).WellTyped := by
  intro op calls
  exact ⟨by decide +kernel, (wellTyped_run calls).2 (by simp [calls])⟩

/-- An attribute that is created for a number takes an order. -/
theorem mistyped_order :
    let calls : List StoreCall := [.create default "/a",
      .createAttribute default Op.orderName .float, .setOrder default ⟨[], false⟩]
    ∃ a, (empty.run calls).find? default Op.orderName = some a ∧ ¬a.WellTyped := by
  intro calls
  have hfound : ((empty.run calls).find? default Op.orderName).map
      (fun a => (a.declared, a.fixed)) = some (.known .float, some (.value (.tokens []))) := by
    decide +kernel
  obtain ⟨a, ha, hcells⟩ := Option.map_eq_some_iff.1 hfound
  obtain ⟨hdeclared, hfixed⟩ := Prod.mk.inj hcells
  refine ⟨a, ha, fun htyped => ?_⟩
  obtain ⟨value, type, hvalue, htype, hknown⟩ := htyped.fixed _ hfixed
  obtain rfl := Cell.value.inj hvalue
  obtain rfl : ValueType.tokenArray = type := Option.some.inj htype
  cases hdeclared.symm.trans hknown

end Store

end TransformStack
