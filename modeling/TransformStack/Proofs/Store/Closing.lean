import TransformStack.Proofs.Store.Runs

/-!
# Stores that are closed to writing

A store that is closed to writing refuses every call that would change an attribute or an order.
Entities can still be added, and attributes can be locked and unlocked; neither changes what there
is to read.
-/

namespace TransformStack

/-- An attribute apart from whether it is locked. -/
def Attribute.unlocked (a : Attribute) : Attribute := { a with locked := false }

namespace Store

/-- The entities of one store are in the other, and all entities have the same attributes, of the
same types and with the same values at all times. -/
structure Frozen (before after : Store) : Prop where
  entities : ∀ id, before.has id → after.has id
  attributes : ∀ id name,
    (after.find? id name).map Attribute.unlocked = (before.find? id name).map Attribute.unlocked

variable {s s' s'' : Store} {id : EntityId} {call : StoreCall}

theorem Frozen.refl (s : Store) : s.Frozen s := ⟨fun _ h => h, fun _ _ => rfl⟩

theorem Frozen.trans (h : s.Frozen s') (h' : s'.Frozen s'') : s.Frozen s'' :=
  ⟨fun id hid => h'.entities id (h.entities id hid),
    fun id name => (h'.attributes id name).trans (h.attributes id name)⟩

/-- An op is read from the type of its attribute. -/
theorem readOp_eq (s : Store) (id : EntityId) (token : String) :
    s.readOp id token =
      match (s.find? id (Op.splitInverse token).1).map Attribute.unlocked with
      | none => .error (.notFound (.opAttribute (Op.splitInverse token).1 id))
      | some a => a.declared.read >>= fun type =>
          StoreError.ofData (Op.read token type.precision) := by
  unfold readOp record?
  dsimp only
  cases s.find? id (Op.splitInverse token).1 with
  | none => rfl
  | some a =>
    rw [Option.map_some]
    dsimp only [Attribute.unlocked]
    cases a.declared.read <;> rfl

/-- The order of an entity stays with its attributes. -/
theorem Frozen.order (h : s.Frozen s') (hhas : s.has id) : s'.order id = s.order id := by
  obtain ⟨e, he⟩ := has_iff.1 hhas
  obtain ⟨e', he'⟩ := has_iff.1 (h.entities id hhas)
  have htokens : s'.orderTokens? id = s.orderTokens? id := by
    have hcell (t : Store) : (t.find? id Op.orderName).bind (·.cell? .default) =
        ((t.find? id Op.orderName).map Attribute.unlocked).bind (·.fixed) := by
      cases t.find? id Op.orderName <;> rfl
    rw [orderTokens?, orderTokens?, authored?, authored?, hcell, hcell, h.attributes]
  have hread : s'.readOp id = s.readOp id := by
    funext token
    rw [readOp_eq, readOp_eq, h.attributes]
  simp only [Store.order, he, he', htokens, hread, bind, Except.bind]

/-! ## Calls on a closed store -/

theorem createAttribute_ne_of_closed (hclosed : s.readOnly = true) {name : String}
    {type : ValueType} : s.createAttribute id name type ≠ .ok (some s') := by
  intro h
  obtain ⟨_, -, h⟩ := bind_eq_ok_iff.1 h
  rw [if_pos hclosed] at h
  cases h

theorem removeAttribute_of_closed (hclosed : s.readOnly = true) (id : EntityId) (name : String) :
    s.removeAttribute id name = none := by
  rw [removeAttribute, if_pos hclosed]

theorem setValue_ne_of_closed (hclosed : s.readOnly = true) {name : String} {value : Value}
    {time : TimeCode} : s.setValue id name value time ≠ .ok (some s') := by
  intro h
  obtain ⟨hopen, -⟩ := setValue_eq_ok_iff.1 h
  rw [hclosed] at hopen
  cases hopen

theorem clearValue_ne_of_closed (hclosed : s.readOnly = true) {name : String}
    {time : TimeCode} : s.clearValue id name time ≠ .ok (some s') := by
  intro h
  obtain ⟨hopen, -⟩ := clearValue_eq_ok_iff.1 h
  rw [hclosed] at hopen
  cases hopen

theorem setOrder_ne_of_closed (hclosed : s.readOnly = true) {order : OpOrder} :
    s.setOrder id order ≠ .ok (some s') := by
  intro h
  obtain ⟨-, hopen, -⟩ := setOrder_eq_ok_iff.1 h
  rw [hclosed] at hopen
  cases hopen

theorem addOp_ne_of_closed (hclosed : s.readOnly = true) {op : Op} :
    s.addOp id op ≠ .ok (some s') := by
  intro h
  obtain ⟨-, hopen, -⟩ := addOp_eq_ok_iff.1 h
  rw [hclosed] at hopen
  cases hopen

/-- Creating an entity leaves all attributes as they were. -/
theorem frozen_of_create {path : String} (h : s.create id path = .ok s') :
    s.Frozen s' ∧ s'.readOnly = s.readOnly := by
  refine ⟨⟨fun id' hid' => ?_, fun id' name => by rw [find?_of_create h]⟩, ?_⟩
  · unfold create at h
    split at h
    · cases h
    · cases h
      rw [has, Std.ExtTreeMap.getElem?_insert]
      split
      · rfl
      · exact hid'
  · unfold create at h
    split at h <;> cases h
    rfl

/-- Locking an attribute changes nothing but its lock. -/
theorem frozen_of_setLocked {name : String} {on : Bool} (h : s.setLocked id name on = .ok s') :
    s.Frozen s' ∧ s'.readOnly = s.readOnly := by
  unfold setLocked at h
  split at h
  · next a ha =>
    cases h
    refine ⟨⟨fun id' hid' => by rw [has_alter, hid'], fun id' name' => ?_⟩, rfl⟩
    rw [find?_alter]
    split
    · next hat =>
      obtain ⟨rfl, rfl, -⟩ := hat
      rw [ha]
      rfl
    · rfl
  · cases h

/-- Making an entity a proxy leaves all attributes as they were. -/
theorem frozen_of_setProxy {on : Bool} (h : s.setProxy id on = .ok s') :
    s.Frozen s' ∧ s'.readOnly = s.readOnly := by
  refine ⟨⟨fun id' hid' => ?_, fun id' name => by rw [find?_of_setProxy h]⟩, ?_⟩
  all_goals
    obtain ⟨_, -, h⟩ := bind_eq_ok_iff.1 h
    obtain rfl := pure_eq_ok_iff.1 h
  · rw [has, Std.ExtTreeMap.getElem?_modify]
    split
    · next hid =>
      obtain rfl := Std.LawfulEqOrd.compare_eq_iff_eq.1 hid
      simpa [has] using hid'
    · exact hid'
  · rfl

/-- Whatever is called on a closed store, unless it is to open it, the store is frozen and stays
closed. -/
theorem frozen_perform (hclosed : s.readOnly = true) (hcall : call ≠ .setReadOnly false) :
    s.Frozen (s.perform call) ∧ (s.perform call).readOnly = true := by
  by_cases hanswer : ∃ s', call.answer s = .ok (some s')
  · obtain ⟨s', hanswer⟩ := hanswer
    rw [perform_of_ok hanswer, ← hclosed]
    cases call with
    | create id path =>
      obtain ⟨_, hcreate, hs⟩ := map_eq_ok_iff.1 hanswer
      obtain rfl := Option.some.inj hs
      exact frozen_of_create hcreate
    | createAttribute id name type => exact absurd hanswer (createAttribute_ne_of_closed hclosed)
    | removeAttribute id name =>
      have hremove : s.removeAttribute id name = some s' := Except.ok.inj hanswer
      rw [removeAttribute_of_closed hclosed] at hremove
      cases hremove
    | setValue id name value time => exact absurd hanswer (setValue_ne_of_closed hclosed)
    | clearValue id name time => exact absurd hanswer (clearValue_ne_of_closed hclosed)
    | setOrder id order => exact absurd hanswer (setOrder_ne_of_closed hclosed)
    | addOp id op => exact absurd hanswer (addOp_ne_of_closed hclosed)
    | setLocked id name on =>
      obtain ⟨_, hlocked, hs⟩ := map_eq_ok_iff.1 hanswer
      obtain rfl := Option.some.inj hs
      exact frozen_of_setLocked hlocked
    | setProxy id on =>
      obtain ⟨_, hproxy, hs⟩ := map_eq_ok_iff.1 hanswer
      obtain rfl := Option.some.inj hs
      exact frozen_of_setProxy hproxy
    | setReadOnly on =>
      obtain rfl := Option.some.inj (Except.ok.inj hanswer)
      cases on with
      | false => exact absurd rfl hcall
      | true => exact ⟨⟨fun _ h => h, fun _ _ => rfl⟩, hclosed.symm⟩
  · rw [perform_of_not fun s' hs' => hanswer ⟨s', hs'⟩]
    exact ⟨.refl s, hclosed⟩

end Store

end TransformStack
