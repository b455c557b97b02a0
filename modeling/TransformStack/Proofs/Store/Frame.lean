import TransformStack.Proofs.Store.Independence

/-!
# What writes leave alone

A store is within the frame of another if it differs from it at most in attributes of one entity
that go by given names, and there only in whether an attribute is there and in the value that does
not vary with time. Settling a value and putting tokens into an order keep within the frame.
-/

namespace TransformStack

/-- At most the given attributes of an entity differ, in their existence and in the value that does
not vary with time. -/
structure Store.Framed (id : EntityId) (names : List String) (before after : Store) : Prop where
  readOnly : after.readOnly = before.readOnly
  entities : ∀ id', id' ≠ id → after.entities[id']? = before.entities[id']?
  path : after.path? id = before.path? id
  proxy : after.isProxy id = before.isProxy id
  others : ∀ name, name ∉ names → after.find? id name = before.find? id name
  kept : ∀ name a, before.find? id name = some a →
    ∃ fixed, after.find? id name = some { a with fixed }
  created : ∀ name a, before.find? id name = none → after.find? id name = some a →
    ∃ type fixed, a = { Attribute.ofType type with fixed }

namespace Store

variable {s before mid after : Store} {id : EntityId} {name : String} {names : List String}

/-! ## Changes of one attribute -/

/-- A change of an attribute leaves the other entities. -/
theorem entities_alter_of_ne {id' : EntityId} (hne : id' ≠ id)
    (change : Option Attribute → Option Attribute) :
    (s.alter id name change).entities[id']? = s.entities[id']? := by
  rw [alter, Std.ExtTreeMap.getElem?_modify, if_neg]
  exact fun h => hne (Std.LawfulEqOrd.compare_eq_iff_eq.1 h).symm

theorem path?_alter (change : Option Attribute → Option Attribute) :
    (s.alter id name change).path? id = s.path? id := by
  rw [path?, path?, alter, Std.ExtTreeMap.getElem?_modify, if_pos (Std.compare_self)]
  cases s.entities[id]? <;> rfl

theorem isProxy_alter (change : Option Attribute → Option Attribute) :
    (s.alter id name change).isProxy id = s.isProxy id := by
  rw [isProxy, isProxy, entity, entity, alter, Std.ExtTreeMap.getElem?_modify,
    if_pos (Std.compare_self)]
  cases s.entities[id]? <;> rfl

/-- Giving an attribute, created if need be, another value keeps within the frame. -/
theorem framed_alter (type : ValueType) (fixed : Option Cell) :
    s.Framed id [name] (s.alter id name fun a => some { a.getD (.ofType type) with fixed }) := by
  refine ⟨rfl, fun id' hne => entities_alter_of_ne hne _, path?_alter _, isProxy_alter _, ?_, ?_,
    ?_⟩
  · intro name' hname
    rw [find?_alter, if_neg fun hat => hname (List.mem_singleton.2 hat.2.1.symm)]
  · intro name' a ha
    rw [find?_alter, ha]
    split
    · exact ⟨fixed, rfl⟩
    · exact ⟨a.fixed, rfl⟩
  · intro name' a hnone ha
    rw [find?_alter, hnone] at ha
    split at ha
    · exact ⟨type, fixed, (Option.some.inj ha).symm⟩
    · cases ha

/-- Settling a value touches its attribute only. -/
theorem framed_settle (type : ValueType) (value : Value) :
    s.Framed id [name] (s.settle id name type value) :=
  framed_alter type (some (.value value))

/-- Writing the tokens of an order touches the order's attribute only. -/
theorem framed_putTokens (tokens : List String) :
    s.Framed id [Op.orderName] (s.putTokens id tokens) :=
  framed_alter .tokenArray (some (.value (.tokens tokens)))

/-! ## Frames -/

namespace Framed

/-- What touches some attributes only touches no more than any that include them. -/
theorem mono (h : before.Framed id names after) {names' : List String}
    (hnames : ∀ name ∈ names, name ∈ names') : before.Framed id names' after :=
  { h with others := fun name hname => h.others name fun hmem => hname (hnames name hmem) }

/-- Two changes within the same attributes are one within them. -/
theorem trans (h : before.Framed id names mid) (h' : mid.Framed id names after) :
    before.Framed id names after where
  readOnly := h'.readOnly.trans h.readOnly
  entities id' hne := (h'.entities id' hne).trans (h.entities id' hne)
  path := h'.path.trans h.path
  proxy := h'.proxy.trans h.proxy
  others name hname := (h'.others name hname).trans (h.others name hname)
  kept name a ha := by
    obtain ⟨fixed, hmid⟩ := h.kept name a ha
    obtain ⟨fixed', hafter⟩ := h'.kept name _ hmid
    exact ⟨fixed', hafter⟩
  created name a hnone ha := by
    cases hmid : mid.find? id name with
    | none => exact h'.created name a hmid ha
    | some a' =>
      obtain ⟨type, fixed, rfl⟩ := h.created name a' hnone hmid
      obtain ⟨fixed', hafter⟩ := h'.kept name _ hmid
      exact ⟨type, fixed', Option.some.inj (ha.symm.trans hafter)⟩

/-- Other entities read as before. -/
theorem find?_of_ne (h : before.Framed id names after) {id' : EntityId} (hne : id' ≠ id)
    (name : String) : after.find? id' name = before.find? id' name := by
  rw [find?, find?, h.entities id' hne]

/-- A change of one entity leaves the orders of the others. -/
theorem order_of_ne (h : before.Framed id names after) {id' : EntityId} (hne : id' ≠ id) :
    after.order id' = before.order id' := by
  refine order_congr ?_ ?_ fun name => ?_
  · rw [has, has, h.entities id' hne]
  · rw [orderTokens?, orderTokens?, authored?, authored?, h.find?_of_ne hne]
  · rw [record?, record?, h.find?_of_ne hne]

end Framed

end Store

end TransformStack
