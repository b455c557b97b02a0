import TransformStack.Store.Attribute

/-!
# Stores of entities

A store holds entities, each with a path of its own and named attributes, and can be closed to
writing as a whole. Every change to an attribute is one `alter`, and two stores are equal as soon as
they hold the same entities with the same attributes.
-/

namespace TransformStack

/-- The attributes of an entity by name. -/
abbrev Attributes := Std.ExtTreeMap String Attribute compare

/-- An entity of the scene. -/
structure Entity where
  path : String
  /-- Whether it stands for a part of a shared instance. -/
  isProxy : Bool := false
  attributes : Attributes := ∅

/-- The entities of a scene, and whether they are closed to writing. -/
structure Store where
  readOnly : Bool := false
  entities : Std.ExtTreeMap EntityId Entity compare := ∅

namespace Store

/-- A store without entities. -/
def empty : Store := {}

/-- Whether an entity is there. -/
def has (s : Store) (id : EntityId) : Bool := s.entities[id]?.isSome

/-- An attribute by its entity and its name. -/
def find? (s : Store) (id : EntityId) (name : String) : Option Attribute :=
  s.entities[id]?.bind (·.attributes[name]?)

/-- Change what stands under a name of an entity. Without the entity nothing changes. -/
def alter (s : Store) (id : EntityId) (name : String)
    (change : Option Attribute → Option Attribute) : Store :=
  { s with entities := s.entities.modify id fun e =>
      { e with attributes := e.attributes.alter name change } }

@[simp] theorem readOnly_alter (s : Store) (id : EntityId) (name : String)
    (change : Option Attribute → Option Attribute) :
    (s.alter id name change).readOnly = s.readOnly := rfl

/-- A change shows under its own name, and under no other. -/
theorem find?_alter (s : Store) (id : EntityId) (name : String)
    (change : Option Attribute → Option Attribute) (id' : EntityId) (name' : String) :
    (s.alter id name change).find? id' name' =
      if id = id' ∧ name = name' ∧ s.has id then change (s.find? id' name')
      else s.find? id' name' := by
  by_cases hid : id = id'
  · subst hid
    simp only [find?, alter, has, Std.ExtTreeMap.getElem?_modify, Std.compare_self, if_true]
    generalize s.entities[id]? = entity
    cases entity with
    | none => simp
    | some e => by_cases hname : name = name' <;> simp [Std.ExtTreeMap.getElem?_alter, hname]
  · simp [find?, alter, Std.ExtTreeMap.getElem?_modify, hid]

/-- Two changes under one name are one change. -/
theorem alter_alter (s : Store) (id : EntityId) (name : String)
    (f g : Option Attribute → Option Attribute) :
    (s.alter id name f).alter id name g = s.alter id name fun a => g (f a) := by
  simp only [alter, Store.mk.injEq, true_and]
  apply Std.ExtTreeMap.ext_getElem?
  intro id'
  by_cases hid : id = id'
  · subst hid
    simp only [Std.ExtTreeMap.getElem?_modify, Std.compare_self, if_true, Option.map_map]
    congr 1
    funext e
    simp only [Function.comp, Entity.mk.injEq, true_and]
    apply Std.ExtTreeMap.ext_getElem?
    intro name'
    by_cases hname : name = name' <;> simp [Std.ExtTreeMap.getElem?_alter, hname]
  · simp [Std.ExtTreeMap.getElem?_modify, hid]

/-- A change that leaves what stands under the name leaves the store. -/
theorem alter_of_eq (s : Store) (id : EntityId) (name : String)
    (change : Option Attribute → Option Attribute)
    (h : change (s.find? id name) = s.find? id name) : s.alter id name change = s := by
  obtain ⟨readOnly, entities⟩ := s
  simp only [alter, Store.mk.injEq, true_and]
  apply Std.ExtTreeMap.ext_getElem?
  intro id'
  by_cases hid : id = id'
  · subst hid
    simp only [Std.ExtTreeMap.getElem?_modify, Std.compare_self, if_true]
    simp only [find?] at h
    generalize entities[id]? = entity at h
    cases entity with
    | none => rfl
    | some e =>
      obtain ⟨path, isProxy, attributes⟩ := e
      simp only [Option.map_some, Option.some.injEq, Option.bind_some, Entity.mk.injEq,
        true_and] at h ⊢
      apply Std.ExtTreeMap.ext_getElem?
      intro name'
      by_cases hname : name = name'
      · subst hname
        simpa [Std.ExtTreeMap.getElem?_alter] using h
      · simp [Std.ExtTreeMap.getElem?_alter, hname]
  · simp [Std.ExtTreeMap.getElem?_modify, hid]

/-! ## Entities -/

/-- The path of an entity. -/
def path? (s : Store) (id : EntityId) : Option String := s.entities[id]?.map (·.path)

/-- An entity that must be there. -/
def entity (s : Store) (id : EntityId) : Except StoreError Entity :=
  match s.entities[id]? with
  | some e => .ok e
  | none => .error (.notFound (.entity id))

/-- All entities with their paths, in the order of the paths' bytes. -/
def entityPaths (s : Store) : List (EntityId × String) :=
  (s.entities.toList.map fun (id, e) => (id, e.path)).mergeSort fun a b => a.2 ≤ b.2

/-- Add an entity; neither its identifier nor its path may be in use. -/
def create (s : Store) (id : EntityId) (path : String) : Except StoreError Store :=
  if id ∈ s.entities ∨ s.entities.any fun _ e => e.path = path then .error (.pathTaken path)
  else .ok { s with entities := s.entities.insert id { path } }

/-- Open the store for writing, or close it. -/
def setReadOnly (s : Store) (on : Bool) : Store := { s with readOnly := on }

/-- Whether an entity stands for a part of a shared instance. -/
def isProxy (s : Store) (id : EntityId) : Except StoreError Bool := (·.isProxy) <$> s.entity id

/-- Mark an entity as standing for a part of a shared instance, or as itself. -/
def setProxy (s : Store) (id : EntityId) (on : Bool) : Except StoreError Store := do
  let _ ← s.entity id
  return { s with entities := s.entities.modify id fun e => { e with isProxy := on } }

end Store

end TransformStack
