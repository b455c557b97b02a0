import TransformStack.Proofs.Stack.Forming
import TransformStack.Proofs.Stack.Gate
import TransformStack.Proofs.Stack.Locks

/-!
# Allowed edits go through

A view offers a command if the attribute it looks at may be edited. Executed at once on a well
formed entity that the handler of transform stacks takes, such a command succeeds where the op is
there already: its attribute has the type of what is stored. Where the op is missing, everything
that adds it succeeds but for one thing that the view did not look at. The attribute of the op can
be there without the op, and then it must have the type that the op applies.
-/

namespace TransformStack

/-! ## Offers and what they store -/

namespace StackView

variable {view : StackView} {s : Store} {position : Position} {value : Vector3} {c : Command}
  {order : OpOrder}

/-- The recipe and the converter of an offered command are those of the offer. -/
theorem made_of_offer {recipe : Recipe} {converter : Converter}
    (h : view.offer s recipe converter value = .ok (.ok c)) :
    c.recipe = recipe ∧ c.converter = converter := by
  obtain ⟨bar, -, h⟩ := bind_eq_ok_iff.1 h
  cases bar with
  | some bar => cases h
  | none =>
    cases h
    exact ⟨rfl, rfl⟩

/-- Angles are offered only if the op that is there, or the one to be made, stores angles. -/
theorem converts_of_offerRotation (hdefault : position.defaultKind = .rotateXYZ)
    (horder : s.order view.entity = .ok order)
    (h : view.offerRotation s position value = .ok (.ok c)) :
    ∃ form, Rotation.formOf (c.recipe.opIn order).kind = .ok form := by
  obtain ⟨op, hop, h⟩ := bind_eq_ok_iff.1 h
  obtain rfl : order.at? position = op := Except.ok.inj ((op?_of_order horder).symm.trans hop)
  cases hat : order.at? position with
  | none =>
    rw [hat] at h
    obtain ⟨hrecipe, -⟩ := made_of_offer h
    have hkind : (c.recipe.opIn order).kind = .rotateXYZ := by
      rw [Recipe.opIn, hrecipe, hat, Option.getD_none]
      exact hdefault
    rw [hkind]
    exact ⟨_, rfl⟩
  | some op =>
    rw [hat] at h
    obtain ⟨form, hform, h⟩ := bind_eq_ok_iff.1 h
    obtain ⟨hrecipe, -⟩ := made_of_offer h
    have hop : c.recipe.opIn order = op := by
      rw [Recipe.opIn, hrecipe, hat, Option.getD_some]
    rw [hop]
    exact ⟨form, mapError_eq_ok_iff.1 hform⟩

/-- What is offered can be stored for the op at the position. -/
theorem converts_of_offerAt (horder : s.order view.entity = .ok order)
    (h : view.offerAt s position value = .ok (.ok c)) :
    ∃ stored, position.converter.store (c.recipe.opIn order) value = .ok stored := by
  have hrotation {p : Position} (hconverter : p.converter = .rotation)
      (hdefault : p.defaultKind = .rotateXYZ)
      (h : view.offerRotation s p value = .ok (.ok c)) :
      ∃ stored, p.converter.store (c.recipe.opIn order) value = .ok stored := by
    obtain ⟨form, hform⟩ := converts_of_offerRotation hdefault horder h
    rw [hconverter]
    exact ⟨_, mapError_eq_ok_iff.2 (map_eq_ok_iff.2 ⟨form, hform, rfl⟩)⟩
  cases position with
  | rotate => exact hrotation rfl rfl h
  | rotateAxis => exact hrotation rfl rfl h
  | _ => exact ⟨_, rfl⟩

/-- Nothing is offered at the shear's position. -/
theorem ne_shear_of_offerAt (h : view.offerAt s position value = .ok (.ok c)) :
    position ≠ .shear := by
  rintro rfl
  cases h

end StackView

/-! ## Attributes of the type that an op applies -/

namespace Store

variable {s : Store} {id : EntityId} {op : Op} {stored : Value}

/-- There is no attribute of the op's name with another type than the op applies. -/
def Admits (s : Store) (id : EntityId) (op : Op) : Prop :=
  ∀ a, s.find? id op.attributeName = some a → a.declared = .known op.valueType

/-- On a well formed entity, an op takes what has its type exactly if no attribute of its name has
another. -/
theorem WellFormed.takes_iff (h : s.WellFormed id) (htype : stored.type? = some op.valueType) :
    s.Takes id op stored ↔ s.Admits id op := by
  rw [Takes, Admits, htype]
  cases hfind : s.find? id op.attributeName with
  | none =>
    refine iff_of_true ⟨⟨_, rfl, rfl⟩, none, rfl⟩ ?_
    rintro a ⟨⟩
  | some a =>
    simp only [Option.getD_some, Option.some.injEq, forall_eq']
    constructor
    · rintro ⟨⟨type, hdeclared, hsame⟩, -⟩
      rw [hdeclared, hsame]
    · intro hdeclared
      refine ⟨⟨_, hdeclared, rfl⟩, ?_⟩
      cases hfixed : a.fixed with
      | none => exact ⟨none, rfl⟩
      | some cell =>
        obtain ⟨value, type, rfl, -, -⟩ := (h.values _ a hfind).fixed cell hfixed
        exact ⟨some value, rfl⟩

/-- An attribute that has the type of an op can be taken for the op. -/
theorem Admits.fits (h : s.Admits id op) : s.Fits id op.attributeName op.valueType := by
  cases hfind : s.find? id op.attributeName with
  | none => exact ⟨none, record?_eq_none_iff.2 hfind, rfl⟩
  | some a =>
    refine ⟨some ⟨op.valueType, a.locked⟩, record?_eq_some_iff.2 ⟨a, hfind, h a hfind, rfl⟩, ?_⟩
    simp

/-- An attribute that nothing bars is not locked. -/
theorem unlocked_of_unbarred {name : String} (h : s.editBar? id name = .ok none) :
    s.Unlocked id name := by
  rw [editBar?, targetBar?, if_neg (by simp [readOnly_of_unbarred h])] at h
  obtain ⟨record, hrecord, hopen⟩ := map_eq_ok_iff.1 h
  refine ⟨record, hrecord, ?_⟩
  cases record with
  | none => rfl
  | some record => simpa using hopen.symm

end Store

/-! ## Canonical orders -/

namespace OpOrder

variable {order : OpOrder}

/-- Every op of an order whose positions are known is at one of them. -/
theorem StandsAt.exists_mem {positions : List Position} (h : order.StandsAt positions) {op : Op}
    (hop : op ∈ order.ops) : ∃ p ∈ positions, Position.ofOp? op = some p := by
  have hplaced : Position.ofOp? op ∈ positions.map some := by
    rw [← h]
    exact List.mem_map_of_mem hop
  obtain ⟨p, hp, hplace⟩ := List.mem_map.1 hplaced
  exact ⟨p, hp, hplace.symm⟩

/-- In a canonical order no op applies the attribute that a recipe makes for an op it misses. -/
theorem Canonical.attributeName_ne (h : order.Canonical) {recipe : Recipe} (hfits : recipe.Fits)
    (hmissing : order.at? recipe.position = none) :
    ∀ op ∈ order.ops, op.attributeName ≠ (recipe.op recipe.position.isInverse).attributeName := by
  obtain ⟨positions, hstands, hregular⟩ := h
  intro op hop
  obtain ⟨p, hp, hplace⟩ := hstands.exists_mem hop
  have hnotMem : recipe.position ∉ positions := by
    rw [hstands.mem_iff, hmissing]
    simp
  refine Position.attributeName_ne hplace hfits.ofOp? ?_ fun hcompanion => ?_
  · rintro rfl
    exact hnotMem hp
  -- The other half of a pair has the same attribute, but does not stand without this one.
  · exact hnotMem (hregular.paired p hp _ hcompanion)

end OpOrder

/-! ## Commands that are executed at once -/

namespace StackView

variable {view : StackView} {s : Store} {position : Position} {value : Vector3} {c : Command}
  {order : OpOrder}

/-- What an offered command needs of a well formed entity with a canonical order is that no
attribute of another type has the name of an op to be added. -/
theorem settles_iff (h : view.offerAt s position value = .ok (.ok c))
    (hformed : s.WellFormed view.entity) (horder : s.order view.entity = .ok order)
    (hcanonical : order.Canonical) :
    (∃ stored, c.Settles value s order stored) ↔ s.Admits view.entity (c.recipe.opIn order) := by
  have hoffered := offered_of_offerAt h
  obtain ⟨-, hat⟩ := ready_of_offerAt h
  obtain ⟨stored, hconverts⟩ := converts_of_offerAt horder h
  have hplace : Position.ofOp? (c.recipe.opIn order) = some position := by
    rw [Recipe.ofOp?_opIn hoffered.plain.fits, hat.recipe]
  have htype := Position.type?_of_store hplace (ne_shear_of_offerAt h) hconverts
  rw [← hoffered.converter] at hconverts
  obtain ⟨order', horder', hfree⟩ := editBar?_eq_ok_iff.1 hoffered.unbarred
  obtain rfl : order = order' := Except.ok.inj (horder.symm.trans horder')
  rw [← hformed.takes_iff htype]
  constructor
  · rintro ⟨stored', hsettles⟩
    obtain rfl := Except.ok.inj (hconverts.symm.trans hsettles.converts)
    rw [← hat.entity]
    exact hsettles.takes
  · intro htakes
    have hadmits := (hformed.takes_iff htype).1 htakes
    rw [← hat.recipe] at hfree
    rw [← hat.entity] at horder htakes hadmits hfree
    have hopen := Store.readOnly_of_unbarred hfree
    -- The offer has asked for the locks, so only the types are left.
    refine ⟨stored, horder, hconverts, hopen, htakes, fun hmissing => ⟨?_, ?_⟩⟩
    · rw [hmissing] at hfree
      exact ⟨hopen, Store.unlocked_of_unbarred hfree, hadmits.fits⟩
    · obtain ⟨positions, hstands, -⟩ := hcanonical
      intro op hop
      obtain ⟨p, -, hplace⟩ := hstands.exists_mem hop
      exact ⟨p, hplace⟩

/-- Executed at once where no write is refused, an offered command succeeds exactly if it needs no
more of the store. -/
theorem execute_iff_settles (h : view.offerAt s position value = .ok (.ok c)) {session : Session}
    (hlayer : session.layer = { store := s }) (horder : s.order view.entity = .ok order) :
    (c.execute session).outcome = .ok () ↔ ∃ stored, c.Settles value s order stored := by
  obtain ⟨hready, hat⟩ := ready_of_offerAt h
  have hvalue := (offered_of_offerAt h).value
  constructor
  · intro hok
    obtain ⟨value', hvalue', order', stored, -, hsettles, -⟩ := hready.execute_iff.1 ⟨hok, rfl⟩
    obtain rfl : value = value' := Option.some.inj (hvalue.symm.trans hvalue')
    rw [hlayer] at hsettles
    have hreads := hsettles.reads
    rw [hat.entity] at hreads
    obtain rfl : order = order' := Except.ok.inj (horder.symm.trans hreads)
    exact ⟨stored, hsettles⟩
  · rintro ⟨stored, hsettles⟩
    have hstore : session.layer.store = s := congrArg Layer.store hlayer
    rw [← hstore] at hsettles
    refine (hready.execute_iff.2 ⟨value, hvalue, order, stored, {}, hsettles, ?_, ?_, rfl⟩).1
    · intro _
      rw [hlayer]
    · rw [hlayer]
      exact Refusals.added_of_none _

/-- A command that is offered on a well formed entity which the handler of transform stacks takes,
and is executed at once, succeeds if the op is there already or no attribute of its name stands
outside the order with another type, and only then. -/
theorem execute_offered_iff
    (haccepted : (Handler.stack view.time).resolve s view.entity = .ok (.found (.stack view)))
    (hformed : s.WellFormed view.entity) (hoffer : view.offerAt s position value = .ok (.ok c))
    {session : Session} (hlayer : session.layer = { store := s }) :
    let made := c.recipe.op position.isInverse
    (c.execute session).outcome = .ok () ↔
      ∃ order, s.order view.entity = .ok order ∧
        ((∃ op ∈ order.ops, Position.ofOp? op = some position) ∨
          ¬∃ a, s.find? view.entity made.attributeName = some a ∧
            (∀ op ∈ order.ops, op.attributeName ≠ made.attributeName) ∧
            a.declared ≠ .known made.valueType) := by
  intro made
  obtain ⟨order, horder, hcanonical⟩ := Store.resolve_eq_found_iff.1 haccepted
  obtain ⟨-, hat⟩ := ready_of_offerAt hoffer
  have hfits := (offered_of_offerAt hoffer).plain.fits
  rw [execute_iff_settles hoffer hlayer horder, settles_iff hoffer hformed horder hcanonical]
  simp only [made, horder, Except.ok.injEq, exists_eq_left', ← OpOrder.at?_isSome_iff, ← hat.recipe]
  cases hfound : order.at? c.recipe.position with
  | some op =>
    obtain ⟨order', horder', hops⟩ := hformed.ops
    obtain rfl : order = order' := Except.ok.inj (horder.symm.trans horder')
    obtain ⟨-, a, ha, hdeclared⟩ := hops op (List.mem_of_find?_eq_some hfound)
    refine iff_of_true (fun a' ha' => ?_) (.inl rfl)
    rw [Command.opIn_of_some hfound] at ha' ⊢
    obtain rfl : a = a' := Option.some.inj (ha.symm.trans ha')
    exact hdeclared
  | none =>
    have hapart := hcanonical.attributeName_ne hfits hfound
    have hop : c.recipe.opIn order = c.recipe.op c.recipe.position.isInverse := by
      rw [Recipe.opIn, hfound, Option.getD_none]
    rw [hop, Store.Admits]
    constructor
    · rintro hadmits
      refine .inr ?_
      rintro ⟨a, ha, -, hother⟩
      exact hother (hadmits a ha)
    · -- No op of a canonical order has the attribute of one that is missing, so it stands outside.
      rintro (hsome | hnone) a ha
      · cases hsome
      · by_contra hother
        exact hnone ⟨a, ha, hapart, hother⟩

/-- A translation of an entity without ops goes through if its attribute is there with double
precision, and fails if it is there with single precision. -/
theorem execute_offered_iff_on_declared :
    let made := AnyCommand.translation.recipe.op false
    let declared (type : ValueType) := Store.bare.declare default made.attributeName type
    let outcome (type : ValueType) :=
      (AnyCommand.translation.execute { layer := { store := declared type } }).outcome
    outcome .double3 = .ok () ∧ outcome .float3 ≠ .ok () := by
  intro made declared outcome
  let view : StackView := ⟨default, .default⟩
  have horder (type : ValueType) : (declared type).order default = .ok ⟨[], false⟩ := by
    cases type <;> decide +kernel
  have haccepted (type : ValueType) :
      (Handler.stack view.time).resolve (declared type) view.entity =
        .ok (.found (.stack view)) := by
    refine Store.resolve_eq_found_iff.2 ⟨_, horder type, [], rfl, .nil, ?_⟩
    simp
  have hformed (type : ValueType) : (declared type).WellFormed view.entity := by
    have htyped : (declared type).WellTyped := Store.wellTyped_bare.declare made type
    exact ⟨htyped.orders default, htyped.values default, _, horder type, by simp⟩
  have hoffer (type : ValueType) :
      view.offerAt (declared type) .translate .one = .ok (.ok AnyCommand.translation) := by
    have hfree : view.editBar? (declared type) .translate = .ok none := by
      cases type <;> decide +kernel
    exact bind_eq_ok_iff.2 ⟨none, hfree, rfl⟩
  have hgoes (type : ValueType) : outcome type = .ok () ↔ _ :=
    execute_offered_iff (haccepted type) (hformed type) (hoffer type) rfl
  have hfind (type : ValueType) : (declared type).find? default made.attributeName =
      some (.ofType type) := by
    have hbare : Store.bare.find? default made.attributeName = none := rfl
    show (Store.bare.alter default made.attributeName _).find? default made.attributeName = _
    rw [Store.find?_alter, if_pos ⟨rfl, rfl, rfl⟩, hbare]
    rfl
  refine ⟨(hgoes .double3).2 ⟨_, horder _, .inr ?_⟩, fun hok => ?_⟩
  · rintro ⟨a, ha, -, hother⟩
    obtain rfl := Option.some.inj ((hfind _).symm.trans ha)
    exact hother rfl
  · obtain ⟨order, horder', hreason⟩ := (hgoes .float3).1 hok
    obtain rfl := Except.ok.inj ((horder _).symm.trans horder')
    rcases hreason with ⟨op, hop, -⟩ | hnone
    · cases hop
    · exact hnone ⟨_, hfind _, by simp, by decide⟩

end StackView

end TransformStack
