import TransformStack.Proofs.Command.Origin

/-!
# Recipes of offered commands

The recipe of an offered command makes an op that stands at its position, is not the inverse of a
pair, and reads back from the attribute that is created for it as it was made. The command converts
angles and stores other vectors as they are. Giving it other values leaves its recipe and its
converter.
-/

namespace TransformStack

/-- The op of a recipe fits its position, is not the inverse of a pair, and reads back as it was
made. -/
structure Recipe.Plain (recipe : Recipe) : Prop where
  fits : recipe.Fits
  upright : recipe.position.isInverse = false
  stored : ∀ inverse, (recipe.op inverse).stored = recipe.op inverse

/-- How the value of a command at a position is stored. -/
def Position.converter : Position → Converter
  | rotate | rotateAxis => .rotation
  | _ => .vector

/-- Ops whose values are vectors or angles have the precision of their attribute. -/
theorem OpKind.precision_valueType {kind : OpKind} (horient : kind ≠ .orient)
    (htransform : kind ≠ .transform) (precision : Precision) :
    (kind.valueType precision).precision = precision := by
  cases kind <;> cases precision <;> first | rfl | contradiction

/-- Ops that are no quaternions and no matrices read back as they were made. -/
theorem Recipe.stored_op {recipe : Recipe} (horient : recipe.kind ≠ .orient)
    (htransform : recipe.kind ≠ .transform) (inverse : Bool) :
    (recipe.op inverse).stored = recipe.op inverse := by
  have hprecision := OpKind.precision_valueType horient htransform recipe.precision
  simp only [Op.stored, Op.valueType, Recipe.op, Op.make, hprecision]

/-! ## Offers -/

namespace StackView

variable {view : StackView} {s : Store} {position : Position} {value : Vector3} {c : Command}

/-- What a view that offers a command says of it: nothing barred the edit. -/
structure Offered (view : StackView) (s : Store) (position : Position) (value : Vector3)
    (c : Command) : Prop where
  unbarred : view.editBar? s position = .ok none
  plain : c.recipe.Plain
  converter : c.converter = position.converter
  value : c.newValue = some value

/-- An offer was made because nothing barred the edit. -/
theorem offered_of_offer {recipe : Recipe} (hplain : recipe.Plain) {converter : Converter}
    (hconverter : converter = recipe.position.converter)
    (h : view.offer s recipe converter value = .ok (.ok c)) :
    view.Offered s recipe.position value c := by
  obtain ⟨bar, hbar, h⟩ := bind_eq_ok_iff.1 h
  cases bar with
  | some bar => cases h
  | none =>
    cases h
    exact ⟨hbar, hplain, hconverter, rfl⟩

/-- An offer for a vector was made because nothing barred the edit. -/
theorem offered_of_offerVector {precision : Precision} (hupright : position.isInverse = false)
    (hshear : position ≠ .shear) (hconverter : position.converter = .vector)
    (h : view.offerVector s position precision value = .ok (.ok c)) :
    view.Offered s position value c := by
  refine offered_of_offer ⟨fits_defaultKind position precision, hupright, ?_⟩ hconverter.symm h
  refine Recipe.stored_op ?_ ?_
  · cases position <;> exact fun hkind => nomatch hkind
  · intro hkind
    cases position <;> first | exact hshear rfl | cases hkind

/-- An offer for a rotation was made because nothing barred the edit. -/
theorem offered_of_offerRotation (hupright : position.isInverse = false)
    (hdefault : position.defaultKind = .rotateXYZ) (hconverter : position.converter = .rotation)
    (h : view.offerRotation s position value = .ok (.ok c)) : view.Offered s position value c := by
  obtain ⟨op, hop, h⟩ := bind_eq_ok_iff.1 h
  cases op with
  | none =>
    refine offered_of_offer ⟨fits_defaultKind position .float, hupright, ?_⟩ hconverter.symm h
    refine Recipe.stored_op ?_ ?_
    · exact fun hkind => nomatch hdefault.symm.trans hkind
    · exact fun hkind => nomatch hdefault.symm.trans hkind
  | some op =>
    obtain ⟨form, hform, h⟩ := bind_eq_ok_iff.1 h
    refine offered_of_offer ⟨fits_of_op? hop, hupright, ?_⟩ hconverter.symm h
    refine Recipe.stored_op ?_ ?_
    -- Only kinds that store angles pass.
    · rintro (hkind : op.kind = .orient)
      rw [hkind] at hform
      cases hform
    · rintro (hkind : op.kind = .transform)
      rw [hkind] at hform
      cases hform

/-- Every offer was made because nothing barred the edit. -/
theorem offered_of_offerAt (h : view.offerAt s position value = .ok (.ok c)) :
    view.Offered s position value c := by
  unfold offerAt at h
  split at h
  · exact offered_of_offerRotation rfl rfl rfl h
  · exact offered_of_offerRotation rfl rfl rfl h
  · exact offered_of_offerVector rfl (by decide) rfl h
  · cases h
  · next hrotate haxis _ hshear =>
    have hvector : position.converter = .vector := by
      cases position <;> first | rfl | contradiction
    split at h
    · cases h
    · next hupright =>
      exact offered_of_offerVector (by simpa using hupright) hshear hvector h

/-- Every offer comes down to one for a recipe and a converter, and no recipe makes quaternions. -/
theorem exists_offer_of_offerAt (h : view.offerAt s position value = .ok (.ok c)) :
    ∃ recipe converter, recipe.kind ≠ .orient ∧
      view.offer s recipe converter value = .ok (.ok c) := by
  have hdefault (p : Position) : p.defaultKind ≠ .orient := by
    cases p <;> exact fun hkind => nomatch hkind
  have hrotation {p : Position} (h : view.offerRotation s p value = .ok (.ok c)) :
      ∃ recipe converter, recipe.kind ≠ .orient ∧
        view.offer s recipe converter value = .ok (.ok c) := by
    obtain ⟨op, -, h⟩ := bind_eq_ok_iff.1 h
    cases op with
    | none => exact ⟨_, _, hdefault p, h⟩
    | some op =>
      obtain ⟨form, hform, h⟩ := bind_eq_ok_iff.1 h
      refine ⟨_, _, ?_, h⟩
      rintro (hkind : op.kind = .orient)
      rw [hkind] at hform
      cases hform
  unfold offerAt at h
  split at h
  · exact hrotation h
  · exact hrotation h
  · exact ⟨_, _, hdefault .translate, h⟩
  · cases h
  · split at h
    · cases h
    · exact ⟨_, _, hdefault position, h⟩

/-- An offered command has not written anything. -/
theorem committedValue_of_offerAt (h : view.offerAt s position value = .ok (.ok c)) :
    c.committedValue = none := by
  obtain ⟨recipe, converter, -, h⟩ := exists_offer_of_offerAt h
  obtain ⟨bar, -, h⟩ := bind_eq_ok_iff.1 h
  cases bar <;> cases h
  rfl

/-- No command is offered for a quaternion. -/
theorem kind_ne_orient_of_offerAt (h : view.offerAt s position value = .ok (.ok c)) :
    c.recipe.kind ≠ .orient := by
  obtain ⟨recipe, converter, hkind, h⟩ := exists_offer_of_offerAt h
  obtain ⟨bar, -, h⟩ := bind_eq_ok_iff.1 h
  cases bar <;> cases h
  exact hkind

/-- An offered command has a plain recipe. -/
theorem plain_of_offerAt (h : view.offerAt s position value = .ok (.ok c)) : c.recipe.Plain :=
  (offered_of_offerAt h).plain

end StackView

/-! ## Values given before the first execution -/

namespace AnyCommand

variable {command : AnyCommand} {c : Command}

/-- Giving a command a value before it is executed changes its value and its state only. -/
theorem exists_set_of_ready (h : c.Ready) (value : Vector3) (s : Session) :
    ∃ newValue state, (c.set value s).command = { c with newValue, state } := by
  unfold Command.set
  rw [h.state]
  split <;> exact ⟨_, _, rfl⟩

/-- Giving the value of an attribute to a ready command changes its next value and its state
only. -/
theorem exists_setValue_of_ready (h : c.Ready) (value : Value) (s : Session) :
    ∃ newValue state, (c.setValue value s).command = { c with newValue, state } := by
  unfold Command.setValue
  split
  · exact ⟨_, _, rfl⟩
  · split
    · exact exists_set_of_ready h _ s
    · exact ⟨_, _, rfl⟩

/-- The recipe and the converter of a command for one op are such as are offered. -/
def Offers (P : Recipe → Converter → Prop) : AnyCommand → Prop
  | single c => P c.recipe c.converter
  | matrix _ => True

/-- What holds of all offers holds of every command that was not executed yet. -/
theorem Fresh.offers {P : Recipe → Converter → Prop}
    (hoffer : ∀ (view : StackView) (s : Store) (position : Position) (value : Vector3)
      (c : Command), view.offerAt s position value = .ok (.ok c) → P c.recipe c.converter)
    (h : command.Fresh) : command.Offers P := by
  induction h with
  | offered h => exact hoffer _ _ _ _ _ h
  | offeredMatrix h => trivial
  | @set c value s h ih =>
    obtain ⟨newValue, state, hset⟩ := exists_set_of_ready h.ready value s
    rw [hset]
    exact ih
  | @setValue c value s h ih =>
    obtain ⟨newValue, state, hset⟩ := exists_setValue_of_ready h.ready value s
    rw [hset]
    exact ih
  | setMatrix matrix s h ih => trivial

/-- The recipe of a command for one op is plain. -/
def Plain : AnyCommand → Prop
  | single c => c.recipe.Plain
  | matrix _ => True

/-- The recipes of a fresh command are plain. -/
theorem Fresh.plain (h : command.Fresh) : command.Plain := by
  have hoffers := h.offers (P := fun recipe _ => recipe.Plain)
    fun _ _ _ _ _ => StackView.plain_of_offerAt
  cases command with
  | single c => exact hoffers
  | matrix m => trivial

/-- Angles are converted, other vectors are stored as they are. -/
theorem Fresh.converter (h : (single c).Fresh) : c.converter = c.recipe.position.converter := by
  refine h.offers (P := fun recipe converter => converter = recipe.position.converter) ?_
  intro view s position value c hoffer
  rw [(StackView.ready_of_offerAt hoffer).2.recipe]
  exact (StackView.offered_of_offerAt hoffer).converter

end AnyCommand

end TransformStack
