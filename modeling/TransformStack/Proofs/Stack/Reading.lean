import TransformStack.Proofs.Editor.Reordering
import TransformStack.Proofs.Store.Frame

/-!
# Reading back what a command wrote

The value of a command can be read back at its position once the command was executed, in the form
in which the op there stores it. Readers of other positions answer what they answered before, since
sorting ops into an order keeps the first op at each other position, and ops at different positions
that have readers apply different attributes.
-/

namespace TransformStack

/-! ## Readers -/

/-- The positions whose values can be read. -/
def Position.hasReader : Position → Bool
  | translate | rotate | scale | pivot | rotatePivot | scalePivot | rotatePivotTranslate
  | scalePivotTranslate => true
  | rotateAxis | shear | rotatePivotInverse | scalePivotInverse | pivotInverse => false

namespace StackView

variable {view : StackView} {s s' : Store} {p : Position} {order : OpOrder} {op : Op}

/-- What the reader of a position answers. -/
def read (view : StackView) (s : Store) : Position → Except EditError Vector3
  | .rotate => view.rotation s
  | p => view.vector s p

/-- Reading goes by the value at the position. -/
theorem read_congr (h : view.value? s' p = view.value? s p) : view.read s' p = view.read s p := by
  cases p <;> simp only [read, rotation, vector, h]

/-- The view finds its ops by position in the order. -/
theorem op?_of_order (horder : s.order view.entity = .ok order) :
    view.op? s p = .ok (order.at? p) := by
  rw [op?, StackView.order, horder]
  rfl

/-- The value at a position is that of the attribute of its op. -/
theorem value?_of_order (horder : s.order view.entity = .ok order) :
    view.value? s p = match order.at? p with
      | none => .ok none
      | some op =>
        Option.map (op, ·) <$>
          EditError.ofStore (s.value? view.entity op.attributeName view.time) := by
  rw [value?, op?_of_order horder]
  cases order.at? p with
  | none => rfl
  | some op =>
    simp only [bind, Except.bind]
    cases s.value? view.entity op.attributeName view.time <;> rfl

/-- A position reads alike in stores whose orders have the same first op at it, with the same
attribute. -/
theorem value?_congr {order' : OpOrder} (horder : s.order view.entity = .ok order)
    (horder' : s'.order view.entity = .ok order') (hat : order'.at? p = order.at? p)
    (hfind : ∀ op, order.at? p = some op →
      s'.find? view.entity op.attributeName = s.find? view.entity op.attributeName) :
    view.value? s' p = view.value? s p := by
  rw [value?_of_order horder, value?_of_order horder', hat]
  cases hop : order.at? p with
  | none => rfl
  | some op =>
    dsimp only
    rw [Store.value?, Store.value?, hfind op hop]

/-- A value is read the same from stores that agree on the order and on all attributes. -/
theorem value?_of_ne (horder : s'.order view.entity = s.order view.entity)
    (hfind : ∀ name, s'.find? view.entity name = s.find? view.entity name) :
    view.value? s' p = view.value? s p := by
  cases hs : s.order view.entity with
  | ok order => exact value?_congr hs (horder.trans hs) rfl fun op _ => hfind op.attributeName
  | error e =>
    have hs' := horder.trans hs
    simp only [value?, op?, StackView.order, hs, hs']
    rfl

end StackView

/-! ## Values as they are read back -/

/-- A stored vector can be read as one. -/
theorem Value.exists_toVector?_ofVector (v : Vector3) (precision : Precision) :
    ∃ w, (ofVector v precision).toVector? = some w := by
  cases precision <;> exact ⟨_, rfl⟩

/-- What a form stores it can load. -/
theorem Rotation.Form.exists_load_store (form : Form) (angles : Vector3) (precision : Precision) :
    ∃ w, form.load (form.store angles precision) = .ok w := by
  cases form <;> cases precision <;> exact ⟨_, rfl⟩

/-! ## The store that a command leaves -/

namespace Recipe

variable {recipe : Recipe} {order : OpOrder}

/-- Once the op of a recipe was asked for, it is the first at its position. -/
theorem at?_arrange_self (hplain : recipe.Plain) :
    (recipe.arrange order).at? recipe.position = some (recipe.opIn order) := by
  unfold arrange
  split
  · next op hat => rw [hat, opIn, hat, Option.getD_some]
  · next hmissing =>
    have hold : order.ops.filter (Position.ofOp? · = some recipe.position) = [] := by
      rw [← List.head?_eq_none_iff, List.head?_filter]
      exact hmissing
    have hplace : Position.ofOp? (recipe.op recipe.position.isInverse) = some recipe.position :=
      hplain.fits.ofOp?
    rw [OpOrder.at?, ← List.head?_filter, OpOrder.sortIn, Op.filter_byPosition, List.filter_append,
      hold, List.nil_append, added, hmissing, opIn, hmissing, Option.getD_none]
    simp [additions, hplain.stored, hplace]

end Recipe

namespace Command

variable {c : Command} {s : Store} {order : OpOrder} {stored : Value}

/-- A command leaves all but the attribute of its op and the order as it was. -/
theorem framed_leave (c : Command) (s : Store) (order : OpOrder) (stored : Value) :
    s.Framed c.entity [(c.recipe.opIn order).attributeName, Op.orderName]
      (c.leave s order stored) := by
  let op := c.recipe.opIn order
  have hsettle : s.Framed c.entity [op.attributeName]
      (s.settle c.entity op.attributeName op.valueType stored) := Store.framed_settle _ _
  unfold leave
  dsimp only
  split
  · exact hsettle.mono (by simp [op])
  · exact (hsettle.mono (by simp [op])).trans ((Store.framed_putTokens _).mono (by simp))

variable {value : Vector3} {view : StackView}

/-- The position of a command holds its value. -/
theorem Settles.value?_leave (h : c.Settles value s order stored) (hop : c.op = none)
    (hplain : c.recipe.Plain) :
    StackView.value? ⟨c.entity, .default⟩ (c.leave s order stored) c.recipe.position =
      .ok (some (c.recipe.opIn order, stored)) := by
  have horder := h.order_leave hop hplain.fits
  have hvalue : (c.leave s order stored).value? c.entity (c.recipe.opIn order).attributeName
      .default = .ok (some stored) := by
    rw [Store.value?, find?_leave_self (Store.order_eq_ok_iff.1 h.reads).1]
    rfl
  rw [StackView.value?_of_order horder, Recipe.at?_arrange_self hplain]
  dsimp only
  rw [hvalue]
  rfl

/-- Other positions hold what they held. -/
theorem Settles.value?_leave_of_ne (h : c.Settles value s order stored) (hop : c.op = none)
    (hplain : c.recipe.Plain) {q : Position} (hupright : q.isInverse = false)
    (hne : view.entity = c.entity → q ≠ c.recipe.position) :
    view.value? (c.leave s order stored) q = view.value? s q := by
  by_cases hentity : view.entity = c.entity
  · have hne := hne hentity
    have hcompanion : c.recipe.position.companion ≠ some q := by
      intro hpair
      have hinverse := Position.isInverse_of_companion hpair
      simp [hupright, hplain.upright] at hinverse
    have hnotMem : q ∉ order.lacking c.recipe.position := by
      rw [OpOrder.mem_lacking]
      rintro (hsame | ⟨hpair, -⟩)
      · exact hne hsame
      · exact hcompanion hpair
    have hreads := h.reads
    have horder := h.order_leave hop hplain.fits
    rw [← hentity] at hreads horder
    refine StackView.value?_congr hreads horder (Recipe.at?_arrange hplain.fits hnotMem) ?_
    intro op hat
    have hplace : Position.ofOp? op = some q := by simpa using List.find?_some hat
    rw [hentity]
    exact find?_leave (Position.attributeName_ne (Recipe.ofOp?_opIn hplain.fits order) hplace
      hne.symm hcompanion) op.attributeName_ne_orderName
  · have hframed := framed_leave c s order stored
    exact StackView.value?_of_ne (hframed.order_of_ne hentity) (hframed.find?_of_ne hentity)

end Command

/-! ## Reading back -/

/-- A position with a reader is not that of an inverse op. -/
theorem Position.isInverse_of_hasReader {p : Position} (h : p.hasReader) : p.isInverse = false := by
  cases p <;> first | rfl | cases h

/-- A vector that an op stores at a position is read back as another: angles go through the form of
the op's kind, other vectors only through its precision. -/
def Op.Restores (op : Op) (p : Position) (value restored : Vector3) : Prop :=
  match p with
  | .rotate => ∃ form, Rotation.formOf op.kind = .ok form ∧
      form.load (form.store value op.precision) = .ok restored
  | _ => (Value.ofVector value op.precision).toVector? = some restored

/-- What is stored at a position with a reader is read back. -/
theorem StackView.read_of_value? {view : StackView} {s : Store} {p : Position} {op : Op}
    {value : Vector3} {stored : Value} (hp : p.hasReader)
    (hstored : p.converter.store op value = .ok stored)
    (h : view.value? s p = .ok (some (op, stored))) :
    ∃ restored, op.Restores p value restored ∧ view.read s p = .ok restored := by
  by_cases hrotate : p = .rotate
  · subst hrotate
    obtain ⟨form, hform, rfl⟩ := map_eq_ok_iff.1 (mapError_eq_ok_iff.1 hstored)
    obtain ⟨restored, hload⟩ := form.exists_load_store value op.precision
    refine ⟨restored, ⟨form, hform, hload⟩, ?_⟩
    rw [read, rotation, h]
    simp [bind, Except.bind, hform, hload, EditError.ofData, Except.mapError]
  · obtain ⟨restored, hrestored⟩ := Value.exists_toVector?_ofVector value op.precision
    have hconverter : p.converter = .vector := by
      cases p <;> first | rfl | contradiction
    rw [hconverter] at hstored
    obtain rfl := Except.ok.inj hstored
    have hread : view.read s p = view.vector s p := by
      cases p <;> first | rfl | contradiction
    refine ⟨restored, ?_, ?_⟩
    · cases p <;> first | exact hrestored | contradiction
    · rw [hread, vector, h]
      simp [bind, Except.bind, hrestored, pure, Except.pure]

namespace Command

variable {c : Command} {value : Vector3} {session : Session}

/-- A command that was executed can be read back at its position, all other readers answer what
they answered before, and nothing else in the store differs but the attribute of the op and the
order. -/
theorem execute_reads_back (hfresh : (AnyCommand.single c).Fresh) (hvalue : c.newValue = some value)
    (hreader : c.recipe.position.hasReader) (hok : (c.execute session).outcome = .ok ()) :
    let p := c.recipe.position
    let before := session.store
    let after := (c.execute session).session.store
    ∃ order op, after.order c.entity = .ok order ∧ order.at? p = some op ∧
      (∃ restored, op.Restores p value restored ∧
        StackView.read ⟨c.entity, .default⟩ after p = .ok restored) ∧
      (∀ (view : StackView) q, q.hasReader → (view.entity = c.entity → q ≠ p) →
        view.read after q = view.read before q) ∧
      before.Framed c.entity [op.attributeName, Op.orderName] after := by
  intro p before after
  have hready : c.Ready := hfresh.ready
  have hplain : c.recipe.Plain := hfresh.plain
  obtain ⟨value', hvalue', order, stored, refusals, hsettles, -, -, hlayer⟩ :=
    hready.execute_iff.1 ⟨hok, rfl⟩
  obtain rfl : value = value' := Option.some.inj (hvalue.symm.trans hvalue')
  have hafter : after = c.leave before order stored := congrArg Layer.store hlayer
  have hconverts := hsettles.converts
  rw [hfresh.converter] at hconverts
  rw [hafter]
  refine ⟨c.recipe.arrange order, c.recipe.opIn order,
    hsettles.order_leave hready.op hplain.fits, Recipe.at?_arrange_self hplain, ?_, ?_,
    framed_leave c before order stored⟩
  · exact StackView.read_of_value? hreader hconverts (hsettles.value?_leave hready.op hplain)
  · intro view q hq hne
    exact StackView.read_congr (hsettles.value?_leave_of_ne hready.op hplain
      (Position.isInverse_of_hasReader hq) hne)

/-- A translation of a bare entity reads as it was given, and the scale as without effect. -/
theorem execute_reads_back_on_bare :
    let session : Session := { layer := { store := .bare } }
    let after := (AnyCommand.translation.execute session).session.store
    (AnyCommand.translation.execute session).outcome = .ok () ∧
      StackView.read ⟨default, .default⟩ after .translate = .ok .one ∧
      StackView.read ⟨default, .default⟩ after .scale = .ok .one := by
  intro session after
  have hok : (AnyCommand.translation.execute session).outcome = .ok () := by decide +kernel
  obtain ⟨order, op, -, -, ⟨restored, hrestores, hread⟩, hothers, -⟩ :=
    execute_reads_back AnyCommand.fresh_translation rfl rfl hok
  have hone : (Value.ofVector .one op.precision).toVector? = some .one := by
    cases op.precision <;> decide +kernel
  obtain rfl : Vector3.one = restored := Option.some.inj (hone.symm.trans hrestores)
  refine ⟨hok, hread, ?_⟩
  rw [hothers ⟨default, .default⟩ .scale rfl fun _ => by decide]
  decide +kernel

end Command

end TransformStack
