import TransformStack.Proofs.Command.Avoiding
import TransformStack.Proofs.Command.Recovering
import TransformStack.Proofs.Stack.Locks

/-!
# Commands and quaternions

No command writes to the attribute of a quaternion. None of the commands that are offered makes one,
since the recipe of an offer has a kind that stores what it is offered for; and where a quaternion
stands at the position of the rotation, the angles cannot be stored in it. Executing a new rotation
there fails before anything is written.
-/

namespace TransformStack

/-- The name of an attribute that holds a quaternion. -/
def Op.IsQuaternion (name : String) : Prop := ∃ suffix, name = nameOf .orient suffix

namespace Op

/-- The attributes of orient ops are those that hold quaternions. -/
theorem isQuaternion_attributeName {op : Op} :
    IsQuaternion op.attributeName ↔ op.kind = .orient := by
  constructor
  · rintro ⟨suffix, hname⟩
    have hparts : parts? op.attributeName = some (op.kind, op.suffix) := parts?_eq_some_iff.2 rfl
    rw [parts?_eq_some_iff.2 hname] at hparts
    exact (congrArg Prod.fst (Option.some.inj hparts)).symm
  · rintro hkind
    exact ⟨op.suffix, by rw [attributeName, hkind]⟩

/-- The order holds no quaternion. -/
theorem not_isQuaternion_orderName : ¬IsQuaternion orderName := by
  rintro ⟨suffix, hname⟩
  exact attributeName_ne_orderName ⟨.orient, suffix, .float, false⟩ hname.symm

end Op

/-- Nothing that commands convert is stored in a quaternion. -/
theorem Position.kind_ne_orient_of_store {p : Position} {op : Op} (hplace : ofOp? op = some p)
    {value : Vector3} {stored : Value} (h : p.converter.store op value = .ok stored) :
    op.kind ≠ .orient := by
  intro hkind
  rw [ofOp?_eq_some_iff, isPlaceOf, Bool.and_eq_true, Bool.and_eq_true, hkind] at hplace
  have hadmits := hplace.1.1
  cases hconverter : p.converter with
  | vector => cases p <;> first | exact absurd hadmits (by decide) | cases hconverter
  | rotation =>
    rw [hconverter, Converter.store, hkind] at h
    cases h

/-! ## Commands avoid quaternions -/

namespace AnyCommand

variable {names : String → Prop} {command : AnyCommand} {c : Command} {m : MatrixCommand}

/-- No part of the command writes to attributes of the given names. -/
def Avoids (names : String → Prop) (command : AnyCommand) : Prop :=
  ∀ c ∈ command.parts, c.Avoids names

/-- A matrix command avoids what all of its parts avoid. -/
theorem avoids_matrix_iff : (matrix m).Avoids names ↔ ∀ p, (m.part p).Avoids names := by
  simp [Avoids, parts, Part.forall_iff, MatrixCommand.part]

namespace Avoids

/-- No call on a single command touches an attribute that the command avoids. -/
theorem single (h : (single c).Avoids names) (s : Session) (call : CommandCall) :
    (AnyCommand.single (c.call s call).command).Avoids names ∧
      s.store.SameAt names (c.call s call).session.store := by
  obtain ⟨hcommand, hstore⟩ := (h c List.mem_cons_self).call s call
  exact ⟨List.forall_mem_singleton.2 hcommand, hstore⟩

/-- No call on a matrix command touches an attribute that the command avoids. -/
theorem matrix (h : (matrix m).Avoids names) (s : Session) (call : MatrixCall) :
    (AnyCommand.matrix (m.call s call).command).Avoids names ∧
      s.store.SameAt names (m.call s call).session.store := by
  have hfrom : m.AvoidsFrom names s.store s := ⟨avoids_matrix_iff.1 h, .refl s.store⟩
  obtain ⟨hparts, hstore⟩ := (hfrom.call call).leaves
  exact ⟨avoids_matrix_iff.2 hparts, hstore⟩

end Avoids

/-- Every offered command avoids quaternions. -/
theorem OfferedBy.avoids {view : StackView} {s : Store} (h : command.OfferedBy view s) :
    command.Avoids Op.IsQuaternion := by
  intro c hc
  obtain ⟨position, value, hoffer⟩ := h.offerAt c hc
  obtain ⟨hready, hat⟩ := StackView.ready_of_offerAt hoffer
  have hconverter : c.converter = c.recipe.position.converter := by
    rw [(StackView.offered_of_offerAt hoffer).converter, hat.recipe]
  refine ⟨Op.not_isQuaternion_orderName, ⟨_, _, hat⟩, fun inverse => ?_, ?_, ?_⟩
  · rw [Op.isQuaternion_attributeName]
    exact StackView.kind_ne_orient_of_offerAt hoffer
  · intro op value stored hplace hstored
    rw [Op.isQuaternion_attributeName]
    rw [hconverter] at hstored
    exact Position.kind_ne_orient_of_store hplace hstored
  · rw [hready.journal]
    exact List.forall_mem_nil _

/-- Whatever was done with a command, and wherever, it writes to no quaternion. -/
theorem Reached.avoids (h : command.Reached) : command.Avoids Op.IsQuaternion :=
  h.of_calls (fun hoffer => (OfferedBy.single hoffer).avoids)
    (fun hoffer => (OfferedBy.matrix hoffer).avoids) (fun s call h => (h.single s call).1)
    fun s call h => (h.matrix s call).1

end AnyCommand

/-! ## Commands that were not executed yet -/

namespace Command

variable {c : Command} {s : Session} {value : Vector3}

/-- A command that waits to be executed has a value and remembers no op. -/
structure Blank (c : Command) : Prop where
  bound : c.state ≠ .unbound
  waits : c.state = .pending → c.op = none ∧ ∃ value, c.newValue = some value

/-- A command that was applied or undone does not wait. -/
theorem blank_of_tried (h : c.state.isApplied ∨ c.state = .undone) : c.Blank := by
  constructor <;> intro hstate <;> simp [hstate, CommandState.isApplied] at h

/-- A command that waits remembers no op after any call. -/
theorem Blank.call (h : c.Blank) (s : Session) (call : CommandCall) :
    (c.call s call).command.Blank := by
  refine call_upholds (fun happlied => blank_of_tried (.inl happlied))
    (blank_of_tried (.inr rfl)) (fun value hwaiting hblank => ?_) h s call
  have hpending := hwaiting.resolve_left hblank.bound
  exact ⟨fun hstate => (nomatch hstate), fun _ => ⟨(hblank.waits hpending).1, value, rfl⟩⟩

end Command

/-- Whatever was done with a command, until it was executed it has a value and remembers no op. -/
theorem AnyCommand.Reached.blank {c : Command} (h : (single c).Reached) : c.Blank := by
  have hblank := h.of_calls (P := fun command => ∀ c, command = single c → c.Blank)
    (fun hoffer c hc => ?_) (fun _ _ hmatrix => nomatch hmatrix) (fun s call ih c hc => ?_)
    fun _ _ _ _ hmatrix => nomatch hmatrix
  · exact hblank c rfl
  · cases hc
    have hready := (StackView.ready_of_offerAt hoffer).1
    refine ⟨?_, fun _ => ⟨hready.op, hready.value⟩⟩
    rw [hready.state]
    exact fun hstate => nomatch hstate
  · cases hc
    exact (ih _ rfl).call s call

/-! ## Executing where a quaternion stands -/

namespace Command

variable {c : Command} {s : Session} {op : Op} {order : OpOrder}

/-- What a command would store in a quaternion are angles, and there is no form for them. -/
theorem Avoids.store_quaternion (h : c.Avoids Op.IsQuaternion)
    (hplace : Position.ofOp? op = some c.recipe.position) (hkind : op.kind = .orient)
    (value : Vector3) :
    c.converter.store op value = .error (.data (.unsupportedRotation .orient)) := by
  cases hconverter : c.converter with
  | vector =>
    have hstored : c.converter.store op value = .ok (.ofVector value op.precision) := by
      rw [hconverter]
      rfl
    exact absurd (Op.isQuaternion_attributeName.2 hkind) (h.stored op value _ hplace hstored)
  | rotation =>
    rw [Converter.store, hkind]
    rfl

/-- A command that finds a quaternion where it is to write fails before it writes anything. -/
theorem Avoids.write_quaternion (h : c.Avoids Op.IsQuaternion) (hop : c.op = none)
    {tx : Transaction} (horder : tx.store.order c.entity = .ok order)
    (hat : order.at? c.recipe.position = some op) (hkind : op.kind = .orient) (value : Vector3) :
    (c.write value).on tx = (.error (.data (.unsupportedRotation .orient)), tx) := by
  have hplace : Position.ofOp? op = some c.recipe.position := by
    simpa using List.find?_some hat
  rw [write_eq, Steps.bind_on, target_on horder, opIn?_of_none hop, hat]
  dsimp only
  rw [Steps.bind_on, h.store_quaternion hplace hkind]
  rfl

/-- Executing a command that finds an orient op at its position fails and writes nothing. -/
theorem execute_quaternion (h : c.Avoids Op.IsQuaternion) (hblank : c.Blank)
    (hstate : c.state = .pending) (horder : s.store.order c.entity = .ok order)
    (hat : order.at? c.recipe.position = some op) (hkind : op.kind = .orient) :
    c.execute s = ⟨.error (.data (.unsupportedRotation .orient)), c,
      (s.signal .hold).signal .release⟩ := by
  obtain ⟨hop, value, hvalue⟩ := hblank.waits hstate
  have hwrite : c.toWrite? = some value := by rw [toWrite?, hstate, hvalue]
  have hheld : (Transaction.start (s.signal .hold)).store.order c.entity = .ok order := horder
  have hrun := h.write_quaternion hop hheld hat hkind value
  rcases apply_cases c value s with ⟨op', tx, hrun', -⟩ | ⟨e, tx, hrun', happly⟩
  · cases hrun.symm.trans hrun'
  · cases hrun.symm.trans hrun'
    rw [execute_of_error hwrite (by rw [happly]), happly]
    rfl

end Command

end TransformStack
