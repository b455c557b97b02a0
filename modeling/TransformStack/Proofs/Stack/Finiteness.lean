import TransformStack.Proofs.Command.Provenance
import TransformStack.Proofs.Number.Rounding
import TransformStack.Proofs.Stack.Locks

/-!
# What commands newly author, and whether it is finite

Whatever the host does with a command, all that is newly authored is the order and the stored forms
of values that the command was given. A command takes only finite values from its calls, but it is
offered for any value; and storing a value in single precision can make a finite number infinite. So
what is newly authored is finite exactly if the numbers that are stored fit.
-/

namespace TransformStack

/-! ## Values that fit -/

/-- The number is still finite when it is stored at a precision. -/
def Binary64.Fits (x : Binary64) : Precision → Prop
  | .float => x.magnitude < BinaryFormat.singleOverflow
  | .double => x.isFinite

namespace Value

/-- All numbers of the value are finite. -/
def isFinite : Value → Bool
  | empty | tokens _ => true
  | float x => x.isFinite
  | double x => x.isFinite
  | float3 v => v.toList.all (·.isFinite)
  | double3 v => v.toList.all (·.isFinite)
  | quatf q => q.toList.all (·.isFinite)
  | matrix4d m => m.toList.all fun row => row.toList.all (·.isFinite)

/-- A scalar is stored finite exactly if it fits the precision. -/
theorem isFinite_ofScalar (x : Binary64) (precision : Precision) :
    (ofScalar x precision).isFinite ↔ x.Fits precision := by
  cases precision with
  | float => exact Binary64.isFinite_toBinary32_iff
  | double => exact Iff.rfl

/-- A vector is stored finite exactly if all its numbers fit the precision. -/
theorem isFinite_ofVector (v : Vector3) (precision : Precision) :
    (ofVector v precision).isFinite ↔ ∀ x ∈ v.toList, x.Fits precision := by
  cases precision with
  | float =>
    simp [ofVector, isFinite, Vec3.map, Vec3.toList, Binary64.isFinite_toBinary32_iff,
      Binary64.Fits]
  | double => simp [ofVector, isFinite, Vec3.toList, Binary64.Fits]

end Value

/-- The numbers that are stored for a rotation. -/
def Rotation.Form.numbers (form : Form) (angles : Vector3) : List Binary64 :=
  match form with
  | single axis => [angles.get axis]
  | verbatim => angles.toList
  | reordered order => (decompose order (compose xyz angles)).toList

/-- A rotation is stored finite exactly if the angles that its form takes fit the precision. -/
theorem Rotation.Form.isFinite_store (form : Form) (angles : Vector3) (precision : Precision) :
    (form.store angles precision).isFinite ↔ ∀ x ∈ form.numbers angles, x.Fits precision := by
  cases form with
  | single axis =>
    rw [numbers, List.forall_mem_singleton]
    exact Value.isFinite_ofScalar _ _
  | verbatim => exact Value.isFinite_ofVector _ _
  | reordered order => exact Value.isFinite_ofVector _ _

/-- The numbers that an op stores for a vector. -/
def Converter.numbers (converter : Converter) (op : Op) (given : Vector3) : List Binary64 :=
  match converter, Rotation.formOf op.kind with
  | vector, _ => given.toList
  | rotation, .ok form => form.numbers given
  | rotation, .error _ => []

/-- What a converter stores is finite exactly if the numbers that it takes fit the op's
precision. -/
theorem Converter.isFinite_store {converter : Converter} {op : Op} {given : Vector3} {value : Value}
    (h : converter.store op given = .ok value) :
    value.isFinite ↔ ∀ x ∈ converter.numbers op given, x.Fits op.precision := by
  cases converter with
  | vector =>
    cases h
    exact Value.isFinite_ofVector _ _
  | rotation =>
    obtain ⟨form, hform, rfl⟩ := map_eq_ok_iff.1 (mapError_eq_ok_iff.1 h)
    simp only [numbers, hform]
    exact form.isFinite_store given op.precision

/-! ## Calls one after the other -/

/-- A call of the host on a command of either kind. -/
inductive AnyCall where
  | single (call : CommandCall)
  | matrix (call : MatrixCall)

/-- The vector of a placement at a position. -/
def Placement.at? (p : Placement) : Position → Option Vector3
  | .translate => some p.translation
  | .rotate => some p.rotation
  | .scale => some p.scale
  | _ => none

/-- The position that a part of a matrix command edits. -/
def Part.position : Part → Position
  | .translate => .translate
  | .rotate => .rotate
  | .scale => .scale

/-- A placement has at a part's position the value of the part. -/
theorem Placement.at?_position (p : Placement) (q : Part) :
    p.at? q.position = some (p.value q) := by
  cases q <;> rfl

/-- The value that a call gives to the command at a position. -/
def AnyCall.value? : AnyCall → Position → Option Vector3
  | single call, _ => call.value?
  | matrix (.set m), position => (Placement.ofMatrix m).at? position
  | matrix .execute, _ | matrix .undo, _ | matrix .redo, _ => none

/-- The host makes some calls on a command, one after the other, whether they succeed or fail. -/
inductive AnyCommand.Run : AnyCommand → Session → List AnyCall → AnyCommand → Session → Prop
  | nil (command : AnyCommand) (s : Session) : Run command s [] command s
  | single {c : Command} {s last : Session} {call : CommandCall} {calls : List AnyCall}
      {left : AnyCommand} (h : Run (.single (c.call s call).command) (c.call s call).session calls
        left last) : Run (.single c) s (.single call :: calls) left last
  | matrix {m : MatrixCommand} {s last : Session} {call : MatrixCall} {calls : List AnyCall}
      {left : AnyCommand} (h : Run (.matrix (m.call s call).command) (m.call s call).session calls
        left last) : Run (.matrix m) s (.matrix call :: calls) left last

/-- The value was given to the command: it has it at first, or it is finite and a call gives it. -/
def Command.Given (c : Command) (calls : List AnyCall) (value : Vector3) : Prop :=
  c.newValue = some value ∨
    value.isFinite ∧ ∃ call ∈ calls, call.value? c.recipe.position = some value

/-- What the command may write when some calls are made on it. -/
def Command.assignment (c : Command) (calls : List AnyCall) : Assignment :=
  { entity := c.entity
    position := c.recipe.position
    converter := c.converter
    values := c.Given calls }

namespace AnyCommand

variable {command left : AnyCommand} {session last : Session} {calls : List AnyCall} {P : Source}

/-! ## Where it all comes from -/

/-- A command offered by any view keeps to its assignment from the start. -/
theorem OfferedBy.draws {view : StackView} {s : Store} (h : command.OfferedBy view s)
    (hstore : session.store.From P) :
    ∀ c ∈ command.parts, c.Draws P (c.assignment calls) session := by
  intro c hc
  obtain ⟨position, value, hoffer⟩ := h.offerAt c hc
  obtain ⟨hready, hat⟩ := StackView.ready_of_offerAt hoffer
  have hop : ∀ op, c.op = some op → Position.ofOp? op = some c.recipe.position := by
    rw [hat.recipe]
    exact hat.op
  refine ⟨⟨rfl, rfl, hat.fits, hop⟩, rfl, fun value hvalue => .inl hvalue, ?_, ?_, hstore⟩
  · intro value hvalue
    cases (StackView.committedValue_of_offerAt hoffer).symm.trans hvalue
  · rw [hready.journal]
    exact List.forall_mem_nil _

/-- Calls that give a command no other values keep it to its assignment. -/
theorem Run.from_of_single {a : Assignment} {c : Command}
    (hrun : Run (.single c) session calls left last) (h : c.Draws P a session)
    (hcovers : P.Covers a)
    (hvalue : ∀ call ∈ calls, ∀ v, call.value? a.position = some v → v.isFinite → a.values v) :
    last.store.From P := by
  generalize hcommand : AnyCommand.single c = command at hrun
  induction hrun generalizing c with
  | nil command s => exact h.store
  | single hrun ih =>
    cases hcommand
    obtain ⟨hfirst, hothers⟩ := List.forall_mem_cons.1 hvalue
    exact ih (h.call hcovers hfirst) hothers rfl
  | matrix => cases hcommand

/-- After a run of calls all that is authored still comes from the source that the parts draw on. -/
theorem Run.from_of_matrix {a : Part → Assignment} {m : MatrixCommand}
    (hrun : Run (.matrix m) session calls left last) (h : m.Draws P a session)
    (hcovers : ∀ p, P.Covers (a p)) (hposition : ∀ p, (a p).position = p.position)
    (hvalue : ∀ call ∈ calls, ∀ p v, call.value? (a p).position = some v → v.isFinite →
      (a p).values v) :
    last.store.From P := by
  generalize hcommand : AnyCommand.matrix m = command at hrun
  induction hrun generalizing m with
  | nil command s => exact (h .translate).store
  | single => cases hcommand
  | matrix hrun ih =>
    cases hcommand
    obtain ⟨hfirst, hothers⟩ := List.forall_mem_cons.1 hvalue
    refine ih (h.call hcovers ?_).leaves hothers rfl
    rintro matrix rfl p
    refine hfirst p _ ?_
    rw [hposition]
    exact Placement.at?_position _ p

/-- What may newly come to a store by calls on a command: the tokens of an order, or the stored form
of a value that a part of the command was given. -/
def source (command : AnyCommand) (calls : List AnyCall) (s : Store) : Source :=
  fun id name time value =>
    s.authored? id name time = .ok (some value) ∨
      time = .default ∧ id = command.entity ∧
        ((name = Op.orderName ∧ ∃ names, value = .tokens names) ∨
          ∃ c ∈ command.parts, ∃ op given, Position.ofOp? op = some c.recipe.position ∧
            name = op.attributeName ∧ c.Given calls given ∧ c.converter.store op given = .ok value)

/-- The source of a run covers the assignment of each part of the command. -/
theorem covers_source {c : Command} (hc : c ∈ command.parts) (hentity : c.entity = command.entity)
    (s : Store) : (command.source calls s).Covers (c.assignment calls) where
  tokens names := .inr ⟨rfl, hentity, .inl ⟨rfl, names, rfl⟩⟩
  stored op given _ hplace hgiven hstored :=
    .inr ⟨rfl, hentity, .inr ⟨c, hc, op, given, hplace, rfl, hgiven, hstored⟩⟩

theorem part_mem_parts (m : MatrixCommand) (p : Part) : m.part p ∈ (matrix m).parts := by
  cases p <;> simp [parts, MatrixCommand.part]

/-- Calls on an offered command author nothing but what they may. -/
theorem Run.from_source {view : StackView} {s : Store} (hoffer : command.OfferedBy view s)
    (hrun : command.Run session calls left last) :
    last.store.From (command.source calls session.store) := by
  have hstart : session.store.From (command.source calls session.store) :=
    fun _ _ _ _ hauthored => .inl hauthored
  have hdraws : ∀ c ∈ command.parts,
      c.Draws (command.source calls session.store) (c.assignment calls) session :=
    hoffer.draws hstart
  have hcovers : ∀ c ∈ command.parts,
      (command.source calls session.store).Covers (c.assignment calls) := by
    intro c hc
    obtain ⟨position, value, h⟩ := hoffer.offerAt c hc
    exact covers_source hc ((StackView.ready_of_offerAt h).2.entity.trans hoffer.entity.symm) _
  cases hoffer with
  | @single position value c h =>
    have hc : c ∈ (AnyCommand.single c).parts := List.mem_cons_self
    exact hrun.from_of_single (hdraws c hc) (hcovers c hc)
      fun call hcall v hv hfinite => .inr ⟨hfinite, call, hcall, hv⟩
  | @matrix _ m h =>
    obtain ⟨-, hplaced⟩ := StackView.ready_of_offerMatrix h
    refine hrun.from_of_matrix (fun p => hdraws _ (part_mem_parts m p))
      (fun p => hcovers _ (part_mem_parts m p)) ?_
      fun call hcall p v hv hfinite => .inr ⟨hfinite, call, hcall, hv⟩
    rw [Part.forall_iff]
    exact ⟨hplaced.translate.recipe, hplaced.rotate.recipe, hplaced.scale.recipe⟩

/-- What calls on an offered command newly author is authored at no time in particular, in the
command's entity. It is the order, or the stored form of a value that a part of the command was
given, in the attribute of an op at the position of the part; and the stored form is finite exactly
if the numbers to be stored still are at the precision of the op. A value of a call is finite, the
value of the offer need not be. -/
theorem newly_authored_finite_iff {view : StackView} {first : Store}
    (hoffer : command.OfferedBy view first) (hrun : command.Run session calls left last)
    {id : EntityId} {name : String} {time : TimeCode} {value : Value}
    (hafter : last.store.authored? id name time = .ok (some value))
    (hnew : session.store.authored? id name time ≠ .ok (some value)) :
    time = .default ∧ id = command.entity ∧
      ((name = Op.orderName ∧ ∃ names, value = .tokens names) ∨
        ∃ c ∈ command.parts, ∃ op given, Position.ofOp? op = some c.recipe.position ∧
          name = op.attributeName ∧
          (c.newValue = some given ∨
            given.isFinite ∧ ∃ call ∈ calls, call.value? c.recipe.position = some given) ∧
          c.converter.store op given = .ok value ∧
          (value.isFinite ↔ ∀ x ∈ c.converter.numbers op given, x.Fits op.precision)) := by
  rcases hrun.from_source hoffer id name time value hafter with
    hbefore | ⟨htime, hid, htokens | ⟨c, hc, op, given, hplace, hname, hgiven, hstored⟩⟩
  · exact absurd hbefore hnew
  · exact ⟨htime, hid, .inl htokens⟩
  · exact ⟨htime, hid, .inr ⟨c, hc, op, given, hplace, hname, hgiven, hstored,
      Converter.isFinite_store hstored⟩⟩

/-- On a bare store a translation that was offered and executed is authored, and whether it is
finite depends on the numbers of the value that it was offered for. -/
theorem newly_authored_finite_iff_of_translation :
    let s : Session := { layer := { store := .bare } }
    let done := translation.execute s
    (single translation).Run s [.single .execute] (single done.command) done.session ∧
      s.store.authored? default "xformOp:translate" .default = .ok none ∧
      done.session.store.authored? default "xformOp:translate" .default =
        .ok (some (.double3 Vector3.one)) ∧
      ∃ op given, Position.ofOp? op = some .translate ∧ translation.newValue = some given ∧
        ((Value.double3 Vector3.one).isFinite ↔ ∀ x ∈ given.toList, x.Fits op.precision) := by
  intro s done
  have hoffer : StackView.offerAt ⟨default, .default⟩ .bare .translate .one =
      .ok (.ok translation) := rfl
  have hrun : (single translation).Run s [.single .execute] (single done.command) done.session :=
    .single (.nil _ _)
  have hbefore : s.store.authored? default "xformOp:translate" .default = .ok none := by
    decide +kernel
  have hafter : done.session.store.authored? default "xformOp:translate" .default =
      .ok (some (.double3 Vector3.one)) := by decide +kernel
  obtain ⟨-, -, ⟨hname, -⟩ | ⟨c, hc, op, given, hplace, -, hgiven, -, hfinite⟩⟩ :=
    newly_authored_finite_iff (.single hoffer) hrun hafter (by rw [hbefore]; decide)
  · exact absurd hname (by decide)
  · obtain rfl := List.mem_singleton.1 hc
    refine ⟨hrun, hbefore, hafter, op, given, hplace, ?_, hfinite⟩
    rcases hgiven with hnew | ⟨-, call, hcall, hvalue⟩
    · exact hnew
    · obtain rfl := List.mem_singleton.1 hcall
      cases hvalue

/-- A view offers a translation that is not finite, and executing it authors that. And a scale of
finite numbers that a call gives is authored as infinite where the op has single precision. -/
theorem infinity_authored :
    let s : Session := { layer := { store := .bare } }
    let infinite : Vector3 := ⟨⟨0x7ff0000000000000⟩, .zero, .zero⟩
    let great : Vector3 := ⟨⟨0x7e37e43c8800759c⟩, .one, .one⟩
    let translate : Command := { translation with newValue := some infinite }
    let scale : Command := Command.withValue
      { entity := default, recipe := ⟨.scale, .scale, .float⟩, converter := .vector } .one
    let given := scale.set great s
    let stored : Value := .float3 ⟨⟨0x7f800000⟩, ⟨0x3f800000⟩, ⟨0x3f800000⟩⟩
    ((single translate).OfferedBy ⟨default, .default⟩ .bare ∧
        (translate.execute s).session.store.authored? default "xformOp:translate" .default =
          .ok (some (.double3 infinite)) ∧
        s.store.authored? default "xformOp:translate" .default = .ok none ∧
        (Value.double3 infinite).isFinite = false) ∧
      (single scale).OfferedBy ⟨default, .default⟩ .bare ∧ great.isFinite ∧
        (given.command.execute given.session).session.store.authored? default "xformOp:scale"
          .default = .ok (some stored) ∧
        s.store.authored? default "xformOp:scale" .default = .ok none ∧
        stored.isFinite = false := by
  intro s infinite great translate scale given stored
  have htranslate : StackView.offerAt ⟨default, .default⟩ .bare .translate infinite =
      .ok (.ok translate) := rfl
  have hscale : StackView.offerAt ⟨default, .default⟩ .bare .scale .one = .ok (.ok scale) := rfl
  exact ⟨⟨.single htranslate, by decide +kernel, by decide +kernel, by decide⟩, .single hscale,
    by decide, by decide +kernel, by decide +kernel, by decide⟩

end AnyCommand

end TransformStack
