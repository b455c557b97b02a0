import TransformStack.Proofs.Command.Matrix
import TransformStack.Stack.View

/-!
# Where commands come from

The host gets its commands from the views of stacks, which may long be out of date when a command is
executed. Until then the host can give the command other values. Such a command is ready: its recipe
fits its position, whatever the view saw. And whatever is done with a command, it keeps editing the
op at one position of one entity.
-/

namespace TransformStack

/-- A command of the host that was never executed: offered by a view of any store, and given other
values since, if at all. -/
inductive AnyCommand.Fresh : AnyCommand → Prop where
  | offered {view : StackView} {s : Store} {position : Position} {value : Vector3} {c : Command}
      (h : view.offerAt s position value = .ok (.ok c)) : Fresh (single c)
  | offeredMatrix {view : StackView} {s : Store} {matrix : Matrix4} {m : MatrixCommand}
      (h : view.offerMatrix s matrix = .ok (.ok m)) : Fresh (.matrix m)
  | set {c : Command} (value : Vector3) (s : Session) (h : Fresh (single c)) :
      Fresh (single (c.set value s).command)
  | setValue {c : Command} (value : Value) (s : Session) (h : Fresh (single c)) :
      Fresh (single (c.setValue value s).command)
  | setMatrix {m : MatrixCommand} (matrix : Matrix4) (s : Session) (h : Fresh (.matrix m)) :
      Fresh (.matrix (m.set matrix s).command)

/-- A command of the host after any calls, in any sessions. -/
inductive AnyCommand.Reached : AnyCommand → Prop where
  | fresh {command : AnyCommand} (h : Fresh command) : Reached command
  | executed {command : AnyCommand} (s : Session) (h : Reached command) :
      Reached (command.execute s).command
  | undone {command : AnyCommand} (s : Session) (h : Reached command) :
      Reached (command.undo s).command
  | redone {command : AnyCommand} (s : Session) (h : Reached command) :
      Reached (command.redo s).command
  | set {c : Command} (value : Vector3) (s : Session) (h : Reached (single c)) :
      Reached (single (c.set value s).command)
  | setValue {c : Command} (value : Value) (s : Session) (h : Reached (single c)) :
      Reached (single (c.setValue value s).command)
  | setMatrix {m : MatrixCommand} (matrix : Matrix4) (s : Session) (h : Reached (.matrix m)) :
      Reached (.matrix (m.set matrix s).command)

/-! ## Offers -/

namespace StackView

variable {view : StackView} {s : Store} {position : Position} {value : Vector3} {c : Command}

/-- An offered command is ready to write the value it was offered for. -/
theorem ready_of_offer {recipe : Recipe} {converter : Converter} (hfits : recipe.Fits)
    (h : view.offer s recipe converter value = .ok (.ok c)) :
    c.Ready ∧ c.At view.entity recipe.position := by
  obtain ⟨bar, -, h⟩ := bind_eq_ok_iff.1 h
  cases bar with
  | some bar => cases h
  | none =>
    cases h
    exact ⟨⟨rfl, ⟨value, rfl⟩, rfl, rfl, hfits⟩, rfl, rfl, hfits, fun _ hop => nomatch hop⟩

/-- The kind that a position is given by default fits it. -/
theorem fits_defaultKind (position : Position) (precision : Precision) :
    Recipe.Fits ⟨position, position.defaultKind, precision⟩ := by
  cases position <;> rfl

/-- An op that is found at a position is of a kind that the position takes. -/
theorem fits_of_op? {op : Op} (h : view.op? s position = .ok (some op)) :
    Recipe.Fits ⟨position, op.kind, op.precision⟩ := by
  obtain ⟨order, -, hat⟩ := map_eq_ok_iff.1 h
  have hplace : Position.ofOp? op = some position := by
    simpa using List.find?_some hat
  rw [Position.ofOp?_eq_some_iff, Position.isPlaceOf, Bool.and_eq_true, Bool.and_eq_true] at hplace
  exact hplace.1.1

/-- An offered command for a vector is ready and stands at its position. -/
theorem ready_of_offerVector {precision : Precision}
    (h : view.offerVector s position precision value = .ok (.ok c)) :
    c.Ready ∧ c.At view.entity position :=
  ready_of_offer (fits_defaultKind position precision) h

/-- An offered command for a rotation is ready and stands at its position. -/
theorem ready_of_offerRotation (h : view.offerRotation s position value = .ok (.ok c)) :
    c.Ready ∧ c.At view.entity position := by
  obtain ⟨op, hop, h⟩ := bind_eq_ok_iff.1 h
  cases op with
  | none => exact ready_of_offer (fits_defaultKind position .float) h
  | some op =>
    obtain ⟨form, -, h⟩ := bind_eq_ok_iff.1 h
    exact ready_of_offer (fits_of_op? hop) h

/-- An offered command is ready and stands at its position. -/
theorem ready_of_offerAt (h : view.offerAt s position value = .ok (.ok c)) :
    c.Ready ∧ c.At view.entity position := by
  unfold offerAt at h
  split at h
  · exact ready_of_offerRotation h
  · exact ready_of_offerRotation h
  · exact ready_of_offerVector h
  · cases h
  · split at h
    · cases h
    · exact ready_of_offerVector h

/-- A matrix command is offered if each of its parts is. -/
theorem parts_of_offerMatrix {matrix : Matrix4} {m : MatrixCommand}
    (h : view.offerMatrix s matrix = .ok (.ok m)) :
    let p := Placement.ofMatrix matrix
    m.entity = view.entity ∧ view.offerAt s .translate p.translation = .ok (.ok m.translate) ∧
      view.offerAt s .rotate p.rotation = .ok (.ok m.rotate) ∧
      view.offerAt s .scale p.scale = .ok (.ok m.scale) := by
  unfold offerMatrix at h
  obtain ⟨translate, htranslate, h⟩ := bind_eq_ok_iff.1 h
  cases translate with
  | error bar => cases h
  | ok translate =>
  obtain ⟨rotate, hrotate, h⟩ := bind_eq_ok_iff.1 h
  cases rotate with
  | error bar => cases h
  | ok rotate =>
  obtain ⟨scale, hscale, h⟩ := bind_eq_ok_iff.1 h
  cases scale with
  | error bar => cases h
  | ok scale =>
  cases h
  exact ⟨rfl, htranslate, hrotate, hscale⟩

/-- The parts of an offered matrix command are ready, each at its position. -/
theorem ready_of_offerMatrix {matrix : Matrix4} {m : MatrixCommand}
    (h : view.offerMatrix s matrix = .ok (.ok m)) : m.Ready ∧ m.Placed := by
  obtain ⟨hentity, htranslate, hrotate, hscale⟩ := parts_of_offerMatrix h
  obtain ⟨hreadyT, hatT⟩ := ready_of_offerAt htranslate
  obtain ⟨hreadyR, hatR⟩ := ready_of_offerAt hrotate
  obtain ⟨hreadyS, hatS⟩ := ready_of_offerAt hscale
  rw [← hentity] at hatT hatR hatS
  exact ⟨⟨hreadyT, hreadyR, hreadyS⟩, ⟨hatT, hatR, hatS⟩⟩

end StackView

/-! ## Values given before the first execution -/

namespace Command

variable {c : Command} {id : EntityId} {position : Position}

/-- A command that is ready stays so when it is given a value. -/
theorem Ready.set (h : c.Ready) (value : Vector3) (s : Session) :
    (c.set value s).command.Ready := by
  unfold Command.set
  rw [h.state]
  split
  · exact ⟨rfl, ⟨value, rfl⟩, h.op, h.journal, h.fits⟩
  · exact h

/-- A command that is ready stays so when it is given the value of an attribute. -/
theorem Ready.setValue (h : c.Ready) (value : Value) (s : Session) :
    (c.setValue value s).command.Ready := by
  unfold Command.setValue
  split
  · exact h
  · split
    · exact h.set _ s
    · exact h

/-! ## What no call changes -/

/-- Whatever is made of the other fields, the command edits the same op. -/
theorem At.congr {c' : Command} (h : c.At id position) (hentity : c'.entity = c.entity)
    (hrecipe : c'.recipe = c.recipe) (hop : c'.op = c.op) : c'.At id position :=
  ⟨hentity.trans h.entity, hrecipe ▸ h.recipe, hrecipe ▸ h.fits, hop ▸ h.op⟩

/-- Applying a value leaves a command at its position. -/
theorem At.apply (h : c.At id position) (value : Vector3) (s : Session) :
    (c.apply value s).command.At id position := by
  cases happly : (c.apply value s).outcome with
  | error e =>
    rcases apply_cases c value s with ⟨op, tx, -, hcall⟩ | ⟨e', tx, -, hcall⟩
    · rw [hcall] at happly
      cases happly
    · rw [hcall]
      exact h
  | ok u =>
    obtain ⟨op, journal, hwrites, hcommand⟩ := apply_of_ok happly
    rw [hcommand]
    refine ⟨h.entity, h.recipe, h.fits, ?_⟩
    rintro _ ⟨⟩
    exact h.ofOp? hwrites

/-- Redoing leaves a command at its position. -/
theorem At.redo (h : c.At id position) (s : Session) : (c.redo s).command.At id position := by
  unfold Command.redo
  split
  · next value _ _ =>
    have happly := h.apply value s
    rcases hcall : c.apply value s with ⟨e | u, c', s'⟩ <;> rw [hcall] at happly
    · exact happly
    · exact happly.congr rfl rfl rfl
  · exact h

/-- Executing leaves a command at its position. -/
theorem At.execute (h : c.At id position) (s : Session) :
    (c.execute s).command.At id position := by
  unfold Command.execute
  split
  · exact h
  · exact h.redo s
  · exact h
  · next value _ _ _ =>
    have happly := h.apply value s
    rcases hcall : c.apply value s with ⟨e | u, c', s'⟩ <;> rw [hcall] at happly
    · exact happly
    · exact happly.congr rfl rfl rfl

/-- Undoing leaves a command at its position. -/
theorem At.undo (h : c.At id position) (s : Session) : (c.undo s).command.At id position := by
  rcases c.undo_cases s with ⟨-, hundo⟩ | ⟨-, journal, s', ⟨-, hundo⟩ | ⟨e, -, hundo⟩⟩ <;>
    rw [hundo]
  · exact h
  · exact h.congr rfl rfl rfl
  · exact h.congr rfl rfl rfl

/-- Giving a value leaves a command at its position. -/
theorem At.set (h : c.At id position) (value : Vector3) (s : Session) :
    (c.set value s).command.At id position := by
  have hnew : { c with newValue := some value }.At id position := h.congr rfl rfl rfl
  have happly := hnew.apply value s
  unfold Command.set
  split
  · split
    · exact h.congr rfl rfl rfl
    · exact h.congr rfl rfl rfl
    · split
      · next hcall =>
        rw [hcall] at happly
        exact happly.congr rfl rfl rfl
      · exact happly
    · split
      · next hcall =>
        rw [hcall] at happly
        exact happly.congr rfl rfl rfl
      · exact happly
    · exact h
  · exact h

/-- Giving the value of an attribute leaves a command at its position. -/
theorem At.setValue (h : c.At id position) (value : Value) (s : Session) :
    (c.setValue value s).command.At id position := by
  unfold Command.setValue
  split
  · exact h
  · split
    · exact h.set _ s
    · exact h

end Command

namespace MatrixCommand

variable {m : MatrixCommand} {act : Command → Session → Call Command}

/-- The call keeps the op that a command edits. -/
def Steady (act : Command → Session → Call Command) : Prop :=
  ∀ (c : Command) (s : Session) (id : EntityId) (position : Position),
    c.At id position → (act c s).command.At id position

/-- A call that leaves single commands in place leaves the parts of a matrix command in place. -/
theorem Placed.onPart (hact : Steady act) : Keeps Placed act := by
  intro p m s h
  cases p with
  | translate => exact .intro ⟨hact _ _ _ _ h.translate, h.rotate, h.scale⟩
  | rotate => exact .intro ⟨h.translate, hact _ _ _ _ h.rotate, h.scale⟩
  | scale => exact .intro ⟨h.translate, h.rotate, hact _ _ _ _ h.scale⟩

/-- Executing leaves every command in place. -/
theorem steady_execute : Steady Command.execute := fun _ s _ _ h => h.execute s

/-- Undoing leaves every command in place. -/
theorem steady_undo : Steady Command.undo := fun _ s _ _ h => h.undo s

/-- Redoing leaves every command in place. -/
theorem steady_redo : Steady Command.redo := fun _ s _ _ h => h.redo s

/-- Giving a value leaves every command in place. -/
theorem steady_set (value : Vector3) : Steady (·.set value) := fun _ s _ _ h => h.set value s

/-- Executing a matrix command leaves its parts in place. -/
theorem Placed.execute (h : m.Placed) (s : Session) :
    (m.execute s).Meets (fun m' _ => m'.Placed) fun m' _ => m'.Placed :=
  Keeps.execute (onPart steady_execute) (onPart steady_undo) h s

/-- Undoing a matrix command leaves its parts in place. -/
theorem Placed.undo (h : m.Placed) (s : Session) :
    (m.undo s).Meets (fun m' _ => m'.Placed) fun m' _ => m'.Placed :=
  Keeps.undo (onPart steady_undo) h s

/-- Redoing a matrix command leaves its parts in place. -/
theorem Placed.redo (h : m.Placed) (s : Session) :
    (m.redo s).Meets (fun m' _ => m'.Placed) fun m' _ => m'.Placed :=
  Keeps.redo (onPart steady_redo) h s

/-- Giving a matrix to a command leaves its parts in place. -/
theorem Placed.set (h : m.Placed) (matrix : Matrix4) (s : Session) :
    (m.set matrix s).Meets (fun m' _ => m'.Placed) fun m' _ => m'.Placed :=
  Keeps.set (fun value => onPart (steady_set value)) h matrix s

/-- A matrix command that is ready stays so when it is given a matrix. -/
theorem Ready.set (h : m.Ready) (matrix : Matrix4) (s : Session) :
    (m.set matrix s).Meets (fun m' _ => m'.Ready) fun m' _ => m'.Ready := by
  refine .andThen (P := fun m' _ => m'.Ready) (.andThen (P := fun m' _ => m'.Ready) ?_ ?_) ?_
  · exact .intro ⟨h.translate.set _ _, h.rotate, h.scale⟩
  · exact fun m' s' h => .intro ⟨h.translate, h.rotate.set _ _, h.scale⟩
  · exact fun m' s' h => .intro ⟨h.translate, h.rotate, h.scale.set _ _⟩

end MatrixCommand

/-! ## Commands of the host -/

namespace AnyCommand

variable {command : AnyCommand}

/-- The command edits one op, or one for each part, at positions of its entity. -/
def Placed : AnyCommand → Prop
  | single c => ∃ position, c.At c.entity position
  | matrix m => m.Placed

/-- A fresh command is ready. -/
theorem Fresh.ready (h : command.Fresh) : command.Ready := by
  induction h with
  | offered h => exact (StackView.ready_of_offerAt h).1
  | offeredMatrix h => exact (StackView.ready_of_offerMatrix h).1
  | set value s h ih => exact Command.Ready.set ih value s
  | setValue value s h ih => exact Command.Ready.setValue ih value s
  | setMatrix matrix s h ih => exact (MatrixCommand.Ready.set ih matrix s).leaves

/-- A command of either kind stays in place if a single command does. -/
theorem Placed.single {c c' : Command} (h : (single c).Placed)
    (hcall : ∀ id position, c.At id position → c'.At id position) :
    (AnyCommand.single c').Placed := by
  obtain ⟨position, hat⟩ := h
  have hat' := hcall _ _ hat
  exact ⟨position, hat'.entity ▸ hat'⟩

/-- A fresh command is in place. -/
theorem Fresh.placed (h : command.Fresh) : command.Placed := by
  induction h with
  | @offered view s position value c h =>
    have hat := (StackView.ready_of_offerAt h).2
    exact ⟨position, hat.entity ▸ hat⟩
  | offeredMatrix h => exact (StackView.ready_of_offerMatrix h).2
  | set value s h ih => exact ih.single fun _ _ hat => hat.set value s
  | setValue value s h ih => exact ih.single fun _ _ hat => hat.setValue value s
  | setMatrix matrix s h ih => exact (MatrixCommand.Placed.set ih matrix s).leaves

/-- Whatever was done with a command, it edits the ops that it was made for. -/
theorem Reached.placed (h : command.Reached) : command.Placed := by
  induction h with
  | fresh h => exact h.placed
  | @executed command s h ih =>
    cases command with
    | single c => exact ih.single fun _ _ hat => hat.execute s
    | matrix m => exact (MatrixCommand.Placed.execute ih s).leaves
  | @undone command s h ih =>
    cases command with
    | single c => exact ih.single fun _ _ hat => hat.undo s
    | matrix m => exact (MatrixCommand.Placed.undo ih s).leaves
  | @redone command s h ih =>
    cases command with
    | single c => exact ih.single fun _ _ hat => hat.redo s
    | matrix m => exact (MatrixCommand.Placed.redo ih s).leaves
  | set value s h ih => exact ih.single fun _ _ hat => hat.set value s
  | setValue value s h ih => exact ih.single fun _ _ hat => hat.setValue value s
  | setMatrix matrix s h ih => exact (MatrixCommand.Placed.set ih matrix s).leaves

/-! ## Commands on a bare store -/

/-- The command that a view of the bare store offers for the translation of its entity. -/
def translation : Command :=
  let recipe : Recipe := ⟨.translate, .translate, .double⟩
  Command.withValue { entity := default, recipe, converter := .vector } .one

/-- The translation is a fresh command. -/
theorem fresh_translation : Fresh (single translation) := by
  have h : StackView.offerAt ⟨default, .default⟩ .bare .translate .one = .ok (.ok translation) :=
    rfl
  exact .offered h

/-- The command that a view of the bare store offers for the matrix of its entity. -/
def transform : MatrixCommand :=
  let p := Placement.ofMatrix default
  let part (recipe : Recipe) (converter : Converter) : Vector3 → Command :=
    Command.withValue { entity := default, recipe, converter }
  { entity := default
    translate := part ⟨.translate, .translate, .double⟩ .vector p.translation
    rotate := part ⟨.rotate, .rotateXYZ, .float⟩ .rotation p.rotation
    scale := part ⟨.scale, .scale, .float⟩ .vector p.scale }

/-- The transform is a fresh command. -/
theorem fresh_transform : Fresh (matrix transform) := by
  have h : StackView.offerMatrix ⟨default, .default⟩ .bare default = .ok (.ok transform) := rfl
  exact .offeredMatrix h

end AnyCommand

end TransformStack
