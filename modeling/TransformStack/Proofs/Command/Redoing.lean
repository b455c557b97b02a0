import TransformStack.Proofs.Command.Rows

/-!
# What a failed redo leaves

A single command that cannot be redone leaves the store. A matrix command redoes its parts one after
the other, and keeps what it redid when a later part fails. So a failed redo leaves the store
exactly where each part before the one that failed was in place already: its op in the order, and
the value in the attribute of the op.
-/

namespace TransformStack

namespace Command

variable {c : Command} {s : Session} {commands : List Command} {id : EntityId}

/-! ## Commands in place -/

/-- There is nothing to redo, or what is redone is there already: the op is in the order, and the
value in the attribute of the op. -/
def InPlace (c : Command) (s : Store) : Prop :=
  ∀ value, c.state = .undone → c.committedValue = some value →
    ∃ order op stored, s.order c.entity = .ok order ∧ c.opIn? order = some op ∧
      c.converter.store op value = .ok stored ∧
      s.authored? c.entity op.attributeName .default = .ok (some stored)

/-! ## Rows of commands -/

/-- Redo the commands of a row, up to the first that cannot be redone. -/
def redoAll : List Command → Session → Session
  | [], s => s
  | c :: others, s =>
    match (c.redo s).outcome with
    | .ok _ => redoAll others (c.redo s).session
    | .error _ => (c.redo s).session

/-- The commands of a row before the first that cannot be redone. -/
def redone : List Command → Session → List Command
  | [], _ => []
  | c :: others, s =>
    match (c.redo s).outcome with
    | .ok _ => c :: redone others (c.redo s).session
    | .error _ => []

/-- Redoing an undone command writes the value written last. -/
def redoing (c : Command) : Writer where
  command := c
  value? := if c.state = .undone then c.committedValue else none
  run := c.redo
  idle := by
    intro hnone s
    have hidle : ∀ value, ¬(c.state = .undone ∧ c.committedValue = some value) := by
      rintro value ⟨hstate, hvalue⟩
      rw [if_pos hstate, hvalue] at hnone
      cases hnone
    rw [redo_idle hidle]
  writes := by
    intro value hvalue s hok
    obtain ⟨hstate, hvalue⟩ : c.state = .undone ∧ c.committedValue = some value := by
      simpa using hvalue
    cases happly : (c.apply value s).outcome with
    | error e =>
      rw [redo_of_error hstate hvalue happly, happly] at hok
      cases hok
    | ok u =>
      obtain ⟨op, journal, hwrites, -⟩ := apply_of_ok happly
      rw [redo_of_ok hstate hvalue happly]
      exact ⟨op, journal, hwrites⟩
  refuses := fun s e herror => ((redo_remains c s).error e herror).2

/-- Redoing has nothing to write where the command is in place. -/
theorem inPlace_redoing {s : Store} : c.redoing.InPlace s ↔ c.InPlace s := by
  simp only [Writer.InPlace, InPlace, ValueInPlace, redoing, Option.ite_none_right_eq_some, and_imp]

/-- Redoing commands one after the other runs the row of their writers. -/
theorem redoAll_eq (commands : List Command) (s : Session) :
    redoAll commands s = Writer.runAll (commands.map redoing) s := by
  induction commands generalizing s with
  | nil => rfl
  | cons c commands ih =>
    rw [redoAll, List.map_cons, Writer.runAll]
    simp only [ih]
    rfl

/-- The writers that run are those of the commands that are redone. -/
theorem ran_redoing (commands : List Command) (s : Session) :
    Writer.ran (commands.map redoing) s = (redone commands s).map redoing := by
  induction commands generalizing s with
  | nil => rfl
  | cons c commands ih =>
    rw [redone, List.map_cons, Writer.ran]
    have hrun : c.redoing.run s = c.redo s := rfl
    rw [hrun, ih]
    cases (c.redo s).outcome <;> rfl

/-- Redoing a row of commands at positions apart from each other leaves the store exactly where all
of those that are redone were in place. -/
theorem store_redoAll_eq_iff (hat : ∀ c ∈ commands, c.At id c.recipe.position)
    (hapart : commands.Pairwise fun c c' =>
      c.recipe.position ≠ c'.recipe.position ∧ c.recipe.position.companion ≠
        some c'.recipe.position)
    (hdeclared : s.store.OrdersDeclared) :
    (redoAll commands s).store = s.store ↔ ∀ c ∈ redone commands s, c.InPlace s.store := by
  have hat' : ∀ w ∈ commands.map redoing, w.command.At id w.command.recipe.position :=
    List.forall_mem_map.2 hat
  rw [redoAll_eq, Writer.store_runAll_eq_iff hat' (List.pairwise_map.2 hapart) hdeclared,
    ran_redoing, List.forall_mem_map]
  simp only [inPlace_redoing]

end Command

/-! ## Commands of either kind -/

namespace AnyCommand

variable {command : AnyCommand} {s : Session}

/-- The commands that are redone one after the other when a command is redone: the command itself,
or the parts of a matrix command. -/
def parts : AnyCommand → List Command
  | single c => [c]
  | matrix m => [m.translate, m.rotate, m.scale]

/-- The session in which the parts are redone. -/
def redoSession (s : Session) : AnyCommand → Session
  | single _ => s
  | matrix _ => s.signal .hold

/-- The parts that are redone before the first that cannot be. -/
def redone (command : AnyCommand) (s : Session) : List Command :=
  Command.redone command.parts (command.redoSession s)

/-- Of a single command that cannot be redone, no part is redone. -/
theorem redone_single_of_error {c : Command} {e : EditError}
    (h : ((single c).redo s).outcome = .error e) : (single c).redone s = [] := by
  have houtcome : (c.redo s).outcome = .error e := h
  show Command.redone [c] s = []
  rw [Command.redone, houtcome]

/-- Redoing a command of either kind leaves what redoing its parts leaves. -/
theorem store_redo (command : AnyCommand) (s : Session) :
    (command.redo s).session.store =
      (Command.redoAll command.parts (command.redoSession s)).store := by
  cases command with
  | single c =>
    show (c.redo s).session.store = (Command.redoAll [c] s).store
    unfold Command.redoAll
    split <;> rfl
  | matrix m =>
    show (m.redo s).session.store = (Command.redoAll [_, _, _] (s.signal .hold)).store
    simp only [MatrixCommand.redo, Call.guarded, Call.andThen, MatrixCommand.translating,
      MatrixCommand.rotating, MatrixCommand.scaling, Command.redoAll]
    cases (m.translate.redo (s.signal .hold)).outcome with
    | error e => rfl
    | ok u =>
      dsimp only
      cases (m.rotate.redo (m.translate.redo (s.signal .hold)).session).outcome with
      | error e => rfl
      | ok u =>
        dsimp only
        split <;> rfl

/-- Redoing a command leaves the store exactly where all parts that are redone were in place. -/
theorem store_redo_eq_iff (h : command.Placed) (hdeclared : s.store.OrdersDeclared) :
    (command.redo s).session.store = s.store ↔ ∀ part ∈ command.redone s, part.InPlace s.store := by
  rw [store_redo]
  cases command with
  | single c =>
    obtain ⟨position, hat⟩ := h
    have hat' : ∀ c' ∈ parts (single c), c'.At c.entity c'.recipe.position := by
      intro c' hc'
      obtain rfl := List.mem_singleton.1 hc'
      rw [hat.recipe]
      exact hat
    exact Command.store_redoAll_eq_iff hat' (List.pairwise_singleton _ _) hdeclared
  | matrix m =>
    have hat : ∀ c ∈ parts (matrix m), c.At m.entity c.recipe.position := by
      simp only [parts, List.forall_mem_cons, h.translate.recipe, h.rotate.recipe, h.scale.recipe]
      exact ⟨h.translate, h.rotate, h.scale, fun c hc => nomatch hc⟩
    refine Command.store_redoAll_eq_iff (s := s.signal .hold) hat ?_ hdeclared
    simp [parts, h.translate.recipe, h.rotate.recipe, h.scale.recipe, Position.companion]

end AnyCommand

end TransformStack
