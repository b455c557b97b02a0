import TransformStack.Proofs.Command.Origin
import TransformStack.Proofs.Edit.Passing

/-!
# The writes of calls on commands

A command works on one entity: whatever a call on it does to the store is a row of writes to that
entity, also where the call fails on the way and takes back what it did, and notices are held back
from the first write to the last. A matrix command holds them back around those of its parts.
-/

namespace TransformStack

/-! ## Single commands -/

namespace Command

variable {c : Command} {id : EntityId}

/-- The command edits one entity, and so did all that it would take back. -/
structure Owns (c : Command) (id : EntityId) : Prop where
  entity : c.entity = id
  journal : ∀ edit ∈ c.journal, edit.entity = id

/-- A command owns its journal as long as entity and journal stay. -/
theorem Owns.congr {c' : Command} (h : c.Owns id) (hentity : c'.entity = c.entity)
    (hjournal : c'.journal = c.journal) : c'.Owns id :=
  ⟨hentity.trans h.entity, hjournal ▸ h.journal⟩

/-- Finding the op writes to the entity of the command only. -/
theorem stays_target (c : Command) (s : Session) :
    (c.target.on (.start s)).2.Stays c.entity s := by
  have hkeeps : c.target.Keeps (·.Stays c.entity s) :=
    target_keeps (fun _ op htx => htx.addOp op) fun _ order htx => htx.setOrder order
  exact hkeeps (.start s) (.start s)

/-- Writing a value writes to the entity of the command only. -/
theorem stays_write (c : Command) (value : Vector3) (s : Session) :
    ((c.write value).on (.start s)).2.Stays c.entity s := by
  have htarget := c.stays_target s
  rcases hrun : (c.write value).on (.start s) with ⟨e | op, tx⟩
  · rwa [write_eq_error hrun] at htarget
  · obtain ⟨mid, stored, hfound, -, hset⟩ := write_eq_ok_iff.1 hrun
    rw [hfound] at htarget
    have hwritten := htarget.setValue op.attributeName stored .default
    rwa [hset] at hwritten

/-- A value that is written leaves a write at least. -/
theorem exists_write {value : Vector3} {s : Session} {op : Op} {tx : Transaction}
    (hrun : (c.write value).on (.start s) = (.ok op, tx)) :
    ∃ trail, trail ≠ [] ∧ s.Passes c.entity trail tx.toSession := by
  have htarget := c.stays_target s
  obtain ⟨mid, stored, hfound, -, hset⟩ := write_eq_ok_iff.1 hrun
  rw [hfound] at htarget
  obtain ⟨trail, hpasses⟩ := htarget.passes
  obtain ⟨previous, store, -, hstore, rfl⟩ := Transaction.setValue_eq_ok_iff.1 hset
  have hlayer : mid.layer.onStore (mid.store.setValue c.entity op.attributeName stored .default) =
      .ok (some { mid.layer with store }) := by
    rw [hstore]
    rfl
  exact ⟨_, by simp, hpasses.wrote (.setValue op.attributeName stored .default hlayer)⟩

/-- A call on a command works on an entity: notices are held back while it writes there, and the
command goes on working on it. -/
structure Announces (id : EntityId) (s : Session) (done : Call Command) : Prop where
  brackets : ∃ trail, s.Brackets id trail done.session
  owns : done.command.Owns id

/-- A call that writes nothing has nothing to announce. -/
theorem Announces.idle (h : c.Owns id) (outcome : Except EditError Unit) (s : Session) :
    Announces id s ⟨outcome, c, s⟩ :=
  ⟨⟨[], .idle⟩, h⟩

/-- Applying a value holds notices back while it writes. -/
theorem Owns.apply (h : c.Owns id) (value : Vector3) (s : Session) :
    Announces id s (c.apply value s) := by
  have hstays := stays_write c value (s.signal .hold)
  rw [h.entity] at hstays
  rcases apply_cases c value s with ⟨op, tx, hrun, happly⟩ | ⟨e, tx, hrun, happly⟩ <;>
    rw [hrun] at hstays <;> rw [happly]
  · obtain ⟨trail, hpasses⟩ := hstays.passes
    exact ⟨⟨trail, .guarded hpasses⟩, h.entity,
      List.forall_mem_append.2 ⟨hstays.journal, h.journal⟩⟩
  · obtain ⟨trail, hpasses⟩ := hstays.rollback
    exact ⟨⟨trail, .guarded hpasses⟩, h⟩

/-- A value that is applied is announced. -/
theorem Owns.apply_of_ok (h : c.Owns id) {value : Vector3} {s : Session}
    (hok : (c.apply value s).outcome = .ok ()) :
    ∃ trail, trail ≠ [] ∧ s.Brackets id trail (c.apply value s).session := by
  rcases apply_cases c value s with ⟨op, tx, hrun, happly⟩ | ⟨e, tx, -, happly⟩ <;>
    rw [happly] at hok ⊢
  · obtain ⟨trail, hsome, hpasses⟩ := exists_write hrun
    rw [h.entity] at hpasses
    exact ⟨trail, hsome, .guarded hpasses⟩
  · cases hok

/-- Redoing holds notices back while it writes. -/
theorem Owns.redo (h : c.Owns id) (s : Session) : Announces id s (c.redo s) := by
  unfold Command.redo
  split
  · next value _ _ =>
    obtain ⟨hbrackets, howns⟩ := h.apply value s
    rcases hcall : c.apply value s with ⟨e | u, c', s'⟩ <;> rw [hcall] at hbrackets howns
    · exact ⟨hbrackets, howns⟩
    · exact ⟨hbrackets, howns.congr rfl rfl⟩
  · exact .idle h _ s

/-- Executing holds notices back while it writes. -/
theorem Owns.execute (h : c.Owns id) (s : Session) : Announces id s (c.execute s) := by
  unfold Command.execute
  split
  · exact .idle h _ s
  · exact h.redo s
  · exact .idle h _ s
  · next value _ _ _ =>
    obtain ⟨hbrackets, howns⟩ := h.apply value s
    rcases hcall : c.apply value s with ⟨e | u, c', s'⟩ <;> rw [hcall] at hbrackets howns
    · exact ⟨hbrackets, howns⟩
    · exact ⟨hbrackets, howns.congr rfl rfl⟩

/-- Undoing holds notices back while it writes. -/
theorem Owns.undo (h : c.Owns id) (s : Session) : Announces id s (c.undo s) := by
  obtain ⟨⟨trail, hpasses⟩, hleft⟩ := Journal.revert_passes h.journal (s.signal .hold)
  rcases c.undo_cases s with
    ⟨-, hundo⟩ | ⟨-, journal, s', ⟨hrevert, hundo⟩ | ⟨e, hrevert, hundo⟩⟩ <;> rw [hundo]
  · exact .idle h _ s
  all_goals
    rw [hrevert] at hpasses hleft
    exact ⟨⟨trail, .guarded hpasses⟩, h.entity, hleft⟩

/-- Giving a value holds notices back while it writes. -/
theorem Owns.set (h : c.Owns id) (value : Vector3) (s : Session) :
    Announces id s (c.set value s) := by
  have hvalue : (c.withValue value).Owns id := h.congr rfl rfl
  have hnew : { c with newValue := some value }.Owns id := h.congr rfl rfl
  obtain ⟨hbrackets, howns⟩ := hnew.apply value s
  unfold Command.set
  split
  · split
    · exact .idle hvalue _ s
    · exact .idle hvalue _ s
    · split
      · next hcall =>
        rw [hcall] at hbrackets howns
        exact ⟨hbrackets, howns.congr rfl rfl⟩
      · exact ⟨hbrackets, howns⟩
    · split
      · next hcall =>
        rw [hcall] at hbrackets howns
        exact ⟨hbrackets, howns.congr rfl rfl⟩
      · exact ⟨hbrackets, howns⟩
    · exact .idle h _ s
  · exact .idle h _ s

/-- Giving the value of an attribute holds notices back while it writes. -/
theorem Owns.setValue (h : c.Owns id) (value : Value) (s : Session) :
    Announces id s (c.setValue value s) := by
  unfold Command.setValue
  split
  · exact .idle h _ s
  · split
    · exact h.set _ s
    · exact .idle h _ s

end Command

/-! ## Matrix commands -/

namespace MatrixCommand

variable {m : MatrixCommand} {id : EntityId} {s₀ s : Session}

/-- The command edits one entity, and so do its parts. -/
structure Owns (m : MatrixCommand) (id : EntityId) : Prop where
  entity : m.entity = id
  translate : m.translate.Owns id
  rotate : m.rotate.Owns id
  scale : m.scale.Owns id

/-- The parts of a matrix command own their journals. -/
theorem Owns.part (h : m.Owns id) : ∀ p, (m.part p).Owns id :=
  Part.forall_iff.2 ⟨h.translate, h.rotate, h.scale⟩

/-- Since a session an entity has been written to, by a command that edits it. -/
structure Works (id : EntityId) (s₀ : Session) (m : MatrixCommand) (s : Session) : Prop where
  passes : ∃ trail, s₀.Passes id trail s
  owns : m.Owns id

/-- The call on a part announces what it writes to the entity of the part. -/
def Announcing (act : Command → Session → Call Command) : Prop :=
  ∀ (c : Command) (s : Session) (id : EntityId), c.Owns id → Command.Announces id s (act c s)

variable {act : Command → Session → Call Command}

/-- A matrix command starts without a write. -/
theorem Works.start (h : m.Owns id) (s : Session) : m.Works id s s := ⟨⟨[], .done s⟩, h⟩

/-- What a part announces follows what the parts before it wrote. -/
theorem Works.passes_part (h : m.Works id s₀ s) {done : Call Command}
    (hdone : Command.Announces id s done) : ∃ trail, s₀.Passes id trail done.session := by
  obtain ⟨trail, hpasses⟩ := h.passes
  obtain ⟨inner, hbrackets⟩ := hdone.brackets
  exact ⟨_, hpasses.trans hbrackets.passes⟩

/-- A call on a part goes on from the writes of the parts before it. -/
theorem Works.onPart (hact : Announcing act) (p : Part) (m : MatrixCommand) (s : Session)
    (h : m.Works id s₀ s) : (onPart act p m s).Meets (Works id s₀) (Works id s₀) := by
  cases p with
  | translate =>
    have hdone := hact m.translate s id h.owns.translate
    exact .intro ⟨h.passes_part hdone, h.owns.entity, hdone.owns, h.owns.rotate, h.owns.scale⟩
  | rotate =>
    have hdone := hact m.rotate s id h.owns.rotate
    exact .intro ⟨h.passes_part hdone, h.owns.entity, h.owns.translate, hdone.owns, h.owns.scale⟩
  | scale =>
    have hdone := hact m.scale s id h.owns.scale
    exact .intro ⟨h.passes_part hdone, h.owns.entity, h.owns.translate, h.owns.rotate, hdone.owns⟩

/-- Executing announces the writes of a single command. -/
theorem announcing_execute : Announcing Command.execute := fun _ s _ h => h.execute s

/-- Undoing announces the writes of a single command. -/
theorem announcing_undo : Announcing Command.undo := fun _ s _ h => h.undo s

/-- Redoing announces the writes of a single command. -/
theorem announcing_redo : Announcing Command.redo := fun _ s _ h => h.redo s

/-- A call on a matrix command holds notices back while it writes to the entity, and the command
goes on editing it. -/
structure Announces (id : EntityId) (s : Session) (done : Call MatrixCommand) : Prop where
  brackets : ∃ trail, s.Brackets id trail done.session
  owns : done.command.Owns id

/-- A guarded call on the parts announces all their writes once. -/
theorem Works.announces {act : MatrixCommand → Session → Call MatrixCommand}
    (h : (act m (s.signal .hold)).Meets (Works id (s.signal .hold)) (Works id (s.signal .hold))) :
    Announces id s (Call.guarded act m s) := by
  obtain ⟨⟨trail, hpasses⟩, howns⟩ := h.leaves
  exact ⟨⟨trail, .guarded hpasses⟩, howns⟩

/-- Executing writes to the entity of the command only, also where parts have to be undone. -/
theorem Owns.execute (h : m.Owns id) (s : Session) : Announces id s (m.execute s) := by
  have hstart := Works.start h (s.signal .hold)
  refine Works.announces (.andThen (P := Works id (s.signal .hold))
    (.andThen (hstart.onPart announcing_execute .translate m _) ?_) ?_)
  · exact fun m s h => .orElse (h.onPart announcing_execute .rotate m s)
      (Works.onPart announcing_undo .translate)
  · exact fun m s h => .orElse (h.onPart announcing_execute .scale m s) fun m s h =>
      .andThen (h.onPart announcing_undo .rotate m s) (Works.onPart announcing_undo .translate)

/-- Undoing a matrix command holds notices back while it writes. -/
theorem Owns.undo (h : m.Owns id) (s : Session) : Announces id s (m.undo s) := by
  have hstart := Works.start h (s.signal .hold)
  exact Works.announces (.andThen (.andThen (hstart.onPart announcing_undo .scale m _)
    (Works.onPart announcing_undo .rotate)) (Works.onPart announcing_undo .translate))

/-- Redoing a matrix command holds notices back while it writes. -/
theorem Owns.redo (h : m.Owns id) (s : Session) : Announces id s (m.redo s) := by
  have hstart := Works.start h (s.signal .hold)
  exact Works.announces (.andThen (.andThen (hstart.onPart announcing_redo .translate m _)
    (Works.onPart announcing_redo .rotate)) (Works.onPart announcing_redo .scale))

/-- Giving a matrix command values leaves it with its entity. -/
theorem Owns.set (h : m.Owns id) (matrix : Matrix4) (s : Session) :
    (m.set matrix s).command.Owns id := by
  have hset : ∀ value, Announcing (·.set value) := fun value _ s _ h => h.set value s
  have hworks : (m.set matrix s).Meets (Works id s) (Works id s) :=
    .andThen (.andThen ((Works.start h s).onPart (hset _) .translate m s)
      (Works.onPart (hset _) .rotate)) (Works.onPart (hset _) .scale)
  exact hworks.leaves.owns

end MatrixCommand

/-! ## Commands of either kind -/

namespace AnyCommand

variable {command : AnyCommand} {s : Session}

/-- The command and its parts edit one entity, and so did all that they would take back. -/
def Owns : AnyCommand → Prop
  | single c => c.Owns c.entity
  | matrix m => m.Owns m.entity

/-- A call on a command holds notices back while it writes to the entity of the command, and the
command goes on editing it. -/
structure Announces (id : EntityId) (s : Session) (done : Call AnyCommand) : Prop where
  brackets : ∃ trail, s.Brackets id trail done.session
  entity : done.command.entity = id
  owns : done.command.Owns

/-- A single command of either kind announces what the command does. -/
theorem Announces.single {id : EntityId} {done : Call Command}
    (h : Command.Announces id s done) :
    Announces id s ⟨done.outcome, .single done.command, done.session⟩ :=
  ⟨h.brackets, h.owns.entity, rfl, fun edit hedit =>
    (h.owns.journal edit hedit).trans h.owns.entity.symm⟩

/-- A matrix command of either kind announces what the command does. -/
theorem Announces.matrix {id : EntityId} {done : Call MatrixCommand}
    (h : MatrixCommand.Announces id s done) :
    Announces id s ⟨done.outcome, .matrix done.command, done.session⟩ := by
  obtain ⟨hbrackets, howns⟩ := h
  refine ⟨hbrackets, howns.entity, ?_⟩
  obtain rfl := howns.entity
  exact howns

/-- Executing a command of either kind holds notices back while it writes. -/
theorem Owns.execute (h : command.Owns) (s : Session) :
    Announces command.entity s (command.execute s) := by
  cases command with
  | single c => exact .single (Command.Owns.execute h s)
  | matrix m => exact .matrix (MatrixCommand.Owns.execute h s)

/-- Undoing a command of either kind holds notices back while it writes. -/
theorem Owns.undo (h : command.Owns) (s : Session) :
    Announces command.entity s (command.undo s) := by
  cases command with
  | single c => exact .single (Command.Owns.undo h s)
  | matrix m => exact .matrix (MatrixCommand.Owns.undo h s)

/-- Redoing a command of either kind holds notices back while it writes. -/
theorem Owns.redo (h : command.Owns) (s : Session) :
    Announces command.entity s (command.redo s) := by
  cases command with
  | single c => exact .single (Command.Owns.redo h s)
  | matrix m => exact .matrix (MatrixCommand.Owns.redo h s)

/-- A command that has not noted anything to take back works on its own entity, if its parts do. -/
theorem Ready.owns (h : command.Ready) (hplaced : command.Placed) : command.Owns := by
  have hpart : ∀ {c : Command} {id position}, c.Ready → c.At id position → c.Owns id := by
    intro c id position hready hat
    refine ⟨hat.entity, ?_⟩
    rw [hready.journal]
    exact List.forall_mem_nil _
  cases command with
  | single c =>
    obtain ⟨position, hat⟩ := hplaced
    exact hpart h hat
  | matrix m =>
    exact ⟨rfl, hpart h.translate hplaced.translate, hpart h.rotate hplaced.rotate,
      hpart h.scale hplaced.scale⟩

/-- Whatever was done with a command of the host, it works on its own entity. -/
theorem Reached.owns (h : command.Reached) : command.Owns := by
  induction h with
  | fresh h => exact h.ready.owns h.placed
  | executed s h ih => exact (ih.execute s).owns
  | undone s h ih => exact (ih.undo s).owns
  | redone s h ih => exact (ih.redo s).owns
  | set value s h ih => exact (Announces.single (Command.Owns.set ih value s)).owns
  | setValue value s h ih => exact (Announces.single (Command.Owns.setValue ih value s)).owns
  | @setMatrix m matrix s h ih =>
    have hset := MatrixCommand.Owns.set ih matrix s
    obtain hentity := hset.entity
    rw [← hentity] at hset
    exact hset

end AnyCommand

end TransformStack
