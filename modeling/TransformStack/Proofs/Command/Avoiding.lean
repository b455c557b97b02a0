import TransformStack.Proofs.Command.Effects
import TransformStack.Proofs.Command.Recipes
import TransformStack.Proofs.Edit.Avoiding

/-!
# Attributes that commands avoid

A command never writes to attributes of some names if neither its recipe nor any op that it could
store a value in goes by them, and if its journal takes back no write to them. No call on the
command changes that, on whatever store and whether it succeeds or fails.
-/

namespace TransformStack

namespace Command

/-- No write of the command goes to an attribute of the given names: the recipe makes no such op, a
value is stored in no such op, and no such write is taken back. -/
structure Avoids (names : String → Prop) (c : Command) : Prop where
  order : ¬names Op.orderName
  place : ∃ id position, c.At id position
  recipe : ∀ inverse, ¬names (c.recipe.op inverse).attributeName
  stored : ∀ op value stored, Position.ofOp? op = some c.recipe.position →
    c.converter.store op value = .ok stored → ¬names op.attributeName
  journal : ∀ edit ∈ c.journal, edit.Avoids names

namespace Avoids

variable {names : String → Prop} {c c' : Command} {before : Store} {s : Session} {value : Vector3}

/-- Commands that edit one op in one way, and remember the same, avoid the same. -/
theorem congr (h : c.Avoids names) (hsame : c'.SameWrites c) : c'.Avoids names := by
  obtain ⟨hentity, hrecipe, hconverter⟩ := bare_eq_iff.1 hsame.bare
  obtain ⟨id, position, hat⟩ := h.place
  refine ⟨h.order, ⟨id, position, hat.congr hentity hrecipe hsame.op⟩, hrecipe ▸ h.recipe, ?_,
    hsame.journal ▸ h.journal⟩
  rw [hrecipe, hconverter]
  exact h.stored

/-! ## Writing -/

/-- Finding the op of a command that avoids names touches no attribute of such a name. -/
theorem target (h : c.Avoids names) : c.target.Keeps (·.Avoids names before) :=
  target_keeps_of_sort (fun _ inverse htx => htx.addOp h.order (h.recipe inverse))
    fun _ _ htx _ _ => htx.setOrder h.order _

/-- Neither does writing a value, whether the write goes through or not. -/
theorem write (h : c.Avoids names) {tx : Transaction} (htx : tx.Avoids names before) :
    ((c.write value).on tx).2.Avoids names before := by
  have htarget := h.target tx htx
  rcases hrun : (c.write value).on tx with ⟨e | op, tx'⟩
  · rwa [write_eq_error hrun] at htarget
  · obtain ⟨mid, stored, hfound, hstored, hset⟩ := write_eq_ok_iff.1 hrun
    rw [hfound] at htarget
    obtain ⟨id, position, hat⟩ := h.place
    have hplace : Position.ofOp? op = some c.recipe.position := by
      rw [hat.ofOp?_of_target hfound, hat.recipe]
    have hwritten :
        (mid.setValue c.entity op.attributeName stored .default).2.Avoids names before :=
      Transaction.Avoids.setValue htarget (h.stored op value stored hplace hstored) stored .default
    rwa [hset] at hwritten

/-! ## Calls -/

/-- Applying a value leaves the attributes that a command avoids, and the command goes on avoiding
them. -/
theorem apply (h : c.Avoids names) (value : Vector3) (s : Session) :
    (c.apply value s).command.Avoids names ∧
      s.store.SameAt names (c.apply value s).session.store := by
  have hstart : (Transaction.start (s.signal .hold)).Avoids names s.store := .start (.refl s.store)
  have hwritten : ((c.write value).on (.start (s.signal .hold))).2.Avoids names s.store :=
    h.write hstart
  obtain ⟨id, position, hat⟩ := h.place
  have hplace := hat.apply value s
  rcases apply_cases c value s with ⟨op, tx, hrun, happly⟩ | ⟨e, tx, hrun, happly⟩ <;>
    rw [hrun] at hwritten <;> rw [happly] at hplace ⊢
  · exact ⟨⟨h.order, ⟨id, position, hplace⟩, h.recipe, h.stored,
      List.forall_mem_append.2 ⟨hwritten.journal, h.journal⟩⟩, hwritten.store⟩
  · exact ⟨h, hwritten.rollback⟩

/-- Undoing takes back no write to an attribute that the command avoids. -/
theorem undo (h : c.Avoids names) (s : Session) :
    (c.undo s).command.Avoids names ∧ s.store.SameAt names (c.undo s).session.store := by
  have hhold : s.store.SameAt names (s.signal .hold).store := .refl s.store
  obtain ⟨hstore, hjournal⟩ :=
    Journal.revert_keeps (fun _ _ _ hedit hsame => hedit.revert hsame) h.journal hhold
  obtain ⟨id, position, hat⟩ := h.place
  have hplace := hat.undo s
  rcases c.undo_cases s with
    ⟨-, hundo⟩ | ⟨-, journal, s', ⟨hrevert, hundo⟩ | ⟨e, hrevert, hundo⟩⟩ <;>
    rw [hundo] at hplace ⊢
  · exact ⟨h, .refl _⟩
  all_goals
    rw [hrevert] at hstore hjournal
    exact ⟨⟨h.order, ⟨id, position, hplace⟩, h.recipe, h.stored, hjournal⟩, hstore⟩

/-- Whatever the host does with a command, it goes on avoiding what it avoided. -/
theorem call (h : c.Avoids names) (s : Session) (call : CommandCall) :
    (c.call s call).command.Avoids names ∧
      s.store.SameAt names (c.call s call).session.store := by
  by_cases hundo : call = .undo
  · rw [hundo]
    exact h.undo s
  · have hattempts := attempts_call c s hundo
    generalize c.call s call = done at hattempts
    cases hattempts with
    | idle hsame => exact ⟨h.congr hsame, .refl _⟩
    | failed hsame => exact (h.congr hsame).apply _ s
    | applied hsame _ hafter =>
      obtain ⟨happlied, hstore⟩ := (h.congr hsame).apply _ s
      exact ⟨happlied.congr hafter, hstore⟩

end Avoids

end Command

/-! ## Commands of either kind -/

/-- The parts of a matrix command avoid the names, and those are the same as at first. -/
def MatrixCommand.AvoidsFrom (names : String → Prop) (before : Store) (m : MatrixCommand)
    (s : Session) : Prop :=
  (∀ p, (m.part p).Avoids names) ∧ before.SameAt names s.store

namespace MatrixCommand.AvoidsFrom

variable {names : String → Prop} {before : Store} {m : MatrixCommand} {s : Session}
  {act : Command → Session → Call Command}

/-- A call on one part leaves what the whole command avoids if it leaves what the part avoids. -/
theorem onPart (p : Part) (h : m.AvoidsFrom names before s)
    (hact : (act (m.part p) s).command.Avoids names ∧
      s.store.SameAt names (act (m.part p) s).session.store) :
    (onPart act p m s).Meets (AvoidsFrom names before) (AvoidsFrom names before) := by
  refine onPart_meets p (.intro ⟨fun q => ?_, h.2.trans hact.2⟩)
  by_cases hq : q = p
  · subst hq
    rw [part_withPart]
    exact hact.1
  · rw [part_withPart_of_ne hq]
    exact h.1 q

/-- No call on a matrix command touches an attribute that the command avoids. -/
theorem call (h : m.AvoidsFrom names before s) (call : MatrixCall) :
    (m.call s call).Meets (AvoidsFrom names before) (AvoidsFrom names before) := by
  have hpart (call : CommandCall) :
      Sustains (AvoidsFrom names before) fun c s => c.call s call :=
    fun p m s h => h.onPart p ((h.1 p).call s call)
  have hsignal (m : MatrixCommand) (s : Session) (signal : Signal)
      (h : m.AvoidsFrom names before s) : m.AvoidsFrom names before (s.signal signal) := h
  cases call with
  | set matrix =>
    exact .andThen (.andThen (hpart (.set _) .translate m s h) (hpart (.set _) .rotate))
      (hpart (.set _) .scale)
  | execute => exact Sustains.execute hsignal (hpart .execute) (hpart .undo) h
  | undo => exact Sustains.undo hsignal (hpart .undo) h
  | redo => exact Sustains.redo hsignal (hpart .redo) h

end MatrixCommand.AvoidsFrom

end TransformStack
