import TransformStack.Proofs.Command.Failing
import TransformStack.Proofs.Command.Origin
import TransformStack.Proofs.Edit.Provenance

/-!
# Where the values that commands write come from

A command writes the values that it was given, converted for the op that is there, and tokens of the
order. Undoing writes what was there before. So if a source vouches for what is authored at first,
for the tokens, and for every value that the command is given, it vouches for all that is authored
after any calls, also where calls fail and where what they wrote cannot be taken back.
-/

namespace TransformStack

/-- What a command is for: it writes some values to the op at a position of an entity. -/
structure Assignment where
  entity : EntityId
  position : Position
  converter : Converter
  values : Vector3 → Prop

/-- The source has all that comes of an assignment: tokens in the order, and the stored forms of the
values. -/
structure Source.Covers (P : Source) (a : Assignment) : Prop where
  tokens : ∀ names, P a.entity Op.orderName .default (.tokens names)
  stored : ∀ op given value, Position.ofOp? op = some a.position → a.values given →
    a.converter.store op given = .ok value → P a.entity op.attributeName .default value

/-- A command keeps to its assignment: whatever it remembers was given to it, or comes from the
source, and so does all that is authored. -/
structure Command.Draws (P : Source) (a : Assignment) (c : Command) (s : Session) : Prop where
  place : c.At a.entity a.position
  converter : c.converter = a.converter
  new : ∀ value, c.newValue = some value → a.values value
  committed : ∀ value, c.committedValue = some value → a.values value
  journal : ∀ edit ∈ c.journal, edit.From P
  store : s.store.From P

namespace Command.Draws

variable {P : Source} {a : Assignment} {c : Command} {s : Session} {value : Vector3}

/-- What else is authored does not matter to a command if it comes from the source. -/
theorem move (h : c.Draws P a s) {s' : Session} (hstore : s'.store.From P) : c.Draws P a s' :=
  { h with store := hstore }

/-- The command may note any values of its assignment. -/
theorem note (h : c.Draws P a s) (state : CommandState) {new committed : Option Vector3}
    (hnew : ∀ value, new = some value → a.values value)
    (hcommitted : ∀ value, committed = some value → a.values value) :
    { c with newValue := new, committedValue := committed, state }.Draws P a s :=
  ⟨h.place.congr rfl rfl rfl, h.converter, hnew, hcommitted, h.journal, h.store⟩

/-! ## Writing -/

/-- Finding the op of a command authors nothing that is not from the source. -/
theorem target (h : c.Draws P a s) (hcovers : P.Covers a) :
    c.target.Keeps (Transaction.From P) := by
  have htokens (names : List String) : P c.entity Op.orderName .default (.tokens names) := by
    rw [h.place.entity]
    exact hcovers.tokens names
  exact target_keeps (fun _ op htx => htx.addOp htokens op)
    fun _ order htx => htx.setOrder htokens order

/-- Writing a value of the assignment authors nothing that is not from the source. -/
theorem write (h : c.Draws P a s) (hcovers : P.Covers a) (hvalue : a.values value)
    {tx : Transaction} (htx : tx.From P) : ((c.write value).on tx).2.From P := by
  have htarget := h.target hcovers tx htx
  rcases hrun : (c.write value).on tx with ⟨e | op, tx'⟩
  · rwa [write_eq_error hrun] at htarget
  · obtain ⟨mid, stored, hfound, hstored, hset⟩ := write_eq_ok_iff.1 hrun
    rw [hfound] at htarget
    rw [h.converter] at hstored
    have hcomes : P c.entity op.attributeName .default stored := by
      rw [h.place.entity]
      exact hcovers.stored op value stored (h.place.ofOp?_of_target hfound) hvalue hstored
    have hwritten := htarget.setValue hcomes
    rwa [hset] at hwritten

/-- Applying a value of the assignment leaves what the source has, also where it fails. -/
theorem apply (h : c.Draws P a s) (hcovers : P.Covers a) (hvalue : a.values value) :
    (c.apply value s).command.Draws P a (c.apply value s).session := by
  have hplace := h.place.apply value s
  have hwritten := h.write hcovers hvalue (.start (s := s.signal .hold) h.store)
  rcases apply_cases c value s with ⟨op, tx, hrun, happly⟩ | ⟨e, tx, hrun, happly⟩ <;>
    rw [hrun] at hwritten <;> rw [happly] at hplace ⊢
  · exact ⟨hplace, h.converter, h.new, h.committed,
      List.forall_mem_append.2 ⟨hwritten.journal, h.journal⟩, hwritten.store⟩
  · exact ⟨hplace, h.converter, h.new, h.committed, h.journal, hwritten.rollback⟩

/-! ## Calls -/

/-- Redoing keeps to the assignment. -/
theorem redo (h : c.Draws P a s) (hcovers : P.Covers a) :
    (c.redo s).command.Draws P a (c.redo s).session := by
  unfold Command.redo
  split
  · next value _ hvalue =>
    have happly := h.apply hcovers (h.committed value hvalue)
    rcases hcall : c.apply value s with ⟨e | u, c', s'⟩ <;> rw [hcall] at happly
    · exact happly
    · refine happly.note .redone ?_ happly.committed
      rintro _ ⟨⟩
      exact h.committed value hvalue
  · exact h

/-- Executing keeps to the assignment. -/
theorem execute (h : c.Draws P a s) (hcovers : P.Covers a) :
    (c.execute s).command.Draws P a (c.execute s).session := by
  unfold Command.execute
  split
  · exact h
  · exact h.redo hcovers
  · exact h
  · next value hvalue _ _ =>
    have happly := h.apply hcovers (h.new value hvalue)
    rcases hcall : c.apply value s with ⟨e | u, c', s'⟩ <;> rw [hcall] at happly
    · exact happly
    · refine happly.note _ happly.new ?_
      rintro _ ⟨⟩
      exact h.new value hvalue

/-- Undoing keeps to the assignment. -/
theorem undo (h : c.Draws P a s) : (c.undo s).command.Draws P a (c.undo s).session := by
  have hstore : (s.signal .hold).store.From P := h.store
  obtain ⟨hstore, hjournal⟩ :=
    Journal.revert_keeps (fun _ _ _ hedit hs => hedit.revert hs) h.journal hstore
  have hplace := h.place.undo s
  rcases c.undo_cases s with
    ⟨-, hundo⟩ | ⟨-, journal, s', ⟨hrevert, hundo⟩ | ⟨e, hrevert, hundo⟩⟩ <;>
    rw [hundo] at hplace ⊢
  · exact h
  all_goals
    rw [hrevert] at hstore hjournal
    exact ⟨hplace, h.converter, h.new, h.committed, hjournal, hstore⟩

/-- Giving a value keeps to the assignment if the value belongs to it or is rejected. -/
theorem set (h : c.Draws P a s) (hcovers : P.Covers a)
    (hvalue : value.isFinite → a.values value) :
    (c.set value s).command.Draws P a (c.set value s).session := by
  cases hfinite : value.isFinite with
  | false =>
    rw [set_of_not_finite hfinite]
    exact h
  | true =>
    have hgiven : ∀ new, some value = some new → a.values new := by
      rintro _ ⟨⟩
      exact hvalue hfinite
    rcases c.state_cases with hwaiting | happlied | hundone
    · rw [set_of_waiting hfinite hwaiting]
      exact h.note .pending hgiven h.committed
    · have htaken : { c with newValue := some value }.Draws P a s :=
        h.note c.state hgiven h.committed
      have happly := htaken.apply hcovers (hvalue hfinite)
      cases houtcome : (Command.apply { c with newValue := some value } value s).outcome with
      | ok u =>
        rw [set_of_applied happlied hfinite houtcome]
        exact happly.note _ happly.new hgiven
      | error e =>
        rw [set_of_applied_of_error happlied hfinite houtcome]
        exact happly
    · rw [set_of_undone hfinite hundone]
      exact h

/-- Giving the value of an attribute keeps to the assignment if its vector belongs to it or is
rejected. -/
theorem setValue {value : Value} (h : c.Draws P a s) (hcovers : P.Covers a)
    (hvalue : ∀ v, value.toVector? = some v → v.isFinite → a.values v) :
    (c.setValue value s).command.Draws P a (c.setValue value s).session := by
  unfold Command.setValue
  split
  · exact h
  · split
    · next v hv => exact h.set hcovers (hvalue v hv)
    · exact h

/-- Every call keeps to the assignment if the value that it gives belongs to it or is rejected. -/
theorem call (h : c.Draws P a s) (hcovers : P.Covers a) {call : CommandCall}
    (hvalue : ∀ v, call.value? = some v → v.isFinite → a.values v) :
    (c.call s call).command.Draws P a (c.call s call).session := by
  cases call with
  | set v => exact h.set hcovers (hvalue v rfl)
  | setValue value => exact h.setValue hcovers hvalue
  | execute => exact h.execute hcovers
  | undo => exact h.undo
  | redo => exact h.redo hcovers

end Command.Draws

/-! ## Matrix commands -/

/-- Each part of a matrix command keeps to an assignment of its own. -/
def MatrixCommand.Draws (P : Source) (a : Part → Assignment) (m : MatrixCommand) (s : Session) :
    Prop :=
  ∀ q, (m.part q).Draws P (a q) s

namespace MatrixCommand.Draws

variable {P : Source} {a : Part → Assignment} {m : MatrixCommand} {s : Session}
  {act : Command → Session → Call Command}

/-- A call on one part leaves the other parts, in a session where all still comes from the
source. -/
theorem onPart (p : Part) (h : m.Draws P a s)
    (hact : (act (m.part p) s).command.Draws P (a p) (act (m.part p) s).session) :
    (onPart act p m s).Meets (Draws P a) (Draws P a) := by
  refine onPart_meets p (.intro fun q => ?_)
  by_cases hq : q = p
  · subst hq
    rwa [part_withPart]
  · rw [part_withPart_of_ne hq]
    exact (h q).move hact.store

/-- A call that keeps single commands to their assignments keeps the parts to theirs. -/
theorem sustains (hact : ∀ p c s, c.Draws P (a p) s →
      (act c s).command.Draws P (a p) (act c s).session) :
    Sustains (Draws P a) act :=
  fun p _ _ h => h.onPart p (hact p _ _ (h p))

/-- Giving a matrix keeps the parts to their assignments if its values belong to them or are
rejected. -/
theorem set (h : m.Draws P a s) (hcovers : ∀ p, P.Covers (a p)) {matrix : Matrix4}
    (hvalue : ∀ p, let value := (Placement.ofMatrix matrix).value p
      value.isFinite → (a p).values value) :
    (m.set matrix s).Meets (Draws P a) (Draws P a) := by
  have hpart (p : Part) (m : MatrixCommand) (s : Session) (h : m.Draws P a s) :
      (MatrixCommand.onPart (·.set ((Placement.ofMatrix matrix).value p)) p m s).Meets (Draws P a)
        (Draws P a) :=
    h.onPart p ((h p).set (hcovers p) (hvalue p))
  exact .andThen (.andThen (hpart .translate m s h) (hpart .rotate)) (hpart .scale)

/-- Every call keeps the parts to their assignments if what it gives belongs to them or is
rejected. -/
theorem call (h : m.Draws P a s) (hcovers : ∀ p, P.Covers (a p)) {call : MatrixCall}
    (hvalue : ∀ matrix, call = .set matrix → ∀ p, let value := (Placement.ofMatrix matrix).value p
      value.isFinite → (a p).values value) :
    (m.call s call).Meets (Draws P a) (Draws P a) := by
  have hsignal (m : MatrixCommand) (s : Session) (signal : Signal) (h : m.Draws P a s) :
      m.Draws P a (s.signal signal) :=
    fun p => (h p).move (h p).store
  have hundo : Sustains (Draws P a) Command.undo := sustains fun _ _ _ h => h.undo
  cases call with
  | set matrix => exact h.set hcovers (hvalue matrix rfl)
  | execute =>
    exact Sustains.execute hsignal (sustains fun p _ _ h => h.execute (hcovers p)) hundo h
  | undo => exact Sustains.undo hsignal hundo h
  | redo => exact Sustains.redo hsignal (sustains fun p _ _ h => h.redo (hcovers p)) h

end MatrixCommand.Draws

end TransformStack
