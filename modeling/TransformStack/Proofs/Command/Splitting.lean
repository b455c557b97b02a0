import TransformStack.Proofs.Command.Recovering
import TransformStack.Proofs.Stack.Locks

/-!
# A matrix command and its parts

Executing a matrix command that can be executed comes to executing its parts one after the other,
and undoing it to undoing them in reverse, up to the first that cannot be undone. The parts can
also be had one at a time: a view offers each of them just as well on the store that those before it
have left, since what they write bars nothing at the other positions.
-/

namespace TransformStack

/-! ## Undoing in turn -/

/-- Reverting stops at the same edit again when it is attempted from where it stopped. -/
theorem Journal.revert_again {journal left : Journal} {s s' s'' : Session} {e : EditError}
    (h : journal.revert s = ((.error e, left), s')) (hlayer : s''.layer = s'.layer) :
    left.revert s'' = ((.error e, left), s'') := by
  obtain ⟨edits, -, -, hleaves⟩ := exists_reverted journal s
  rw [h] at hleaves
  cases hleaves with
  | stopped hfails =>
    have hstore : s''.store = s'.store := congrArg Layer.store hlayer
    exact revert_of_fails (hstore ▸ hfails) _

namespace Command

variable {c : Command} {s : Session}

/-- Undo commands one after the other, up to the first that cannot be undone. -/
def undoAll : List Command → Layer → Except EditError Unit × Layer
  | [], layer => (.ok (), layer)
  | c :: commands, layer =>
    let call := c.undo { layer }
    match call.outcome with
    | .ok _ => undoAll commands call.session.layer
    | .error e => (.error e, call.session.layer)

/-- The session in which the first command is undone does not matter, but for its layer. -/
theorem undoAll_of_ok (h : (c.undo s).outcome = .ok ()) (commands : List Command) :
    undoAll (c :: commands) s.layer = undoAll commands (c.undo s).session.layer := by
  obtain ⟨houtcome, -, hlayer⟩ := layerOnly_undo c s { layer := s.layer } rfl
  rw [undoAll, ← houtcome, h, hlayer]

/-- Undoing commands stops at the first that cannot be undone. -/
theorem undoAll_of_error {e : EditError} (h : (c.undo s).outcome = .error e)
    (commands : List Command) :
    undoAll (c :: commands) s.layer = (.error e, (c.undo s).session.layer) := by
  obtain ⟨houtcome, -, hlayer⟩ := layerOnly_undo c s { layer := s.layer } rfl
  rw [undoAll, ← houtcome, h, hlayer]

/-- A command that could not be undone cannot be undone from there either, and the attempt changes
nothing. -/
theorem undo_again {e : EditError} (herror : (c.undo s).outcome = .error e) {s' : Session}
    (hlayer : s'.layer = (c.undo s).session.layer) :
    ((c.undo s).command.undo s').Alike ⟨.error e, (c.undo s).command, s'⟩ := by
  rcases c.undo_cases s with
    ⟨-, hundo⟩ | ⟨happlied, journal, last, ⟨-, hundo⟩ | ⟨e', hrevert, hundo⟩⟩ <;>
    rw [hundo] at herror hlayer <;> cases herror
  have hagain : journal.revert (s'.signal .hold) = ((.error e, journal), s'.signal .hold) :=
    Journal.revert_again hrevert hlayer
  have hstays : { c with journal := journal }.state.isApplied := happlied
  rw [hundo, undo_of_error hstays hagain]
  exact ⟨rfl, rfl, rfl⟩

end Command

namespace MatrixCommand

variable {m m₀ : MatrixCommand} {s : Session} {parts : List Part}

/-- Undoing parts in turn is undoing their commands one after the other. -/
theorem inTurn_undo (hnodup : parts.Nodup) (hsame : ∀ q ∈ parts, m.part q = m₀.part q) :
    let done := inTurn (fun _ => Command.undo) parts m s
    (done.outcome, done.session.layer) = Command.undoAll (parts.map m₀.part) s.layer := by
  -- On the parts that are to come, in which `m` still agrees with `m₀`.
  induction parts generalizing m s with
  | nil => rfl
  | cons p parts ih =>
    obtain ⟨hnew, hnodup⟩ := List.nodup_cons.1 hnodup
    obtain ⟨hp, hothers⟩ := List.forall_mem_cons.1 hsame
    rw [List.map_cons]
    cases houtcome : ((m₀.part p).undo s).outcome with
    | ok u =>
      rw [inTurn_of_ok (hp ▸ houtcome), Command.undoAll_of_ok houtcome, hp]
      exact ih hnodup (part_withPart_of_mem hnew hothers _)
    | error e =>
      rw [inTurn_of_error (hp ▸ houtcome), Command.undoAll_of_error houtcome, hp]

/-- Undoing a matrix command is undoing its parts, the last first. -/
theorem undo_eq_undoAll (m : MatrixCommand) (s : Session) :
    ((m.undo s).outcome, (m.undo s).session.layer) =
      Command.undoAll [m.scale, m.rotate, m.translate] s.layer := by
  have hturn : m.undo s = { inTurn (fun _ => Command.undo) [.scale, .rotate, .translate] m
      (s.signal .hold) with
    session := (inTurn (fun _ => Command.undo) [.scale, .rotate, .translate] m
      (s.signal .hold)).session.signal .release } := by
    simp only [inTurn, Call.andThen_done, ← Call.andThen_assoc]
    rfl
  rw [hturn]
  exact inTurn_undo (s := s.signal .hold) (by decide) fun _ _ => rfl

end MatrixCommand

/-! ## Executing in turn -/

namespace Call

variable {κ : Type} {call : Call κ} {next : κ → Session → Call κ}

/-- Two calls succeed one after the other if both do. -/
theorem andThen_eq_ok_iff : (call.andThen next).outcome = .ok () ↔
    call.outcome = .ok () ∧ (next call.command call.session).outcome = .ok () := by
  cases houtcome : call.outcome with
  | ok u => simp [andThen_of_ok houtcome]
  | error e => simp [andThen_of_error houtcome, houtcome]

/-- A call that is made up for when it fails has succeeded only if it did by itself. -/
theorem orElse_eq_ok_iff : (call.orElse next).outcome = .ok () ↔ call.outcome = .ok () := by
  cases houtcome : call.outcome with
  | ok u => simp [orElse_of_ok houtcome, houtcome]
  | error e =>
    obtain ⟨⟨e', herror⟩, -⟩ := orElse_of_error houtcome next
    simp [herror]

end Call

namespace Command

variable {c : Command} {s s' : Session}

/-- What executing a new command comes to, where it can be executed, depends on the layer alone. -/
theorem Ready.execute_alike (h : c.Ready) (hok : (c.execute s).outcome = .ok ())
    (hlayer : s'.layer = s.layer) : (c.execute s').Alike (c.execute s) := by
  obtain ⟨value, hvalue, hmoves⟩ := h.execute_iff.1 ⟨hok, rfl⟩
  rw [← hlayer] at hmoves
  obtain ⟨hok', hafter⟩ := h.execute_iff.2 ⟨value, hvalue, hmoves⟩
  refine ⟨hok'.trans hok.symm, ?_, hafter⟩
  have hwrite : c.toWrite? = some value := by rw [Command.toWrite?, h.state, hvalue]
  have happly := apply_of_execute_ok hwrite hok
  have happly' := apply_of_execute_ok hwrite hok'
  -- The op and the journal of an execution are those of writing the value on a free layer.
  obtain ⟨op, journal, ⟨tx, hrun, -, rfl⟩, hcommand⟩ := apply_of_ok happly
  obtain ⟨op', journal', ⟨tx', hrun', -, rfl⟩, hcommand'⟩ := apply_of_ok happly'
  rw [show s'.store = s.store from congrArg Layer.store hlayer] at hrun'
  cases hrun.symm.trans hrun'
  rw [Command.execute_of_ok hwrite happly, Command.execute_of_ok hwrite happly', hcommand,
    hcommand']

end Command

namespace MatrixCommand

variable {m : MatrixCommand} {s : Session}

/-- A matrix command that can be executed comes to its parts. -/
theorem execute_parts (hok : (m.execute s).outcome = .ok ()) :
    (m.translated s).outcome = .ok () ∧ (m.rotated s).outcome = .ok () ∧
      (m.scaled s).outcome = .ok () ∧ m.execute s = ⟨.ok (), { m with
        translate := (m.translated s).command
        rotate := (m.rotated s).command
        scale := (m.scaled s).command }, (m.scaled s).session.signal .release⟩ := by
  have hparts : (m.executeParts (s.signal .hold)).outcome = .ok () := hok
  rw [executeParts, Call.andThen_eq_ok_iff, Call.andThen_eq_ok_iff, Call.orElse_eq_ok_iff,
    Call.orElse_eq_ok_iff] at hparts
  obtain ⟨⟨hfirst, hsecond⟩, hthird⟩ := hparts
  rw [Call.andThen_of_ok hfirst, Call.orElse_of_ok hsecond] at hthird
  exact ⟨hfirst, hsecond, hthird, execute_of_ok hfirst hsecond hthird⟩

end MatrixCommand

/-! ## Offers in turn -/

namespace StackView

variable {view : StackView} {s s' : Store} {p : Position} {value : Vector3}

/-- What is offered at a position depends on the op there, and on whether the edit is barred. -/
theorem offerAt_congr (hop : view.op? s' p = view.op? s p)
    (hbar : view.editBar? s' p = view.editBar? s p) :
    view.offerAt s' p value = view.offerAt s p value := by
  have hoffer (recipe : Recipe) (converter : Converter) (hp : recipe.position = p) :
      view.offer s' recipe converter value = view.offer s recipe converter value := by
    rw [offer, offer, hp, hbar]
  have hrotation : view.offerRotation s' p value = view.offerRotation s p value := by
    rw [offerRotation, offerRotation, hop]
    congr 1
    funext op
    cases op with
    | none => exact hoffer _ _ rfl
    | some op =>
      dsimp only
      congr 1
      funext form
      exact hoffer _ _ rfl
  cases p <;> first | exact hrotation | exact hoffer _ _ rfl | rfl

end StackView

namespace Store

variable {s : Store} {id : EntityId} {name : String}

/-- An edit is not barred if the store is open for writing and the attribute is not locked. -/
theorem editBar?_eq_none_iff : s.editBar? id name = .ok none ↔
    s.readOnly = false ∧ s.Unlocked id name := by
  rw [editBar?, targetBar?]
  cases hreadOnly : s.readOnly with
  | true => simp
  | false =>
    simp only [Bool.false_eq_true, if_false, true_and, map_eq_ok_iff]
    refine exists_congr fun record => and_congr_right fun _ => ?_
    cases record <;> simp

end Store

namespace Command

variable {c d : Command} {value : Vector3} {before after : Layer} {view : StackView} {p : Position}

/-- A command that was offered is offered as well once a command at another position was
executed. -/
theorem Moves.offerAt_eq (h : c.Moves value before after) (hop : c.op = none)
    (hentity : c.entity = view.entity) (hapart : c.recipe.Apart d.recipe)
    {value' : Vector3} (hoffer : view.offerAt before.store p value' = .ok (.ok d)) :
    view.offerAt after.store p value' = .ok (.ok d) := by
  obtain ⟨order, stored, refusals, hsettles, -, -, rfl⟩ := h
  have hplace := (StackView.ready_of_offerAt hoffer).2.recipe
  have hfree := (StackView.offered_of_offerAt hoffer).unbarred
  obtain ⟨order', horder, hbar⟩ := StackView.editBar?_eq_ok_iff.1 hfree
  have hleft := hsettles.order_leave hop hapart.fits
  rw [← hentity] at horder hbar
  obtain rfl : order = order' := Except.ok.inj (hsettles.reads.symm.trans horder)
  have hat : (c.recipe.arrange order).at? p = order.at? p := by
    rw [← hplace]
    exact hapart.at?_arrange (.inl rfl)
  have hbar' : (c.leave before.store order stored).editBar? c.entity
      (((order.at? p).map Op.attributeName).getD Op.orderName) = .ok none := by
    rw [Store.editBar?_eq_none_iff] at hbar ⊢
    refine ⟨readOnly_leave.trans hbar.1, ?_⟩
    cases hfound : order.at? p with
    | none =>
      rw [hfound] at hbar
      exact (unlocked_leave (Store.order_eq_ok_iff.1 horder).1 order stored).2 hbar.2
    | some op =>
      rw [hfound] at hbar
      -- The op at the other position applies another attribute.
      have hopIn : d.recipe.opIn order = op := by
        rw [Recipe.opIn, hplace, hfound, Option.getD_some]
      have hne := hapart.attributeName_ne order order
      rw [hopIn] at hne
      obtain ⟨record, hrecord, hopen⟩ := hbar.2
      rw [Option.map_some, Option.getD_some] at hrecord ⊢
      refine ⟨record, ?_, hopen⟩
      rw [← hrecord, Store.record?, Store.record?,
        find?_leave hne op.attributeName_ne_orderName]
  rw [← hoffer]
  rw [hentity] at horder hleft hbar'
  refine StackView.offerAt_congr ?_ ?_
  · rw [StackView.op?_of_order horder, StackView.op?_of_order hleft, hat]
  · rw [hfree, StackView.editBar?_eq_ok_iff]
    exact ⟨_, hleft, hat ▸ hbar'⟩

end Command

end TransformStack
