import TransformStack.Proofs.Editor.History
import TransformStack.Proofs.Stack.Gate

/-!
# Entities stay accepted

The handler of transform stacks goes on to take an entity that it takes at first, whatever commands
are executed, undone and redone. By the link to a timeline it is enough that executing a command
keeps canonical orders: every store that undoing or redoing leads to is a snapshot, and all
snapshots were made by executing commands.
-/

namespace TransformStack

/-! ## What holds at all snapshots -/

/-- A property holds of all snapshots. -/
structure Timeline.Throughout (t : Timeline) (P : Store → Prop) : Prop where
  now : P t.now
  before : ∀ s ∈ t.before, P s
  after : ∀ s ∈ t.after, P s

namespace Timeline.Throughout

variable {t : Timeline} {P : Store → Prop} {s : Store}

/-- A snapshot with the property may be appended. -/
theorem append (h : t.Throughout P) (hs : P s) : (t.append s).Throughout P where
  now := hs
  before := fun s' hs' => by
    rcases List.mem_cons.1 (List.mem_of_mem_take hs') with rfl | hold
    · exact h.now
    · exact h.before s' hold
  after := fun _ hs' => nomatch hs'

/-- The snapshots stay the same when the cursor moves back. -/
theorem back (h : t.Throughout P) : t.back.Throughout P := by
  obtain ⟨limit, before, now, after⟩ := t
  obtain ⟨hnow, hbefore, hafter⟩ := h
  cases before with
  | nil => exact ⟨hnow, hbefore, hafter⟩
  | cons s older =>
    obtain ⟨hs, holder⟩ := List.forall_mem_cons.1 hbefore
    exact ⟨hs, holder, List.forall_mem_cons.2 ⟨hnow, hafter⟩⟩

/-- The snapshots stay the same when the cursor moves on. -/
theorem forward (h : t.Throughout P) : t.forward.Throughout P := by
  obtain ⟨limit, before, now, after⟩ := t
  obtain ⟨hnow, hbefore, hafter⟩ := h
  cases after with
  | nil => exact ⟨hnow, hbefore, hafter⟩
  | cons s later =>
    obtain ⟨hs, hlater⟩ := List.forall_mem_cons.1 hafter
    exact ⟨hs, fun s' hs' =>
      List.forall_mem_cons.2 ⟨hnow, hbefore⟩ s' (List.mem_of_mem_take hs'), hlater⟩

end Timeline.Throughout

namespace Editor

variable {ed ed' : Editor} {t : Timeline} {id : EntityId}

/-! ## Runs -/

/-- A run of an editor: new commands are executed, whether they succeed or not, and commands are
undone and redone while the store takes writes. In between the host may close the store or open it,
and announce refusals. -/
inductive Run (ed : Editor) : Editor → Prop where
  | refl : Run ed ed
  | execute {ed' : Editor} {command : AnyCommand} (h : Run ed ed') (hfresh : command.Fresh) :
      Run ed (ed'.submit command).2
  | undo {ed' : Editor} (h : Run ed ed') (hopen : ed'.store.readOnly = false) :
      Run ed ed'.undo.2
  | redo {ed' : Editor} (h : Run ed ed') (hopen : ed'.store.readOnly = false)
      (hfree : ed'.layer.refusals = {}) : Run ed ed'.redo.2
  | setReadOnly {ed' : Editor} (h : Run ed ed') (on : Bool) :
      Run ed (ed'.setStore (ed'.store.setReadOnly on))
  | refuse {ed' : Editor} (h : Run ed ed') (refusals : Refusals) :
      Run ed { ed' with layer := { ed'.layer with refusals } }

/-- The editor follows a timeline at all of whose snapshots the order of an entity is canonical. -/
def KeepsCanonical (ed : Editor) (id : EntityId) : Prop :=
  ∃ t, ed.Linked t ∧ t.Throughout (·.HasCanonical id)

namespace KeepsCanonical

/-- An editor that keeps an order canonical shows a canonical order. -/
theorem hasCanonical (h : ed.KeepsCanonical id) : ed.store.HasCanonical id := by
  obtain ⟨t, hlinked, hall⟩ := h
  have hnow := hall.now
  rw [← hlinked.now] at hnow
  exact hnow

/-- Executing a new command keeps the order canonical, and so are all snapshots. -/
theorem submit (h : ed.KeepsCanonical id) {command : AnyCommand} (hfresh : command.Fresh) :
    (ed.submit command).2.KeepsCanonical id := by
  have hcanonical := h.hasCanonical
  obtain ⟨t, hlinked, hall⟩ := h
  cases houtcome : (ed.submit command).1 with
  | error e => exact ⟨t, (hlinked.submit_error hfresh.ready houtcome).1, hall⟩
  | ok u =>
    refine ⟨_, (hlinked.submit_ok hfresh.ready houtcome).1, hall.append ?_⟩
    rw [outcome_submit] at houtcome
    have happlied : (command.execute ed.session).command.Applied ed.store
        (command.execute ed.session).session.store :=
      (hfresh.ready.execute (s := ed.session) hlinked.typed_store).ok houtcome
    have hplaced := (AnyCommand.Reached.executed ed.session (.fresh hfresh)).placed
    rw [store_submit]
    exact happlied.hasCanonical hplaced hcanonical

/-- Undoing on an open store keeps the order canonical. -/
theorem undo (h : ed.KeepsCanonical id) (hopen : ed.store.readOnly = false) :
    ed.undo.2.KeepsCanonical id := by
  obtain ⟨t, hlinked, hall⟩ := h
  exact ⟨t.back, (hlinked.undo hopen).2.1, hall.back⟩

/-- Redoing on an open store that refuses nothing keeps the order canonical. -/
theorem redo (h : ed.KeepsCanonical id) (hopen : ed.store.readOnly = false)
    (hfree : ed.layer.refusals = {}) : ed.redo.2.KeepsCanonical id := by
  obtain ⟨t, hlinked, hall⟩ := h
  obtain ⟨hok, herror⟩ := hlinked.redo hopen
  cases houtcome : ed.redo.1 with
  | ok answer => exact ⟨t.forward, (hok answer houtcome).2.1, hall.forward⟩
  | error e => exact absurd hfree (herror e houtcome)

/-- A whole run keeps the order canonical. -/
theorem run (h : ed.KeepsCanonical id) (hrun : ed.Run ed') : ed'.KeepsCanonical id := by
  induction hrun with
  | refl => exact h
  | execute hrun hfresh ih => exact ih.submit hfresh
  | undo hrun hopen ih => exact ih.undo hopen
  | redo hrun hopen hfree ih => exact ih.redo hopen hfree
  | setReadOnly hrun on ih =>
    obtain ⟨t, hlinked, hall⟩ := ih
    exact ⟨t, hlinked.congr rfl (fun _ _ => rfl) rfl, hall⟩
  | refuse hrun refusals ih =>
    obtain ⟨t, hlinked, hall⟩ := ih
    exact ⟨t, hlinked.congr rfl (fun _ _ => rfl) rfl, hall⟩

end KeepsCanonical

/-! ## Acceptance -/

/-- The handler of transform stacks takes an entity after every run of an editor if it takes it
before: each op of its order stands on an attribute and at a position, and the positions rise and
are paired. -/
theorem accepted_of_run {limit : Nat} {time : TimeCode} (hhistory : ed.history = { limit })
    (htyped : ed.store.WellTyped)
    (haccepted : (Handler.stack time).resolve ed.store id = .ok (.found (.stack ⟨id, time⟩)))
    (hrun : ed.Run ed') :
    (Handler.stack time).resolve ed'.store id = .ok (.found (.stack ⟨id, time⟩)) ∧
      ∃ order positions, ed'.store.order id = .ok order ∧
        (∀ op ∈ order.ops, ed'.store.Backs id op) ∧ order.StandsAt positions ∧
        OpOrder.Regular positions := by
  have hstart : ed.KeepsCanonical id := by
    refine ⟨_, Linked.start hhistory htyped, Store.resolve_eq_found_iff.1 haccepted, ?_, ?_⟩
    · exact fun _ hs => nomatch hs
    · exact fun _ hs => nomatch hs
  have hend := (hstart.run hrun).hasCanonical
  refine ⟨Store.resolve_eq_found_iff.2 hend, ?_⟩
  obtain ⟨order, horder, positions, hstands, hregular⟩ := hend
  exact ⟨order, positions, horder, Store.backs_of_order horder, hstands, hregular⟩

/-- On a bare store a matrix command is executed, undone and redone, and the entity is still
accepted. -/
theorem accepted_of_run_on_bare :
    let ed := start { store := .bare } 2 .default
    let ed' := (ed.submit (.matrix AnyCommand.transform)).2.undo.2.redo.2
    ed.Run ed' ∧ (Handler.stack .default).resolve ed'.store default =
      .ok (.found (.stack ⟨default, .default⟩)) := by
  intro ed ed'
  have htyped : ed.store.WellTyped := Store.wellTyped_bare
  have haccepted : (Handler.stack .default).resolve ed.store default =
      .ok (.found (.stack ⟨default, .default⟩)) := by decide +kernel
  have hrun : ed.Run ed' := by
    refine .redo (.undo (.execute .refl AnyCommand.fresh_transform) ?_) ?_ ?_
    · decide +kernel
    · decide +kernel
    · decide +kernel
  exact ⟨hrun, (accepted_of_run rfl htyped haccepted hrun).1⟩

end Editor

end TransformStack
