import TransformStack.Proofs.Command.Recovering

/-!
# Executing an applied matrix command again

Executing an applied matrix command again writes its values through. When a part fails, the parts
before it are undone, and with them all that they wrote since they were undone last. So the store
and the states of the parts are as before the call if the translation fails. Otherwise the edit that
stood before the call is taken back with it, unless the store does not let the first part to be
undone go.
-/

namespace TransformStack

namespace Command

variable {c : Command} {s : Session} {before after : Store}

/-- Undoing the command on a store is refused, and stops at another store. -/
def StopsUndoing (c : Command) (before after : Store) : Prop :=
  let done := c.undo { layer := { store := before } }
  (∃ e, done.outcome = .error e) ∧ done.session.store = after

/-- An applied command that is undone stays applied exactly if undoing it stops. -/
theorem stopsUndoing_iff (happlied : c.state.isApplied) (s : Session) (after : Store) :
    c.StopsUndoing s.store after ↔
      (c.undo s).session.store = after ∧ (c.undo s).command.state = c.state := by
  have hnone : Journal.TakesBack [] s.store s.store := rfl
  obtain ⟨houtcome, -, hlayer⟩ := undo_append (s := { layer := { store := s.store } }) happlied rfl
    rfl hnone
  have hstore := Session.store_eq hlayer
  have hstays : (∃ e, (c.undo s).outcome = .error e) ↔ (c.undo s).command.state = c.state := by
    rcases c.undo_cases s with
      ⟨hnot, -⟩ | ⟨-, journal, s', ⟨-, hundo⟩ | ⟨e, -, hundo⟩⟩
    · cases hnot.symm.trans happlied
    · rw [hundo]
      refine iff_of_false (fun herror => nomatch herror) fun hstate => ?_
      have hundone : CommandState.undone = c.state := hstate
      rw [← hundone] at happlied
      cases happlied
    · rw [hundo]
      exact iff_of_true ⟨e, rfl⟩ rfl
  rw [StopsUndoing, ← houtcome, hstays, and_comm, hstore]

/-- A command that can be undone is undone. -/
theorem state_undo_of_ok (happlied : c.state.isApplied) (hok : (c.undo s).outcome = .ok ()) :
    (c.undo s).command.state = .undone := by
  rcases c.undo_cases s with
    ⟨hnot, -⟩ | ⟨-, journal, s', ⟨-, hundo⟩ | ⟨e, -, hundo⟩⟩
  · cases hnot.symm.trans happlied
  · rw [hundo]
  · rw [hundo] at hok
    cases hok

/-- Executing an applied command leaves its state. -/
theorem state_execute_of_applied (happlied : c.state.isApplied) (htyped : s.store.WellTyped)
    (hok : (c.execute s).outcome = .ok ()) : (c.execute s).command.state = c.state := by
  rcases execute_ok_cases htyped hok with ⟨-, hidle⟩ | ⟨-, -, -, -, -, hstate⟩
  · rw [hidle]
  · rw [hstate, executedState_of_applied happlied]

end Command

namespace MatrixCommand

variable {m : MatrixCommand} {s : Session}

/-- A call leaves the store and the states of the parts as they were. -/
def Untouched (m : MatrixCommand) (s : Session) (done : Call MatrixCommand) : Prop :=
  done.session.store = s.store ∧ ∀ p, (done.command.part p).state = (m.part p).state

/-- Where the rotation fails, the translation is undone from the store before the call. -/
theorem untouched_iff_of_rotate {e : EditError} (happlied : m.translate.state.isApplied)
    (htyped : s.store.WellTyped) (hok : (m.translated s).outcome = .ok ())
    (herror : (m.rotated s).outcome = .error e) :
    m.Untouched s (m.execute s) ↔ m.translate.StopsUndoing s.store s.store := by
  obtain ⟨-, -, s₁, hs₁, hcommand, hstore⟩ :=
    execute_of_rotate (wellTyped_translated htyped).orders hok herror
  obtain ⟨-, hstate, hback⟩ :=
    Command.undo_executed_of_applied (s := s.signal .hold) happlied htyped hok hs₁
  have hstops := Command.stopsUndoing_iff happlied (s.signal .hold) s.store
  rw [← hstate, ← hback] at hstops
  have hstops : m.translate.StopsUndoing s.store s.store ↔ _ := hstops
  rw [Untouched, hcommand, hstore, Part.forall_iff, hstops]
  simp [part, translated]

/-- Where the scale fails, the rotation is undone from the store that the translation made. If it
stood applied it stops, or the edit is taken back. If it did not, the translation is undone from the
store before the call. -/
theorem untouched_iff_of_scale {e : EditError} (hsound : m.rotate.Sound)
    (happlied : m.translate.state.isApplied) (htyped : s.store.WellTyped)
    (hok : (m.translated s).outcome = .ok ()) (hok' : (m.rotated s).outcome = .ok ())
    (herror : (m.scaled s).outcome = .error e) :
    m.Untouched s (m.execute s) ↔
      if m.rotate.state.isApplied then
        m.rotate.StopsUndoing (m.translated s).session.store s.store
      else m.rotate.state ≠ .pending ∧ m.translate.StopsUndoing s.store s.store := by
  have htyped₁ := wellTyped_translated (m := m) htyped
  obtain ⟨-, -, s₂, hs₂, hcases⟩ :=
    execute_of_scale (wellTyped_rotated htyped).orders hok hok' herror
  rw [Untouched, Part.forall_iff]
  cases hrotate : m.rotate.state.isApplied with
  | true =>
    obtain ⟨houtcome, hstate, hback⟩ :=
      Command.undo_executed_of_applied hrotate htyped₁ hok' hs₂
    have hstops := Command.stopsUndoing_iff hrotate (m.translated s).session s.store
    rw [← hstate, ← hback] at hstops
    rcases hcases with ⟨-, hcommand, hstore⟩ | ⟨hundone, hcommand, hstore⟩
    · have hkept : (m.translated s).command.state = m.translate.state :=
        Command.state_execute_of_applied (s := s.signal .hold) happlied htyped hok
      rw [hcommand, hstore, if_pos rfl, hstops]
      simp [part, rotated, hkept]
    · -- The rotation was undone, so the states are not what they were, and nothing stopped it.
      have hundone' := Command.state_undo_of_ok hrotate (houtcome.symm.trans hundone)
      have hmoved : ((m.rotated s).command.undo s₂).command.state ≠ m.rotate.state := by
        intro hsame
        rw [← hsame, rotated, hstate, hundone'] at hrotate
        cases hrotate
      rw [if_pos rfl, hstops, hcommand]
      exact iff_of_false (fun hkept => hmoved hkept.2.2.1) fun hkept => hmoved hkept.2
  | false =>
    obtain ⟨houtcome, hback, hstate⟩ :=
      Command.undo_executed_of_not_applied hsound hrotate htyped₁ hok' hs₂
    -- Undoing a rotation that this call made succeeds, so the translation is always reached.
    rcases hcases with ⟨⟨e, herror⟩, -⟩ | ⟨-, hcommand, hstore⟩
    · cases herror.symm.trans houtcome
    · obtain ⟨-, hstate', hback'⟩ :=
        Command.undo_executed_of_applied (s := s.signal .hold) happlied htyped hok hback
      have hstops := Command.stopsUndoing_iff happlied (s.signal .hold) s.store
      rw [← hstate', ← hback'] at hstops
      have hstops : m.translate.StopsUndoing s.store s.store ↔ _ := hstops
      have hpending : _ ↔ m.rotate.state ≠ .pending := hstate
      rw [hcommand, hstore, if_neg Bool.false_ne_true, hstops, ← hpending]
      simp only [part, translated, rotated, and_true]
      constructor
      · rintro ⟨hsame, htranslate, hrotate⟩
        exact ⟨hrotate, hsame, htranslate⟩
      · rintro ⟨hrotate, hsame, htranslate⟩
        exact ⟨hsame, htranslate, hrotate⟩

/-- An applied matrix command that cannot be executed again leaves the store and the states of its
parts exactly if the translation fails, or the part that is to be undone first stops at the store
before the call. If the translation fails, all of the command is left. -/
theorem failed_reexecution_keeps_iff {e : EditError} (hreached : (AnyCommand.matrix m).Reached)
    (happlied : m.state.isApplied) (htyped : s.store.WellTyped)
    (herror : (m.execute s).outcome = .error e) :
    (m.executed s = [] → (m.execute s).command = m) ∧
      (m.Untouched s (m.execute s) ↔
        m.executed s = [] ∨
        m.executed s = [.translate] ∧ m.translate.StopsUndoing s.store s.store ∨
        m.executed s = [.translate, .rotate] ∧
          if m.rotate.state.isApplied then
            m.rotate.StopsUndoing (m.translated s).session.store s.store
          else m.rotate.state ≠ .pending ∧ m.translate.StopsUndoing s.store s.store) := by
  have hsound : m.Each Command.Sound := hreached.sound
  have htranslate : m.translate.state.isApplied := happlied
  rcases execute_error_cases herror with
    ⟨e, herror⟩ | ⟨hok, ⟨e, herror⟩ | ⟨hok', e, herror⟩⟩
  · obtain ⟨hexecuted, -, hcommand, hstore⟩ := execute_of_translate htyped.orders herror
    rw [Untouched, hcommand, hexecuted]
    exact ⟨fun _ => rfl, iff_of_true ⟨hstore, fun _ => rfl⟩ (.inl rfl)⟩
  · have hexecuted := (execute_of_rotate (wellTyped_translated htyped).orders hok herror).1
    rw [hexecuted, untouched_iff_of_rotate htranslate htyped hok herror]
    simp
  · have hexecuted := (execute_of_scale (wellTyped_rotated htyped).orders hok hok' herror).1
    rw [hexecuted, untouched_iff_of_scale (hsound .rotate) htranslate htyped hok hok' herror]
    simp

/-- Where the rotation is refused, nothing changes exactly if undoing the translation stops. -/
theorem failed_reexecution_keeps_iff_refused :
    let m := AnyCommand.transformed.command
    let s := AnyCommand.refusing
    m.state.isApplied ∧
      (m.execute s).outcome = .error (.structural (.addRefused .rotate .rotateXYZ default)) ∧
      (m.Untouched s (m.execute s) ↔ m.translate.StopsUndoing s.store s.store) := by
  intro m s
  have happlied : m.state.isApplied := by decide +kernel
  have herror : (m.execute s).outcome =
      .error (.structural (.addRefused .rotate .rotateXYZ default)) := by decide +kernel
  have hexecuted : m.executed s = [.translate] := by decide +kernel
  have hiff := (failed_reexecution_keeps_iff AnyCommand.reached_transformed happlied
    (s := s) AnyCommand.wellTyped_unrotated herror).2
  rw [hexecuted] at hiff
  exact ⟨happlied, herror, by simpa using hiff⟩

/-- The translation that stood before the call is undone, and its attribute is gone. -/
theorem reexecution_takes_back_translation :
    let m := AnyCommand.transformed.command
    let s := AnyCommand.refusing
    let done := m.execute s
    (AnyCommand.matrix m).Reached ∧ s.store.WellTyped ∧ m.state = .committed ∧
      done.outcome = .error (.structural (.addRefused .rotate .rotateXYZ default)) ∧
      done.command.translate.state = .undone ∧
      (s.store.find? default "xformOp:translate").isSome ∧
      (done.session.store.find? default "xformOp:translate").isNone :=
  ⟨AnyCommand.reached_transformed, AnyCommand.wellTyped_unrotated, by decide +kernel⟩

end MatrixCommand

end TransformStack
