import TransformStack.Proofs.Command.Closing
import TransformStack.Proofs.Command.Coherence
import TransformStack.Proofs.Store.Runs

/-!
# What a failed execution of a matrix command leaves

When a part of a matrix command cannot be executed, the parts before it are undone. Undoing takes
back all that a part has written since it was undone last. For a part that stood applied already
this goes beyond what was just executed: it comes to undoing the part on the store before the call.
-/

namespace TransformStack

namespace Command

variable {c : Command} {value : Vector3} {s s' : Session}

/-! ## Sound commands -/

/-- A command that does not stand applied has nothing to take back, and one that is pending has a
value. -/
structure Sound (c : Command) : Prop where
  journal : c.state.isApplied = false → c.journal = []
  value : c.state = .pending → c.newValue.isSome

/-- A command that is ready is sound. -/
theorem Ready.sound (h : c.Ready) : c.Sound :=
  ⟨fun _ => h.journal, fun _ => Option.isSome_iff_exists.2 h.value⟩

/-- A command whose writes stand is sound. -/
theorem sound_of_applied (happlied : c.state.isApplied) : c.Sound := by
  refine ⟨fun hnot => ?_, fun hpending => ?_⟩
  · cases hnot.symm.trans happlied
  · rw [hpending] at happlied
    cases happlied

/-- What holds of every command that stands applied or was undone, and is kept by giving a value to
one that was not executed yet, is kept by every call, since all else leaves the command alone. -/
theorem call_upholds {P : Command → Prop} (happlied : ∀ {c : Command}, c.state.isApplied → P c)
    (hundone : ∀ {c : Command}, P { c with journal := [], state := .undone })
    (hgiven : ∀ {c : Command} (value : Vector3), c.state = .unbound ∨ c.state = .pending → P c →
      P (c.withValue value)) (h : P c) (s : Session) (call : CommandCall) :
    P (c.call s call).command := by
  have hbecomes : c.Becomes (c.call s call).command := call_becomes c s call
  generalize (c.call s call).command = c' at hbecomes ⊢
  cases hbecomes with
  | idle => exact h
  | given value hwaiting => exact hgiven value hwaiting h
  | taken value hstate => exact happlied hstate
  | written hbound => exact happlied (isApplied_executedState hbound)
  | undone hstate => exact hundone
  | interrupted hstate => exact happlied hstate

/-- No call makes a sound command unsound. -/
theorem Sound.call (h : c.Sound) (s : Session) (call : CommandCall) :
    (c.call s call).command.Sound := by
  refine call_upholds sound_of_applied ?_ (fun value hwaiting hsound => ?_) h s call
  · exact ⟨fun _ => rfl, nofun⟩
  · refine ⟨fun _ => hsound.journal ?_, fun _ => rfl⟩
    rcases hwaiting with hstate | hstate <;> rw [hstate] <;> rfl

/-! ## Undoing what was executed -/

/-- Executing a command keeps a store typed. -/
theorem wellTyped_execute (h : s.store.WellTyped) : (c.execute s).session.store.WellTyped := by
  cases hwrite : c.toWrite? with
  | none => rwa [execute_of_none hwrite]
  | some value =>
    cases happly : (c.apply value s).outcome with
    | error e =>
      rw [execute_of_error hwrite happly, (apply_of_error happly h.orders).2]
      exact h
    | ok u =>
      obtain ⟨op, journal, hwrites, -⟩ := apply_of_ok happly
      rw [execute_of_ok hwrite happly]
      exact hwrites.wellTyped h

/-- What is written by executing a command comes on top of what it has to take back. -/
theorem execute_ok_cases (htyped : s.store.WellTyped) (hok : (c.execute s).outcome = .ok ()) :
    c.toWrite? = none ∧ c.execute s = ⟨.ok (), c, s⟩ ∨
      ∃ value newer, c.toWrite? = some value ∧
        newer.TakesBack (c.execute s).session.store s.store ∧
        (c.execute s).command.journal = newer ++ c.journal ∧
        (c.execute s).command.state = c.executedState := by
  cases hwrite : c.toWrite? with
  | none => exact .inl ⟨rfl, execute_of_none hwrite s⟩
  | some value =>
    have happly := apply_of_execute_ok hwrite hok
    obtain ⟨op, journal, hwrites, hcommand⟩ := apply_of_ok happly
    rw [execute_of_ok hwrite happly, hcommand]
    exact .inr ⟨value, journal, rfl, hwrites.takesBack htyped, rfl, rfl⟩

/-- An applied command that is executed and then undone is undone from the store before. -/
theorem undo_executed_of_applied (happlied : c.state.isApplied) (htyped : s.store.WellTyped)
    (hok : (c.execute s).outcome = .ok ()) (hstore : s'.store = (c.execute s).session.store) :
    let back := (c.execute s).command.undo s'
    back.outcome = (c.undo s).outcome ∧ back.command.state = (c.undo s).command.state ∧
      back.session.store = (c.undo s).session.store := by
  have hundo : ∃ newer, newer.TakesBack s'.store s.store ∧
      (c.execute s).command.journal = newer ++ c.journal ∧
      (c.execute s).command.state = c.state := by
    rcases execute_ok_cases htyped hok with ⟨-, hidle⟩ | ⟨-, newer, -, hback, hjournal, hstate⟩
    · rw [hidle] at hstore ⊢
      exact ⟨[], hstore, rfl, rfl⟩
    · rw [executedState_of_applied happlied] at hstate
      exact ⟨newer, hstore ▸ hback, hjournal, hstate⟩
  obtain ⟨newer, hback, hjournal, hstate⟩ := hundo
  obtain ⟨houtcome, hcommand, hlayer⟩ := undo_append happlied hstate hjournal hback
  have hleft := congrArg Command.state hcommand
  have hlast := congrArg Layer.store hlayer
  exact ⟨houtcome, hleft, hlast⟩

/-- Any other command that is executed and then undone leads back to the store before. -/
theorem undo_executed_of_not_applied (h : c.Sound) (hnot : c.state.isApplied = false)
    (htyped : s.store.WellTyped) (hok : (c.execute s).outcome = .ok ())
    (hstore : s'.store = (c.execute s).session.store) :
    let back := (c.execute s).command.undo s'
    back.outcome = .ok () ∧ back.session.store = s.store ∧
      (back.command.state = c.state ↔ c.state ≠ .pending) := by
  intro back
  rcases execute_ok_cases htyped hok with
    ⟨hnone, hidle⟩ | ⟨value, newer, hwrite, hback, hjournal, hstate⟩
  · have hpending : c.state ≠ .pending := by
      intro hpending
      have hvalue := h.value hpending
      simp [toWrite?, hpending] at hnone
      simp [hnone] at hvalue
    have hundo : back = ⟨.ok (), c, s'⟩ := by
      show (c.execute s).command.undo s' = _
      rw [hidle]
      exact undo_idle hnot
    rw [hidle] at hstore
    rw [hundo]
    exact ⟨rfl, hstore, iff_of_true rfl hpending⟩
  · have happlied : (c.execute s).command.state.isApplied :=
      hstate ▸ isApplied_executedState (ne_unbound_of_toWrite? hwrite)
    rw [h.journal hnot, List.append_nil] at hjournal
    rw [← hstore, ← hjournal] at hback
    obtain ⟨last, hundo, hlayer⟩ := undo_of_takesBack happlied hback
    have hlast := congrArg Layer.store hlayer
    have hback : back = _ := hundo
    rw [hback]
    refine ⟨rfl, hlast, ?_⟩
    -- A command that writes without being applied is pending or undone.
    show CommandState.undone = c.state ↔ c.state ≠ .pending
    cases hcase : c.state <;> simp_all [toWrite?, CommandState.isApplied]

end Command

/-! ## Matrix commands -/

namespace MatrixCommand

variable {P : Command → Prop} {m : MatrixCommand} {s : Session}

/-- Every part has a property. -/
def Each (P : Command → Prop) (m : MatrixCommand) : Prop := ∀ p, P (m.part p)

/-- What calls keep of single commands they keep of every part. -/
theorem Each.onPart {act : Command → Session → Call Command}
    (hact : ∀ c s, P c → P (act c s).command) : Keeps (Each P) act := by
  intro p m s h
  refine .intro fun q => ?_
  by_cases hsame : q = p
  · subst hsame
    rw [onPart_eq, part_withPart]
    exact hact _ s (h q)
  · rw [part_onPart hsame]
    exact h q

/-! ## Failed executions -/

/-- The parts that are executed before the first that cannot be. -/
def executed (m : MatrixCommand) (s : Session) : List Part :=
  m.succeeded (fun _ => Command.execute) allParts (s.signal .hold)

/-- What executing the translation comes to. -/
def translated (m : MatrixCommand) (s : Session) : Call Command :=
  m.translate.execute (s.signal .hold)

/-- What executing the rotation comes to after the translation. -/
def rotated (m : MatrixCommand) (s : Session) : Call Command :=
  m.rotate.execute (m.translated s).session

/-- What executing the scale comes to after the translation and the rotation. -/
def scaled (m : MatrixCommand) (s : Session) : Call Command :=
  m.scale.execute (m.rotated s).session

/-- Executing the translation keeps a store typed. -/
theorem wellTyped_translated (h : s.store.WellTyped) : (m.translated s).session.store.WellTyped :=
  Command.wellTyped_execute (s := s.signal .hold) h

/-- Executing the rotation keeps a store typed. -/
theorem wellTyped_rotated (h : s.store.WellTyped) : (m.rotated s).session.store.WellTyped :=
  Command.wellTyped_execute (wellTyped_translated h)

/-- The steps of an execution, without the hold around them. -/
def executeParts (m : MatrixCommand) (s : Session) : Call MatrixCommand :=
  ((translating Command.execute m s).andThen fun m s =>
    (rotating Command.execute m s).orElse (translating Command.undo)).andThen fun m s =>
      (scaling Command.execute m s).orElse fun m s =>
        (rotating Command.undo m s).andThen (translating Command.undo)

/-- Executing a matrix command is executing its parts with notices held back. -/
theorem execute_eq (m : MatrixCommand) (s : Session) :
    m.execute s = { m.executeParts (s.signal .hold) with
      session := (m.executeParts (s.signal .hold)).session.signal .release } := rfl

/-- A translation that cannot be executed leaves everything. -/
theorem execute_of_translate {e : EditError} (hdeclared : s.store.OrdersDeclared)
    (herror : (m.translated s).outcome = .error e) :
    m.executed s = [] ∧ (∃ e, (m.execute s).outcome = .error e) ∧ (m.execute s).command = m ∧
      (m.execute s).session.store = s.store := by
  obtain ⟨hkept, hstore⟩ := (Command.execute_remains m.translate (s.signal .hold)).error e herror
  have hfailed : (translating Command.execute m (s.signal .hold)).outcome = .error e := herror
  have hparts : m.executeParts (s.signal .hold) =
      translating Command.execute m (s.signal .hold) := by
    rw [executeParts, Call.andThen_of_error hfailed, Call.andThen_of_error hfailed]
  rw [executed, allParts, succeeded_of_error herror, execute_eq, hparts]
  refine ⟨rfl, ⟨e, hfailed⟩, ?_, hstore hdeclared⟩
  show { m with translate := (m.translated s).command } = m
  rw [translated, hkept]

/-- Where the rotation cannot be executed, the translation is undone. -/
theorem execute_of_rotate {e : EditError}
    (hdeclared : (m.translated s).session.store.OrdersDeclared)
    (hok : (m.translated s).outcome = .ok ()) (herror : (m.rotated s).outcome = .error e) :
    m.executed s = [.translate] ∧ (∃ e, (m.execute s).outcome = .error e) ∧
      ∃ s₁, s₁.store = (m.translated s).session.store ∧
      let back := (m.translated s).command.undo s₁
      (m.execute s).command = { m with translate := back.command } ∧
        (m.execute s).session.store = back.session.store := by
  obtain ⟨hkept, hstore⟩ :=
    (Command.execute_remains m.rotate (m.translated s).session).error e herror
  have hpassed : (translating Command.execute m (s.signal .hold)).outcome = .ok () := hok
  let m₁ : MatrixCommand := { m with translate := (m.translated s).command }
  have hfailed : (rotating Command.execute m₁ (m.translated s).session).outcome = .error e := herror
  obtain ⟨⟨e', houtcome⟩, hcommand, hsession⟩ :=
    Call.orElse_of_error hfailed (translating Command.undo)
  have hparts : m.executeParts (s.signal .hold) =
      (rotating Command.execute m₁ (m.translated s).session).orElse
        (translating Command.undo) := by
    rw [executeParts, Call.andThen_of_ok hpassed]
    exact Call.andThen_of_error houtcome
  rw [executed, allParts, succeeded_of_ok hok, succeeded_of_error herror, execute_eq, hparts]
  refine ⟨rfl, ⟨e', houtcome⟩, (m.rotated s).session, hstore hdeclared, ?_, ?_⟩
  · rw [hcommand]
    show { m₁ with rotate := (m.rotated s).command, translate := _ } = { m with translate := _ }
    rw [rotated, hkept]
    rfl
  · show Session.store _ = _
    rw [hsession]
    rfl

/-- Where the scale cannot be executed, the rotation is undone, and then the translation unless that
fails. -/
theorem execute_of_scale {e : EditError} (hdeclared : (m.rotated s).session.store.OrdersDeclared)
    (hok : (m.translated s).outcome = .ok ()) (hok' : (m.rotated s).outcome = .ok ())
    (herror : (m.scaled s).outcome = .error e) :
    m.executed s = [.translate, .rotate] ∧ (∃ e, (m.execute s).outcome = .error e) ∧
      ∃ s₂, s₂.store = (m.rotated s).session.store ∧
      let back := (m.rotated s).command.undo s₂
      ((∃ e, back.outcome = .error e) ∧
          (m.execute s).command =
            { m with translate := (m.translated s).command, rotate := back.command } ∧
          (m.execute s).session.store = back.session.store ∨
        back.outcome = .ok () ∧
          let first := (m.translated s).command.undo back.session
          (m.execute s).command = { m with translate := first.command, rotate := back.command } ∧
            (m.execute s).session.store = first.session.store) := by
  obtain ⟨hkept, hstore⟩ := (Command.execute_remains m.scale (m.rotated s).session).error e herror
  have hpassed : (translating Command.execute m (s.signal .hold)).outcome = .ok () := hok
  -- `execute` chains its parts as calls on one matrix command; name it as each part leaves it.
  let m₁ : MatrixCommand := { m with translate := (m.translated s).command }
  have hpassed' : (rotating Command.execute m₁ (m.translated s).session).outcome = .ok () := hok'
  let m₂ : MatrixCommand := { m₁ with rotate := (m.rotated s).command }
  let recover : MatrixCommand → Session → Call MatrixCommand := fun m s =>
    (rotating Command.undo m s).andThen (translating Command.undo)
  have hfailed : (scaling Command.execute m₂ (m.rotated s).session).outcome = .error e := herror
  obtain ⟨houtcome, hcommand, hsession⟩ := Call.orElse_of_error hfailed recover
  have hparts : m.executeParts (s.signal .hold) =
      (scaling Command.execute m₂ (m.rotated s).session).orElse recover := by
    rw [executeParts, Call.andThen_of_ok hpassed]
    show Call.andThen (Call.orElse (rotating Command.execute m₁ (m.translated s).session) _) _ = _
    rw [Call.orElse_of_ok hpassed', Call.andThen_of_ok hpassed']
    rfl
  have hleft : (scaling Command.execute m₂ (m.rotated s).session).command = m₂ := by
    show { m₂ with scale := (m.scaled s).command } = m₂
    rw [scaled, hkept]
  rw [hleft] at hcommand hsession
  rw [executed, allParts, succeeded_of_ok hok, succeeded_of_ok hok', succeeded_of_error herror,
    execute_eq, hparts]
  refine ⟨rfl, houtcome, (m.scaled s).session, hstore hdeclared, ?_⟩
  dsimp only
  show _ ∧ _ ∧ Session.store _ = _ ∨ _ ∧ _ ∧ Session.store _ = _
  rw [hcommand, hsession]
  -- The rotation is undone first; only if that succeeds is the translation undone too.
  cases hback : ((m.rotated s).command.undo (m.scaled s).session).outcome with
  | error e' =>
    have hfails : (rotating Command.undo m₂ (m.scaled s).session).outcome = .error e' := hback
    have hrecover : recover m₂ (m.scaled s).session =
        rotating Command.undo m₂ (m.scaled s).session := Call.andThen_of_error hfails
    exact .inl ⟨⟨e', rfl⟩, congrArg Call.command hrecover,
      congrArg (fun call : Call MatrixCommand => call.session.store) hrecover⟩
  | ok u =>
    have hpasses : (rotating Command.undo m₂ (m.scaled s).session).outcome = .ok () := hback
    have hrecover : recover m₂ (m.scaled s).session = translating Command.undo
        (rotating Command.undo m₂ (m.scaled s).session).command
        (rotating Command.undo m₂ (m.scaled s).session).session := Call.andThen_of_ok hpasses
    exact .inr ⟨rfl, congrArg Call.command hrecover,
      congrArg (fun call : Call MatrixCommand => call.session.store) hrecover⟩

/-- Where all parts can be executed, so can the command, and comes to its parts. -/
theorem execute_of_ok (hok : (m.translated s).outcome = .ok ())
    (hok' : (m.rotated s).outcome = .ok ()) (hok'' : (m.scaled s).outcome = .ok ()) :
    m.execute s = ⟨.ok (), { m with
      translate := (m.translated s).command
      rotate := (m.rotated s).command
      scale := (m.scaled s).command }, (m.scaled s).session.signal .release⟩ := by
  have hpassed : (translating Command.execute m (s.signal .hold)).outcome = .ok () := hok
  let m₁ : MatrixCommand := { m with translate := (m.translated s).command }
  have hpassed' : (rotating Command.execute m₁ (m.translated s).session).outcome = .ok () := hok'
  let m₂ : MatrixCommand := { m₁ with rotate := (m.rotated s).command }
  have hpassed'' : (scaling Command.execute m₂ (m.rotated s).session).outcome = .ok () := hok''
  have hparts : m.executeParts (s.signal .hold) =
      scaling Command.execute m₂ (m.rotated s).session := by
    rw [executeParts, Call.andThen_of_ok hpassed]
    show Call.andThen (Call.orElse (rotating Command.execute m₁ (m.translated s).session) _) _ = _
    rw [Call.orElse_of_ok hpassed', Call.andThen_of_ok hpassed']
    exact Call.orElse_of_ok hpassed''
  rw [execute_eq, hparts, ← hok'']
  rfl

/-- An execution fails at one of the parts. -/
theorem execute_error_cases {e : EditError} (herror : (m.execute s).outcome = .error e) :
    (∃ e, (m.translated s).outcome = .error e) ∨
      (m.translated s).outcome = .ok () ∧ ((∃ e, (m.rotated s).outcome = .error e) ∨
        (m.rotated s).outcome = .ok () ∧ ∃ e, (m.scaled s).outcome = .error e) := by
  cases hfirst : (m.translated s).outcome with
  | error e₁ => exact .inl ⟨e₁, rfl⟩
  | ok u =>
    refine .inr ⟨rfl, ?_⟩
    cases hsecond : (m.rotated s).outcome with
    | error e₂ => exact .inl ⟨e₂, rfl⟩
    | ok u =>
      refine .inr ⟨rfl, ?_⟩
      cases hthird : (m.scaled s).outcome with
      | error e₃ => exact ⟨e₃, rfl⟩
      | ok u =>
        rw [execute_of_ok hfirst hsecond hthird] at herror
        cases herror

end MatrixCommand

/-! ## Commands of the host -/

namespace AnyCommand

variable {command : AnyCommand}

/-- The command is sound, or its parts are. -/
def Sound : AnyCommand → Prop
  | single c => c.Sound
  | matrix m => m.Each Command.Sound

/-- What holds of every command that is offered and is kept by all calls holds whatever was done
with a command of the host. -/
theorem Reached.of_calls {P : AnyCommand → Prop}
    (hoffered : ∀ {view : StackView} {s : Store} {position : Position} {value : Vector3}
      {c : Command}, view.offerAt s position value = .ok (.ok c) → P (single c))
    (hmatrixOffered : ∀ {view : StackView} {s : Store} {matrix : Matrix4} {m : MatrixCommand},
      view.offerMatrix s matrix = .ok (.ok m) → P (.matrix m))
    (hsingle : ∀ {c : Command} (s : Session) (call : CommandCall), P (single c) →
      P (single (c.call s call).command))
    (hmatrix : ∀ {m : MatrixCommand} (s : Session) (call : MatrixCall), P (matrix m) →
      P (matrix (m.call s call).command)) (h : command.Reached) : P command := by
  induction h with
  | @fresh command h =>
    induction h with
    | offered h => exact hoffered h
    | offeredMatrix h => exact hmatrixOffered h
    | set value s h ih => exact hsingle s (.set value) ih
    | setValue value s h ih => exact hsingle s (.setValue value) ih
    | setMatrix matrix s h ih => exact hmatrix s (.set matrix) ih
  | @executed command s h ih =>
    cases command with
    | single c => exact hsingle s .execute ih
    | matrix m => exact hmatrix s .execute ih
  | @undone command s h ih =>
    cases command with
    | single c => exact hsingle s .undo ih
    | matrix m => exact hmatrix s .undo ih
  | @redone command s h ih =>
    cases command with
    | single c => exact hsingle s .redo ih
    | matrix m => exact hmatrix s .redo ih
  | set value s h ih => exact hsingle s (.set value) ih
  | setValue value s h ih => exact hsingle s (.setValue value) ih
  | setMatrix matrix s h ih => exact hmatrix s (.set matrix) ih

/-- Whatever was done with a command of the host, it is sound. -/
theorem Reached.sound (h : command.Reached) : command.Sound := by
  have hkeeps (call : CommandCall) : MatrixCommand.Keeps (MatrixCommand.Each Command.Sound)
      (fun c s => c.call s call) := MatrixCommand.Each.onPart fun c s h => h.call s call
  refine h.of_calls (fun hoffer => ?_) (fun hoffer p => ?_) (fun s call h => ?_) fun s call h => ?_
  · exact Command.Ready.sound (Fresh.offered hoffer).ready
  · exact (MatrixCommand.ready_iff.1 (Fresh.offeredMatrix hoffer).ready p).sound
  · exact Command.Sound.call h s call
  · cases call with
    | set matrix => exact (MatrixCommand.Keeps.set (hkeeps <| .set ·) h matrix s).leaves
    | execute => exact ((hkeeps .execute).execute (hkeeps .undo) h s).leaves
    | undo => exact ((hkeeps .undo).undo h s).leaves
    | redo => exact ((hkeeps .redo).redo h s).leaves

end AnyCommand

/-! ## A rotation that is taken out -/

namespace AnyCommand

/-- What executing the command for a matrix comes to on the bare store. -/
def transformed : Call MatrixCommand := transform.execute { layer := { store := .bare } }

/-- The executed command for a matrix is one that calls can lead to. -/
theorem reached_transformed : Reached (matrix transformed.command) :=
  .executed { layer := { store := .bare } } (.fresh fresh_transform)

/-- Executing the command for a matrix leaves a typed store. -/
theorem wellTyped_transformed : transformed.session.store.WellTyped := by
  have hready : transform.Ready := fresh_transform.ready
  have hmeets := hready.execute (s := { layer := { store := .bare } }) Store.wellTyped_bare
  have hok : transformed.outcome = .ok () := by decide +kernel
  have happlied : (matrix transformed.command).Applied .bare transformed.session.store :=
    hmeets.ok hok
  exact happlied.typed.2

/-- That store, once the host has taken the rotation out of the order. -/
def unrotated : Store :=
  transformed.session.store.perform
    (.setOrder default ⟨[⟨.translate, none, .double, false⟩, ⟨.scale, none, .float, false⟩], false⟩)

/-- Taking the rotation out of the order leaves a typed store. -/
theorem wellTyped_unrotated : unrotated.WellTyped := by
  unfold unrotated Store.perform
  split
  · next s hset => exact wellTyped_transformed.setOrder hset
  · exact wellTyped_transformed
  · exact wellTyped_transformed

/-- A session on that store, in which the next op is refused. -/
def refusing : Session := { layer := { store := unrotated, refusals := { addAfter := some 0 } } }

end AnyCommand

end TransformStack
