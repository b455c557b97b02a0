import TransformStack.Proofs.Command.Giving
import TransformStack.Proofs.Command.Reusing
import TransformStack.Proofs.Editor.Announcing

/-!
# Giving a matrix command a matrix through the editor

Each part of a matrix command writes and announces its value by itself, and nothing holds the
notices back around the parts. So a listener is told of the entity once for each part that writes,
and what the parts before a failed one have taken and written stays.
-/

namespace TransformStack

/-! ## Notices one after the other -/

namespace Notifier

variable {n n₁ n₂ : Notifier} {id : EntityId} {times more : Nat}

/-- Since then each listener was told of an entity so many times, at once. -/
structure Told (n : Notifier) (id : EntityId) (times : Nat) (n' : Notifier) : Prop where
  sound : n'.Sound
  free : n'.isHeld = false
  told : ∀ l ∈ n.listeners, l ∈ n'.listeners ∧
    n'.toldTo l.id = List.replicate times id ++ n.toldTo l.id

theorem Told.refl (hsound : n.Sound) (hfree : n.isHeld = false) (id : EntityId) :
    n.Told id 0 n :=
  ⟨hsound, hfree, fun _ hl => ⟨hl, rfl⟩⟩

/-- What was told since two sessions adds up. -/
theorem Told.trans (h : n.Told id times n₁) (h' : n₁.Told id more n₂) :
    n.Told id (times + more) n₂ := by
  refine ⟨h'.sound, h'.free, fun l hl => ?_⟩
  obtain ⟨hl₁, htold₁⟩ := h.told l hl
  obtain ⟨hl₂, htold₂⟩ := h'.told l hl₁
  refine ⟨hl₂, ?_⟩
  rw [htold₂, htold₁, ← List.append_assoc, List.replicate_append_replicate, Nat.add_comm]

/-- While nothing is held back a change is told once. -/
theorem Told.mark (hsound : n.Sound) (hfree : n.isHeld = false) (id : EntityId) :
    n.Told id 1 (n.mark id) := by
  have hdepth := isHeld_eq_false_iff.1 hfree
  refine ⟨hsound.mark id, ?_, fun l hl => ?_⟩ <;> rw [mark_of_free hfree]
  · exact isHeld_eq_false_iff.2 (hsound.depth_emit hdepth [id])
  · exact ⟨mem_listeners_emit hl [id], (hsound.emit hdepth [id]).2 l hl⟩

end Notifier

/-! ## Parts in turn -/

namespace Command

variable {c : Command} {id : EntityId}

/-- Giving a command a value is announced where an applied command writes it. A value that is not
written is not announced. -/
theorem Owns.brackets_set (h : c.Owns id) (value : Vector3) (s : Session) :
    ∃ trail, s.Brackets id trail (c.set value s).session ∧
      (trail ≠ [] → c.state.isApplied ∧ value.isFinite) ∧
      ((c.set value s).outcome = .ok () → c.state.isApplied → trail ≠ []) := by
  cases hfinite : value.isFinite with
  | false =>
    rw [set_of_not_finite hfinite]
    exact ⟨[], .idle, fun hsome => absurd rfl hsome, fun hok => nomatch hok⟩
  | true =>
    cases happlied : c.state.isApplied with
    | false =>
      rw [set_of_not_applied happlied hfinite]
      exact ⟨[], .idle, fun hsome => absurd rfl hsome, fun _ hno => nomatch hno⟩
    | true =>
      have hnew : { c with newValue := some value }.Owns id := h.congr rfl rfl
      cases happly : (Command.apply { c with newValue := some value } value s).outcome with
      | ok u =>
        obtain ⟨trail, hsome, hbrackets⟩ := hnew.apply_of_ok happly
        rw [set_of_applied happlied hfinite happly]
        exact ⟨trail, hbrackets, fun _ => ⟨rfl, rfl⟩, fun _ _ => hsome⟩
      | error e =>
        obtain ⟨⟨trail, hbrackets⟩, -⟩ := hnew.apply value s
        rw [set_of_applied_of_error happlied hfinite happly]
        refine ⟨trail, hbrackets, fun _ => ⟨rfl, rfl⟩, fun hok => ?_⟩
        rw [happly] at hok
        cases hok

end Command

namespace MatrixCommand

variable {m : MatrixCommand} {matrix : Matrix4} {s : Session} {parts : List Part} {id : EntityId}

/-- Giving the part its value writes it if the part is applied. -/
def writesOn (m : MatrixCommand) (matrix : Matrix4) (q : Part) : Bool :=
  (m.part q).state.isApplied && ((Placement.ofMatrix matrix).value q).isFinite

/-- All parts before the one that fails write their values if they are applied. -/
theorem countP_given (m : MatrixCommand) (matrix : Matrix4) (s : Session) :
    (m.given matrix s).countP (m.writesOn matrix) =
      (m.given matrix s).countP fun q => (m.part q).state.isApplied :=
  List.countP_congr fun q hq => by simp [writesOn, isFinite_of_mem_given hq]

/-- The number of notices of one part: one if it writes its value, though that may fail. -/
theorem told_part {n : Notifier} {q : Part} (matrix : Matrix4) (howns : (m.part q).Owns id)
    (hsound : (s.signals.foldl Notifier.follow n).Sound)
    (hfree : (s.signals.foldl Notifier.follow n).isHeld = false) :
    let done := giving matrix q (m.part q) s
    ∃ times, (s.signals.foldl Notifier.follow n).Told id times
        (done.session.signals.foldl Notifier.follow n) ∧
      times ≤ (m.writesOn matrix q).toNat ∧
      (done.outcome = .ok () → (m.writesOn matrix q).toNat ≤ times) := by
  intro done
  obtain ⟨trail, hbrackets, hwrites, hsome⟩ :=
    howns.brackets_set ((Placement.ofMatrix matrix).value q) s
  have hfollow : done.session.signals.foldl Notifier.follow n =
      if trail = [] then s.signals.foldl Notifier.follow n
      else (s.signals.foldl Notifier.follow n).mark id := hbrackets.follow_after hsound
  by_cases hempty : trail = []
  · rw [hfollow, if_pos hempty]
    refine ⟨0, .refl hsound hfree id, Nat.zero_le _, fun hok => ?_⟩
    have hnot : (m.part q).state.isApplied = false := by
      by_contra happlied
      exact hsome hok (by simpa using happlied) hempty
    simp [writesOn, hnot]
  · rw [hfollow, if_neg hempty]
    obtain ⟨happlied, hfinite⟩ := hwrites hempty
    have hwritten : m.writesOn matrix q = true := by
      rw [writesOn, happlied, hfinite]
      rfl
    rw [hwritten]
    exact ⟨1, .mark hsound hfree id, Nat.le_refl _, fun _ => Nat.le_refl _⟩

/-- Each part that writes its value is announced once. The part that fails may be announced too. -/
theorem told_row {n : Notifier} (matrix : Matrix4) (parts : List Part)
    (howns : ∀ q, (m.part q).Owns id)
    (hsound : (s.signals.foldl Notifier.follow n).Sound)
    (hfree : (s.signals.foldl Notifier.follow n).isHeld = false) :
    ∃ times, (s.signals.foldl Notifier.follow n).Told id times
        ((Writer.runAll (m.row matrix parts) s).signals.foldl Notifier.follow n) ∧
      (m.succeeded (giving matrix) parts s).countP (m.writesOn matrix) ≤ times ∧
      times ≤ (m.tried (giving matrix) parts s).countP (m.writesOn matrix) := by
  -- Between two parts nothing is held back, so each part counts from where the last one ended.
  induction parts generalizing s with
  | nil => exact ⟨0, .refl hsound hfree id, Nat.le_refl _, Nat.le_refl _⟩
  | cons q parts ih =>
    have hrun : ((m.part q).setting ((Placement.ofMatrix matrix).value q)).run s =
        giving matrix q (m.part q) s := rfl
    obtain ⟨first, htold, hmost, hleast⟩ := told_part matrix (howns q) hsound hfree
    have hcount (l : List Part) : (q :: l).countP (m.writesOn matrix) =
        l.countP (m.writesOn matrix) + (m.writesOn matrix q).toNat := by
      rw [List.countP_cons]
      cases m.writesOn matrix q <;> rfl
    rw [row, List.map_cons, Writer.runAll, hrun]
    cases houtcome : (giving matrix q (m.part q) s).outcome with
    | ok u =>
      obtain ⟨others, hothers, hleast', hmost'⟩ := ih htold.sound htold.free
      rw [succeeded_of_ok houtcome, tried_of_ok houtcome, hcount, hcount]
      have hone := hleast houtcome
      exact ⟨first + others, htold.trans hothers, by omega, by omega⟩
    | error e =>
      rw [succeeded_of_error houtcome, tried_of_error houtcome, hcount]
      exact ⟨first, htold, Nat.zero_le _, by simpa using hmost⟩

/-- The number of notices of a matrix: one for each applied part if the call succeeds. -/
theorem told_set {n : Notifier} (matrix : Matrix4) (howns : m.Owns id)
    (hsound : (s.signals.foldl Notifier.follow n).Sound)
    (hfree : (s.signals.foldl Notifier.follow n).isHeld = false) :
    ∃ times, (s.signals.foldl Notifier.follow n).Told id times
        ((m.set matrix s).session.signals.foldl Notifier.follow n) ∧
      (m.given matrix s).countP (m.writesOn matrix) ≤ times ∧
      times ≤ (m.asked matrix s).countP (m.writesOn matrix) ∧
      ((m.set matrix s).outcome = .ok () →
        times = allParts.countP fun q => (m.part q).state.isApplied) := by
  have htold := told_row matrix allParts howns.part hsound hfree
  rw [← session_set] at htold
  obtain ⟨times, htold, hleast, hmost⟩ := htold
  refine ⟨times, htold, hleast, hmost, fun hok => ?_⟩
  obtain ⟨hgiven, hasked⟩ := given_of_ok hok
  have hcount := m.countP_given matrix s
  rw [hgiven] at hcount
  have hleast : (m.given matrix s).countP _ ≤ times := hleast
  have hmost : times ≤ (m.asked matrix s).countP _ := hmost
  rw [hgiven, hcount] at hleast
  rw [hasked, hcount] at hmost
  exact Nat.le_antisymm hmost hleast

/-! ## A rotation that is refused -/

/-- What giving the moving matrix comes to for the translation of the executed command, on a layer
that refuses to add the rotation again. -/
def moved : Call Command :=
  giving moving .translate AnyCommand.transformed.command.translate AnyCommand.refusing

/-- What it comes to for the rotation after that. -/
def turned : Call Command :=
  giving moving .rotate AnyCommand.transformed.command.rotate moved.session

/-- The rotation fails, whether or not its value is finite, and the new translation stays. -/
theorem turned_refused : (∃ e, turned.outcome = .error e) ∧
    turned.session.store.authored? default "xformOp:translate" .default =
      .ok (some (.double3 Vector3.one)) := by
  have happlied : AnyCommand.transformed.command.rotate.state.isApplied := by decide +kernel
  unfold turned giving
  -- A value that is not finite is rejected, and a finite one needs the op, which is not added.
  cases hfinite : ((Placement.ofMatrix moving).value .rotate).isFinite with
  | false =>
    rw [Command.set_of_not_finite hfinite]
    exact ⟨⟨_, rfl⟩, by decide +kernel⟩
  | true =>
    have herror : (Command.apply { AnyCommand.transformed.command.rotate with
        newValue := some ((Placement.ofMatrix moving).value .rotate) }
          ((Placement.ofMatrix moving).value .rotate) moved.session).outcome =
        .error (.structural (.addRefused .rotate .rotateXYZ default)) := by decide +kernel
    rw [Command.set_of_applied_of_error happlied hfinite herror]
    exact ⟨⟨_, herror⟩, by decide +kernel⟩

end MatrixCommand

/-! ## The editor -/

namespace Editor

variable {ed : Editor} {id : CommandId} {m : MatrixCommand}

/-- An editor of the layer that refuses the rotation, with the executed command. -/
def withTransformed : Editor :=
  ((start AnyCommand.refusing.layer defaultLimit .default).register
    (.matrix AnyCommand.transformed.command)).2

/-- Giving a matrix command a matrix, whether or not it fails, leaves the store and the values of
the parts exactly where the parts that wrote their values found them in place, and those that took
them had them already. Listeners are told of the entity once for each part that writes its value;
the part that fails may be among them. -/
theorem set_matrix_in_turn (hed : ed.Announcing) (hdeclared : ed.store.OrdersDeclared)
    (hcommand : ed.commands[id]? = some (.matrix m)) (hreached : (AnyCommand.matrix m).Reached)
    (onSingle : Command → Session → Call Command) (matrix : Matrix4) :
    let p := Placement.ofMatrix matrix
    let done := m.set matrix ed.session
    let given := m.given matrix ed.session
    let asked := m.asked matrix ed.session
    let call := ed.call id (AnyCommand.call onSingle (·.set matrix))
    call.1 = done.outcome ∧ call.2.commands[id]? = some (.matrix done.command) ∧
      ((call.2.store = ed.store ∧ ∀ q, (done.command.part q).newValue = (m.part q).newValue) ↔
        (∀ q ∈ given, (m.part q).state.isApplied →
          (m.part q).ValueInPlace (p.value q) ed.store) ∧
        ∀ q ∈ asked, (p.value q).isFinite → (m.part q).state ≠ .undone →
          (m.part q).newValue = some (p.value q)) ∧
      (ed.notifier.isHeld = false → ∃ times,
        given.countP (m.writesOn matrix) ≤ times ∧ times ≤ asked.countP (m.writesOn matrix) ∧
        (call.1 = .ok () →
          times = MatrixCommand.allParts.countP fun q => (m.part q).state.isApplied) ∧
        ∀ l ∈ ed.notifier.listeners, call.2.notifier.toldTo l.id =
          List.replicate times m.entity ++ ed.notifier.toldTo l.id) := by
  intro p done given asked call
  have howns : m.Owns m.entity := hed.owns id _ hcommand
  have hplaced : m.Placed := hreached.placed
  have hcall : call = (done.outcome, ed.after id ⟨done.outcome, .matrix done.command,
    done.session⟩) := call_eq hcommand _
  rw [hcall]
  refine ⟨rfl, ?_, ?_, fun hfree => ?_⟩
  · exact (commands_after _ hcommand id).trans (if_pos rfl)
  · exact and_congr (MatrixCommand.store_set_eq_iff (s := ed.session) hplaced hdeclared matrix)
      (m.newValues_set_iff matrix ed.session)
  · obtain ⟨times, htold, hleast, hmost, hok⟩ := MatrixCommand.told_set matrix
      (s := ed.session) (n := ed.notifier) howns hed.notifier.sound hfree
    exact ⟨times, hleast, hmost, hok, fun l hl => (htold.told l hl).2⟩

/-- Both listeners are told of the entity, though the call fails. -/
theorem set_matrix_in_turn_refused :
    let call := withTransformed.call 0
      (AnyCommand.call (fun c s => ⟨.ok (), c, s⟩) (·.set MatrixCommand.moving))
    withTransformed.store.OrdersDeclared ∧ (∃ e, call.1 = .error e) ∧
      ∃ times, 1 ≤ times ∧ ∀ l ∈ withTransformed.notifier.listeners,
        call.2.notifier.toldTo l.id = List.replicate times default := by
  intro call
  have hed : withTransformed.Announcing :=
    (announcing_start _ _ _).register AnyCommand.reached_transformed.owns
  have hdeclared : withTransformed.store.OrdersDeclared := AnyCommand.wellTyped_unrotated.orders
  have hcommand : withTransformed.commands[0]? = some (.matrix AnyCommand.transformed.command) :=
    rfl
  obtain ⟨hcall, -, -, htold⟩ := set_matrix_in_turn hed hdeclared hcommand
    AnyCommand.reached_transformed (fun c s => ⟨.ok (), c, s⟩) MatrixCommand.moving
  obtain ⟨times, hleast, -, -, htold⟩ := htold rfl
  have hmoved : MatrixCommand.moved.outcome = .ok () := by decide +kernel
  obtain ⟨⟨e, hturned⟩, -⟩ := MatrixCommand.turned_refused
  obtain ⟨hgiven, houtcome, -⟩ := MatrixCommand.set_of_rotate hmoved hturned
  have hgiven : AnyCommand.transformed.command.given MatrixCommand.moving withTransformed.session =
      [.translate] := hgiven
  have hwrites : [Part.translate].countP
      (AnyCommand.transformed.command.writesOn MatrixCommand.moving) = 1 := by decide +kernel
  rw [hgiven, hwrites] at hleast
  refine ⟨hdeclared, ⟨e, hcall.trans houtcome⟩, times, hleast, fun l hl => ?_⟩
  have hbefore : withTransformed.notifier.toldTo l.id = [] := rfl
  exact (htold l hl).trans (by rw [hbefore, List.append_nil]; rfl)

/-- The call fails, and the translation is the new one. -/
theorem failed_set_writes_translation :
    let m := AnyCommand.transformed.command
    let s := AnyCommand.refusing
    let done := m.set MatrixCommand.moving s
    (AnyCommand.matrix m).Reached ∧ s.store.WellTyped ∧ (∃ e, done.outcome = .error e) ∧
      s.store.authored? default "xformOp:translate" .default =
        .ok (some (.double3 Vector3.zero)) ∧
      done.session.store.authored? default "xformOp:translate" .default =
        .ok (some (.double3 Vector3.one)) := by
  intro m s done
  have hmoved : MatrixCommand.moved.outcome = .ok () := by decide +kernel
  obtain ⟨⟨e, hturned⟩, hauthored⟩ := MatrixCommand.turned_refused
  obtain ⟨-, houtcome, hsession⟩ := MatrixCommand.set_of_rotate hmoved hturned
  refine ⟨AnyCommand.reached_transformed, AnyCommand.wellTyped_unrotated, ⟨e, houtcome⟩,
    by decide +kernel, ?_⟩
  show (m.set _ s).session.store.authored? _ _ _ = _
  rw [hsession]
  exact hauthored

end Editor

end TransformStack
