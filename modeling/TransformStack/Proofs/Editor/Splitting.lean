import TransformStack.Proofs.Command.Splitting

/-!
# A matrix edit as three edits

Setting a whole matrix leaves the layer that three edits leave: one for the translation, one for the
rotation and one for the scale. It does not matter whether the view is asked for all three at first,
or for each on the store that those before it have left. Undoing the matrix leaves the layer that
undoing three times leaves, whether or not everything can be undone, if the history is deep enough
to hold the three.
-/

namespace TransformStack

namespace Editor

variable {ed : Editor} {c : Command} {command : AnyCommand} {commands : List Command}
  {id : CommandId} {ids : List CommandId}

/-! ## Undoing several times -/

/-- Undo so many times, whatever each attempt comes to. -/
def undoTimes (ed : Editor) : Nat → List (Except EditError HistoryStep) × Editor
  | 0 => ([], ed)
  | n + 1 =>
    let (answer, ed) := ed.undo
    let (answers, ed) := ed.undoTimes n
    (answer :: answers, ed)

/-- Undoing once more is undoing first and then the other times. -/
theorem undoTimes_succ (ed : Editor) (n : Nat) :
    ed.undoTimes (n + 1) = (ed.undo.1 :: (ed.undo.2.undoTimes n).1, (ed.undo.2.undoTimes n).2) :=
  rfl

/-- The command that is undone next cannot be undone, and attempts to undo it change nothing. -/
def Stuck (ed : Editor) : Prop :=
  ∃ id older c e, ed.history.undo = id :: older ∧ ed.commands[id]? = some (.single c) ∧
    (c.undo ed.session).Alike ⟨.error e, c, ed.session⟩

/-- An attempt to undo leaves a stuck editor stuck. -/
theorem Stuck.undo (h : ed.Stuck) : ed.undo.2.Stuck ∧ ed.undo.2.layer = ed.layer := by
  obtain ⟨id, older, c, e, hundo, hcommand, houtcome, hkept, hlayer⟩ := h
  have herror : ((AnyCommand.single c).undo ed.session).outcome = .error e := houtcome
  rw [undo_of_error hundo hcommand herror]
  refine ⟨⟨id, older, c, e, hundo, ?_, ?_⟩, hlayer⟩
  · rw [commands_after _ hcommand, if_pos rfl]
    exact congrArg (some ∘ AnyCommand.single) hkept
  · obtain ⟨houtcome', hkept', hlayer'⟩ := Command.layerOnly_undo c
      (ed.after id ((AnyCommand.single c).undo ed.session)).session ed.session hlayer
    exact ⟨houtcome'.trans houtcome, hkept'.trans hkept, hlayer'⟩

/-- Attempts to undo leave the layer of a stuck editor. -/
theorem Stuck.layer_undoTimes (h : ed.Stuck) (n : Nat) : (ed.undoTimes n).2.layer = ed.layer := by
  induction n generalizing ed with
  | zero => rfl
  | succ n ih =>
    obtain ⟨hstuck, hlayer⟩ := h.undo
    exact (ih hstuck).trans hlayer

/-- The commands that are undone next, and their numbers, the next one first. -/
structure Undoes (ed : Editor) (ids : List CommandId) (commands : List Command) : Prop where
  history : ∃ older, ed.history.undo = ids ++ older
  nodup : ids.Nodup
  table : ids.map (ed.commands[·]?) = commands.map (some <| .single ·)

namespace Undoes

/-- No command is to be undone where there is none. -/
theorem nil (ed : Editor) : ed.Undoes [] [] := ⟨⟨_, rfl⟩, List.nodup_nil, rfl⟩

/-- A call on another command leaves the commands that are undone next. -/
theorem table_congr {ed' : Editor} (h : ed.Undoes ids commands)
    (hsame : ∀ id ∈ ids, ed'.commands[id]? = ed.commands[id]?) :
    ids.map (ed'.commands[·]?) = commands.map (some <| .single ·) := by
  rw [← h.table]
  exact List.map_congr_left hsame

/-- A command that can be undone is, and the older ones are next. -/
theorem undo_of_ok (h : ed.Undoes (id :: ids) (c :: commands))
    (hok : (c.undo ed.session).outcome = .ok ()) :
    ed.undo.1 = .ok .applied ∧ ed.undo.2.layer = (c.undo ed.session).session.layer ∧
      ed.undo.2.Undoes ids commands := by
  obtain ⟨⟨older, hundo⟩, hnodup, htable⟩ := h
  obtain ⟨hnew, hnodup⟩ := List.nodup_cons.1 hnodup
  obtain ⟨hcommand, hothers⟩ := List.cons.inj htable
  rw [Editor.undo_of_ok hundo hcommand hok]
  refine ⟨rfl, rfl, ⟨older, rfl⟩, hnodup, ?_⟩
  refine hothers ▸ List.map_congr_left fun id' hid' => ?_
  refine (commands_after _ hcommand id').trans (if_neg ?_)
  rintro rfl
  exact hnew hid'

/-- A command that cannot be undone leaves the editor stuck. -/
theorem undo_of_error (h : ed.Undoes (id :: ids) (c :: commands)) {e : EditError}
    (herror : (c.undo ed.session).outcome = .error e) :
    ed.undo.2.layer = (c.undo ed.session).session.layer ∧ ed.undo.2.Stuck := by
  obtain ⟨⟨older, hundo⟩, -, htable⟩ := h
  obtain ⟨hcommand, -⟩ := List.cons.inj htable
  rw [Editor.undo_of_error hundo hcommand herror]
  refine ⟨rfl, id, ids ++ older, (c.undo ed.session).command, e, hundo, ?_, ?_⟩
  · rw [commands_after _ hcommand, if_pos rfl]
    rfl
  · exact Command.undo_again herror rfl

/-- Undoing as often as there are commands undoes them one after the other, up to the first that
cannot be undone. -/
theorem undoTimes (h : ed.Undoes ids commands) :
    (ed.undoTimes commands.length).2.layer = (Command.undoAll commands ed.layer).2 ∧
      ((Command.undoAll commands ed.layer).1 = .ok () →
        (ed.undoTimes commands.length).1 = List.replicate commands.length (.ok .applied)) := by
  -- On the commands, the newest first. One that cannot be undone is tried again each time, and
  -- leaves the layer each time.
  induction commands generalizing ed ids with
  | nil => exact ⟨rfl, fun _ => rfl⟩
  | cons c commands ih =>
    cases ids with
    | nil => cases h.table
    | cons id ids =>
    rw [List.length_cons, undoTimes_succ]
    cases houtcome : (c.undo ed.session).outcome with
    | ok u =>
      obtain ⟨hanswer, hlayer, hrest⟩ := h.undo_of_ok houtcome
      obtain ⟨hleft, hanswers⟩ := ih hrest
      rw [show ed.layer = ed.session.layer from rfl, Command.undoAll_of_ok houtcome, ← hlayer]
      refine ⟨hleft, fun hall => ?_⟩
      rw [hanswer, hanswers hall, List.replicate_succ]
    | error e =>
      obtain ⟨hlayer, hstuck⟩ := h.undo_of_error houtcome
      rw [show ed.layer = ed.session.layer from rfl, Command.undoAll_of_error houtcome, ← hlayer]
      exact ⟨hstuck.layer_undoTimes _, fun hall => nomatch hall⟩

/-- A command that is executed is the next one to be undone. -/
theorem submit (h : ed.Undoes ids commands) (hroom : ids.length < ed.history.limit)
    (hok : (c.execute ed.session).outcome = .ok ()) :
    (ed.submit (.single c)).2.Undoes (ed.commands.size :: ids)
      ((c.execute ed.session).command :: commands) := by
  have houtcome : ((AnyCommand.single c).execute ed.session).outcome = .ok () := hok
  have hknown : ∀ id ∈ ids, id < ed.commands.size := by
    intro id hid
    have hmem : ed.commands[id]? ∈ commands.map (some <| .single ·) :=
      h.table ▸ List.mem_map_of_mem hid
    obtain ⟨c, -, hc⟩ := List.mem_map.1 hmem
    exact (Array.getElem?_eq_some_iff.1 hc.symm).1
  refine ⟨?_, List.nodup_cons.2 ⟨fun hmem => Nat.lt_irrefl _ (hknown _ hmem), h.nodup⟩, ?_⟩
  · obtain ⟨older, hundo⟩ := h.history
    rw [history_submit, houtcome]
    show ∃ older', (ed.commands.size :: ed.history.undo).take ed.history.limit = _
    have hlength : (ed.commands.size :: ids).length ≤ ed.history.limit := hroom
    rw [hundo, ← List.cons_append, List.take_append, List.take_of_length_le hlength]
    exact ⟨_, rfl⟩
  · rw [List.map_cons, List.map_cons]
    congr 1
    · rw [commands_submit, if_pos rfl]
      rfl
    · exact h.table_congr fun id hid => Linked.commands_submit_of_lt (hknown id hid)

end Undoes

/-- Submitting a command leaves the limit of the history. -/
theorem limit_submit (ed : Editor) (command : AnyCommand) :
    (ed.submit command).2.history.limit = ed.history.limit := by
  rw [history_submit]
  split <;> rfl

/-- What undoing a command that was just executed comes to. -/
theorem undo_submitted (hok : (command.execute ed.session).outcome = .ok ())
    (hroom : 0 < ed.history.limit) :
    let done := command.execute ed.session
    let undone := done.command.undo (ed.submit command).2.session
    (ed.submit command).2.undo.2.layer = undone.session.layer ∧
      ((ed.submit command).2.undo.1 = .ok .applied → undone.outcome = .ok ()) := by
  intro done undone
  have hundo : ∃ older, (ed.submit command).2.history.undo = ed.commands.size :: older := by
    rw [history_submit, hok]
    show ∃ older, (ed.commands.size :: ed.history.undo).take ed.history.limit = _
    obtain ⟨n, hn⟩ := Nat.exists_eq_succ_of_ne_zero (Nat.ne_of_gt hroom)
    rw [hn]
    exact ⟨_, rfl⟩
  obtain ⟨older, hundo⟩ := hundo
  have hcommand : (ed.submit command).2.commands[ed.commands.size]? = some done.command := by
    rw [commands_submit, if_pos rfl]
  cases houtcome : undone.outcome with
  | ok u =>
    rw [undo_of_ok hundo hcommand houtcome]
    exact ⟨rfl, fun _ => rfl⟩
  | error e =>
    rw [undo_of_error hundo hcommand houtcome]
    exact ⟨rfl, fun happlied => nomatch happlied⟩

/-! ## A matrix edit -/

/-- What an editor is once a new command was executed in it that can be executed in some session on
the same layer. -/
structure Submitted (ed : Editor) (c : Command) (s : Session) (ed' : Editor) : Prop where
  submit : ed.submit (.single c) = (.ok (), ed')
  layer : ed'.layer = (c.execute s).session.layer
  moves : ∃ value, c.Moves value ed.layer ed'.layer
  limit : ed'.history.limit = ed.history.limit
  undoes : ∀ ids commands, ed.Undoes ids commands → ids.length < ed.history.limit →
    ed'.Undoes (ed.commands.size :: ids) ((c.execute s).command :: commands)

/-- A ready command that can be executed on the layer can be submitted. -/
theorem exists_submitted (h : c.Ready) {s : Session} (hok : (c.execute s).outcome = .ok ())
    (hlayer : ed.layer = s.layer) : ∃ ed', ed.Submitted c s ed' := by
  have halike : (c.execute ed.session).Alike (c.execute s) := h.execute_alike hok hlayer
  obtain ⟨houtcome, hcommand, hafter⟩ := halike
  have hsubmit : (ed.submit (.single c)).1 = .ok () :=
    (outcome_submit ed (.single c)).trans (houtcome.trans hok)
  have hleft : (ed.submit (.single c)).2.layer = (c.execute ed.session).session.layer :=
    layer_submit ed (.single c)
  obtain ⟨value, -, hmoves⟩ := h.execute_iff.1 ⟨houtcome.trans hok, hleft.symm⟩
  refine ⟨_, Prod.ext hsubmit rfl, hleft.trans hafter, ⟨value, hmoves⟩, limit_submit ed _, ?_⟩
  intro ids commands hundoes hroom
  rw [← hcommand]
  exact hundoes.submit hroom (houtcome.trans hok)

variable {view : StackView} {matrix : Matrix4} {m : MatrixCommand} {ed₁ ed₂ ed₃ : Editor}

/-- Where a new matrix command can be executed, so can its parts, each as a command of its own, and
they leave the same layer. -/
theorem exists_submitted_parts (h : m.Ready) (hok : (m.execute ed.session).outcome = .ok ()) :
    ∃ ed₁ ed₂ ed₃, ed.Submitted m.translate (ed.session.signal .hold) ed₁ ∧
      ed₁.Submitted m.rotate (m.translated ed.session).session ed₂ ∧
      ed₂.Submitted m.scale (m.rotated ed.session).session ed₃ ∧
      ed₃.layer = (ed.submit (.matrix m)).2.layer := by
  obtain ⟨hokT, hokR, hokS, hexecute⟩ := MatrixCommand.execute_parts hok
  obtain ⟨ed₁, htranslated⟩ : ∃ ed₁, ed.Submitted m.translate (ed.session.signal .hold) ed₁ :=
    exists_submitted h.translate hokT rfl
  obtain ⟨ed₂, hrotated⟩ := exists_submitted h.rotate hokR htranslated.layer
  obtain ⟨ed₃, hscaled⟩ := exists_submitted h.scale hokS hrotated.layer
  have hwhole : (ed.submit (.matrix m)).2.layer = (m.execute ed.session).session.layer :=
    layer_submit ed (.matrix m)
  rw [hexecute] at hwhole
  exact ⟨ed₁, ed₂, ed₃, htranslated, hrotated, hscaled, hscaled.layer.trans hwhole.symm⟩

/-- Undoing the parts of a matrix command one by one leaves what undoing the command leaves. -/
theorem undo_submitted_parts (hok : (m.execute ed.session).outcome = .ok ())
    (htranslated : ed.Submitted m.translate (ed.session.signal .hold) ed₁)
    (hrotated : ed₁.Submitted m.rotate (m.translated ed.session).session ed₂)
    (hscaled : ed₂.Submitted m.scale (m.rotated ed.session).session ed₃)
    (hlayer : ed₃.layer = (ed.submit (.matrix m)).2.layer) (hroom : 3 ≤ ed.history.limit) :
    let whole := (ed.submit (.matrix m)).2
    (ed₃.undoTimes 3).2.layer = whole.undo.2.layer ∧
      (whole.undo.1 = .ok .applied →
        (ed₃.undoTimes 3).1 = List.replicate 3 (.ok .applied)) := by
  intro whole
  have hundoes₁ := htranslated.undoes _ _ (.nil ed) (by rw [List.length_nil]; omega)
  have hundoes₂ := hrotated.undoes _ _ hundoes₁ (by rw [htranslated.limit]; simp; omega)
  have hundoes₃ := hscaled.undoes _ _ hundoes₂
    (by rw [hrotated.limit, htranslated.limit]; simp; omega)
  obtain ⟨hleft, hanswers⟩ := hundoes₃.undoTimes
  have hsubmitted : ((AnyCommand.matrix m).execute ed.session).outcome = .ok () := hok
  obtain ⟨hundone, happlied⟩ := undo_submitted hsubmitted (by omega)
  let done : MatrixCommand := { m with
    translate := (m.translated ed.session).command
    rotate := (m.rotated ed.session).command
    scale := (m.scaled ed.session).command }
  obtain ⟨-, -, -, hexecute⟩ := MatrixCommand.execute_parts hok
  have hdone : ((AnyCommand.matrix m).execute ed.session).command = .matrix done :=
    congrArg (fun call : Call MatrixCommand => AnyCommand.matrix call.command) hexecute
  have hparts := done.undo_eq_undoAll whole.session
  have hsame : whole.session.layer = ed₃.layer := hlayer.symm
  rw [hsame, Prod.ext_iff] at hparts
  rw [hdone] at hundone happlied
  refine ⟨hleft.trans (hparts.2.symm.trans hundone.symm), fun hanswer => hanswers ?_⟩
  exact hparts.1.symm.trans (happlied hanswer)

/-- Executing a matrix command that a view offers leaves the layer that three edits leave. The view
offers the same three commands whether it is asked for them at first or each in its turn, and all
three can be executed. Where the history has room for three commands, undoing the matrix leaves the
layer that undoing three times leaves, and if the matrix can be undone, so can each of the three. -/
theorem matrix_edit_splits (hoffer : view.offerMatrix ed.store matrix = .ok (.ok m))
    (hok : (ed.submit (.matrix m)).1 = .ok ()) :
    let p := Placement.ofMatrix matrix
    let whole := (ed.submit (.matrix m)).2
    ∃ translate rotate scale ed₁ ed₂ ed₃,
      (view.offerAt ed.store .translate p.translation = .ok (.ok translate) ∧
        ed.submit (.single translate) = (.ok (), ed₁)) ∧
      (view.offerAt ed.store .rotate p.rotation = .ok (.ok rotate) ∧
        view.offerAt ed₁.store .rotate p.rotation = .ok (.ok rotate) ∧
        ed₁.submit (.single rotate) = (.ok (), ed₂)) ∧
      (view.offerAt ed.store .scale p.scale = .ok (.ok scale) ∧
        view.offerAt ed₂.store .scale p.scale = .ok (.ok scale) ∧
        ed₂.submit (.single scale) = (.ok (), ed₃)) ∧
      ed₃.layer = whole.layer ∧
      (3 ≤ ed.history.limit → (ed₃.undoTimes 3).2.layer = whole.undo.2.layer ∧
        (whole.undo.1 = .ok .applied →
          (ed₃.undoTimes 3).1 = List.replicate 3 (.ok .applied))) := by
  intro p whole
  obtain ⟨-, hofferT, hofferR, hofferS⟩ := StackView.parts_of_offerMatrix hoffer
  obtain ⟨hready, -⟩ := StackView.ready_of_offerMatrix hoffer
  obtain ⟨⟨hTR, hTS⟩, hRS⟩ : (_ ∧ _) ∧ _ := by
    simpa [AnyCommand.parts] using (AnyCommand.OfferedBy.matrix hoffer).apart
  rw [outcome_submit] at hok
  obtain ⟨ed₁, ed₂, ed₃, htranslated, hrotated, hscaled, hlayer⟩ :=
    exists_submitted_parts hready hok
  have hentityT := (StackView.ready_of_offerAt hofferT).2.entity
  have hentityR := (StackView.ready_of_offerAt hofferR).2.entity
  obtain ⟨valueT, hmovesT⟩ := htranslated.moves
  obtain ⟨valueR, hmovesR⟩ := hrotated.moves
  -- A part that has moved at one position leaves what the view offers at the others.
  have hofferR' := hmovesT.offerAt_eq hready.translate.op hentityT hTR hofferR
  have hofferS' := hmovesR.offerAt_eq hready.rotate.op hentityR hRS
    (hmovesT.offerAt_eq hready.translate.op hentityT hTS hofferS)
  exact ⟨m.translate, m.rotate, m.scale, ed₁, ed₂, ed₃, ⟨hofferT, htranslated.submit⟩,
    ⟨hofferR, hofferR', hrotated.submit⟩, ⟨hofferS, hofferS', hscaled.submit⟩, hlayer,
    undo_submitted_parts hok htranslated hrotated hscaled hlayer⟩

/-- On a bare store the matrix whose rows are all the default is set and undone in one step, and its
three parts in three steps. -/
theorem matrix_edit_splits_on_bare :
    let ed := start { store := .bare } 3 .default
    StackView.offerMatrix ⟨default, .default⟩ ed.store default = .ok (.ok AnyCommand.transform) ∧
      (ed.submit (.matrix AnyCommand.transform)).1 = .ok () ∧
      (ed.submit (.matrix AnyCommand.transform)).2.undo.1 = .ok .applied ∧
      ∃ translate rotate scale ed₁ ed₂ ed₃, ed.submit (.single translate) = (.ok (), ed₁) ∧
        ed₁.submit (.single rotate) = (.ok (), ed₂) ∧ ed₂.submit (.single scale) = (.ok (), ed₃) ∧
        ed₃.layer = (ed.submit (.matrix AnyCommand.transform)).2.layer ∧
        (ed₃.undoTimes 3).2.layer = (ed.submit (.matrix AnyCommand.transform)).2.undo.2.layer ∧
        (ed₃.undoTimes 3).1 = List.replicate 3 (.ok .applied) := by
  intro ed
  have hoffer : StackView.offerMatrix ⟨default, .default⟩ ed.store default =
      .ok (.ok AnyCommand.transform) := rfl
  have hok : (ed.submit (.matrix AnyCommand.transform)).1 = .ok () := by decide +kernel
  have hundone : (ed.submit (.matrix AnyCommand.transform)).2.undo.1 = .ok .applied := by
    decide +kernel
  obtain ⟨translate, rotate, scale, ed₁, ed₂, ed₃, htranslate, hrotate, hscale, hlayer, hback⟩ :=
    matrix_edit_splits hoffer hok
  obtain ⟨hback, hanswers⟩ := hback (Nat.le_refl 3)
  exact ⟨hoffer, hok, hundone, translate, rotate, scale, ed₁, ed₂, ed₃, htranslate.2, hrotate.2.2,
    hscale.2.2, hlayer, hback, hanswers hundone⟩

end Editor

end TransformStack
