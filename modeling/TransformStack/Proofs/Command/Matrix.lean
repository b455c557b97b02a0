import TransformStack.Proofs.Command.Life

/-!
# The life of a matrix command

A matrix command goes through its life like its parts do. Applied, the parts lead from the store
before over two stores in between to the store after; undoing goes through them backwards. When a
part cannot be executed, undoing those before it leads back to the store that the command found.
-/

namespace TransformStack

namespace MatrixCommand

variable {m : MatrixCommand} {s : Session} {before after : Store}

/-- The parts edit the entity of the command, each at its position. -/
structure Placed (m : MatrixCommand) : Prop where
  translate : m.translate.At m.entity .translate
  rotate : m.rotate.At m.entity .rotate
  scale : m.scale.At m.entity .scale

/-- All parts are ready. -/
structure Ready (m : MatrixCommand) : Prop where
  translate : m.translate.Ready
  rotate : m.rotate.Ready
  scale : m.scale.Ready

/-- A matrix command is ready if each of its parts is. -/
theorem ready_iff : m.Ready ↔ ∀ p, (m.part p).Ready := by
  rw [Part.forall_iff]
  exact ⟨fun h => ⟨h.translate, h.rotate, h.scale⟩, fun h => ⟨h.1, h.2.1, h.2.2⟩⟩

/-- The parts stand applied, each on the store that the part before it made. -/
def Applied (m : MatrixCommand) (before after : Store) : Prop :=
  ∃ s₁ s₂, m.translate.Applied before s₁ ∧ m.rotate.Applied s₁ s₂ ∧ m.scale.Applied s₂ after

/-- The parts stand undone, each for the store that the part before it will make. -/
def Undone (m : MatrixCommand) (before after : Store) : Prop :=
  ∃ s₁ s₂, m.translate.Undone before s₁ ∧ m.rotate.Undone s₁ s₂ ∧ m.scale.Undone s₂ after

/-- A matrix command that is ready stands applied where it can be executed. Where it cannot, the
store is as it was: the part that failed changed nothing, and those before it were undone. -/
theorem Ready.execute (h : m.Ready) (htyped : s.store.WellTyped) :
    (m.execute s).Meets (fun m' s' => m'.Applied s.store s'.store)
      fun _ s' => s'.store = s.store := by
  refine .guarded (.andThen
    (P := fun m₁ s₁ => ∃ mid, m₁.translate.Applied s.store mid ∧
      m₁.rotate.Applied mid s₁.store ∧ m₁.scale = m.scale)
    (.andThen
      (P := fun m₁ s₁ => m₁.translate.Applied s.store s₁.store ∧ m₁.rotate = m.rotate ∧
        m₁.scale = m.scale) ?translate ?rotate) ?scale)
  case translate =>
    refine onPart_meets .translate ((h.translate.execute (s := s.signal .hold) htyped).mono ?_ ?_)
    · exact fun c s' hc => ⟨hc, rfl, rfl⟩
    · exact fun c s' hc => hc.2
  case rotate =>
    rintro m₁ s₁ ⟨htranslate, hrotate, hscale⟩
    have hready : m₁.rotate.Ready := hrotate ▸ h.rotate
    refine .orElse (E := fun m₂ s₂ => m₂.translate = m₁.translate ∧ s₂.store = s₁.store)
      (onPart_meets .rotate ((hready.execute htranslate.typed_after).mono ?_ ?_)) ?_
    · exact fun c s' hc => ⟨s₁.store, htranslate, hc, hscale⟩
    · exact fun c s' hc => ⟨rfl, hc.2⟩
    -- The rotation changed nothing, so the translation is undone on the store that it made.
    · rintro m₂ s₂ ⟨htranslate₂, hstore⟩
      refine onPart_meets .translate (((htranslate₂ ▸ htranslate).undo hstore).mono ?_ ?_)
      · intro c s' hc
        have hback : s'.store = s.store := by rw [Session.store, hc.2]
        exact hback
      · exact fun c s' hc => hc.elim
  case scale =>
    rintro m₂ s₂ ⟨mid, htranslate, hrotate, hscale⟩
    have hready : m₂.scale.Ready := hscale ▸ h.scale
    refine .orElse (E := fun m₃ s₃ => m₃.translate = m₂.translate ∧ m₃.rotate = m₂.rotate ∧
        s₃.store = s₂.store)
      (onPart_meets .scale ((hready.execute hrotate.typed_after).mono ?_ ?_)) ?_
    · exact fun c s' hc => ⟨mid, s₂.store, htranslate, hrotate, hc⟩
    · exact fun c s' hc => ⟨rfl, rfl, hc.2⟩
    -- The scale changed nothing, so the two others are undone one after the other.
    · rintro m₃ s₃ ⟨htranslate₃, hrotate₃, hstore⟩
      have hundo : (rotating Command.undo m₃ s₃).Meets
          (fun m₄ s₄ => m₄.translate = m₂.translate ∧ s₄.store = mid)
          fun _ s' => s'.store = s.store := by
        refine onPart_meets .rotate (((hrotate₃ ▸ hrotate).undo hstore).mono ?_ ?_)
        · exact fun c s' hc => ⟨htranslate₃, Session.store_eq hc.2⟩
        · exact fun c s' hc => hc.elim
      refine .andThen hundo ?_
      · rintro m₄ s₄ ⟨htranslate₄, hstore₄⟩
        refine onPart_meets .translate (((htranslate₄ ▸ htranslate).undo hstore₄).mono ?_ ?_)
        · intro c s' hc
          have hback : s'.store = s.store := by rw [Session.store, hc.2]
          exact hback
        · exact fun c s' hc => hc.elim

/-- Undoing an applied matrix command takes the store it made back to the store it was executed
on. -/
theorem Applied.undo (h : m.Applied before after) (hstore : s.store = after) :
    (m.undo s).Meets
      (fun m' s' => m'.Undone before after ∧ s'.layer = { s.layer with store := before })
      fun _ _ => False := by
  obtain ⟨s₁, s₂, htranslate, hrotate, hscale⟩ := h
  -- The parts are undone in the opposite order; `P` says what stands between two of them.
  refine .guarded (.andThen
    (P := fun m' s' => m'.translate = m.translate ∧ m'.rotate.Undone s₁ s₂ ∧
      m'.scale.Undone s₂ after ∧ s'.layer = { s.layer with store := s₁ })
    (.andThen
      (P := fun m' s' => m'.translate = m.translate ∧ m'.rotate = m.rotate ∧
        m'.scale.Undone s₂ after ∧ s'.layer = { s.layer with store := s₂ })
      ?scale ?rotate) ?translate)
  case scale =>
    refine onPart_meets .scale ((hscale.undo (s := s.signal .hold) hstore).mono ?_ ?_)
    · exact fun c s' hc => ⟨rfl, rfl, hc⟩
    · exact fun c s' hc => hc
  case rotate =>
    rintro m' s' ⟨htranslate', hrotate', hscale', hlayer⟩
    refine onPart_meets .rotate
      (((hrotate' ▸ hrotate).undo (Session.store_eq hlayer)).mono ?_ ?_)
    · intro c s'' hc
      rw [hlayer] at hc
      exact ⟨htranslate', hc.1, hscale', hc.2⟩
    · exact fun c s' hc => hc
  case translate =>
    rintro m' s' ⟨htranslate', hrotate', hscale', hlayer⟩
    refine onPart_meets .translate
      (((htranslate' ▸ htranslate).undo (Session.store_eq hlayer)).mono ?_ ?_)
    · intro c s'' hc
      rw [hlayer] at hc
      exact ⟨⟨s₁, s₂, hc.1, hrotate', hscale'⟩, hc.2⟩
    · exact fun c s' hc => hc

/-- Redoing an undone matrix command makes the same store again. Only a layer that refuses something
can keep it from that. -/
theorem Undone.redo (h : m.Undone before after) (hstore : s.store = before) :
    (m.redo s).Meets
      (fun m' s' => m'.Applied before after ∧ s'.store = after ∧
        (s.layer.refusals = {} → s'.layer.refusals = {}))
      fun _ _ => s.layer.refusals ≠ {} := by
  obtain ⟨s₁, s₂, htranslate, hrotate, hscale⟩ := h
  refine .guarded (.andThen
    (P := fun m' s' => m'.translate.Applied before s₁ ∧ m'.rotate.Applied s₁ s₂ ∧
      m'.scale = m.scale ∧ s'.store = s₂ ∧ (s.layer.refusals = {} → s'.layer.refusals = {}))
    (.andThen
      (P := fun m' s' => m'.translate.Applied before s₁ ∧ m'.rotate = m.rotate ∧
        m'.scale = m.scale ∧ s'.store = s₁ ∧ (s.layer.refusals = {} → s'.layer.refusals = {}))
      ?translate ?rotate) ?scale)
  case translate =>
    refine onPart_meets .translate ((htranslate.redo (s := s.signal .hold) hstore).mono ?_ ?_)
    · exact fun c s' hc => ⟨hc.1, rfl, rfl, hc.2⟩
    · exact fun c s' hc => hc
  case rotate =>
    rintro m' s' ⟨htranslate', hrotate', hscale', hstore', hfree⟩
    refine onPart_meets .rotate (((hrotate' ▸ hrotate).redo hstore').mono ?_ ?_)
    · exact fun c s'' hc => ⟨htranslate', hc.1, hscale', hc.2.1, fun h => hc.2.2 (hfree h)⟩
    · exact fun c s'' hc h => hc (hfree h)
  case scale =>
    rintro m' s' ⟨htranslate', hrotate', hscale', hstore', hfree⟩
    refine onPart_meets .scale (((hscale' ▸ hscale).redo hstore').mono ?_ ?_)
    · exact fun c s'' hc =>
        ⟨⟨s₁, s₂, htranslate', hrotate', hc.1⟩, hc.2.1, fun h => hc.2.2 (hfree h)⟩
    · exact fun c s'' hc h => hc (hfree h)

end MatrixCommand

/-! ## Commands of either kind -/

namespace AnyCommand

variable {command : AnyCommand} {s : Session} {before after : Store}

/-- The command has a value and has not been executed. -/
def Ready : AnyCommand → Prop
  | single c => c.Ready
  | matrix m => m.Ready

/-- The command stands applied, and its writes took one store to another. -/
def Applied : AnyCommand → Store → Store → Prop
  | single c => c.Applied
  | matrix m => m.Applied

/-- The command stands undone, and its writes would take one store to another again. -/
def Undone : AnyCommand → Store → Store → Prop
  | single c => c.Undone
  | matrix m => m.Undone

/-- What is known of the calls on each kind of command is known of a call on either. -/
theorem call_meets {onSingle : Command → Session → Call Command}
    {onMatrix : MatrixCommand → Session → Call MatrixCommand} {P E : AnyCommand → Session → Prop}
    (hsingle : ∀ c, command = single c →
      (onSingle c s).Meets (fun c s => P (single c) s) fun c s => E (single c) s)
    (hmatrix : ∀ m, command = matrix m →
      (onMatrix m s).Meets (fun m s => P (matrix m) s) fun m s => E (matrix m) s) :
    (call onSingle onMatrix command s).Meets P E := by
  cases command with
  | single c => exact ⟨(hsingle c rfl).ok, (hsingle c rfl).error⟩
  | matrix m => exact ⟨(hmatrix m rfl).ok, (hmatrix m rfl).error⟩

/-- Executing a command that is ready applies it, or leaves the store. -/
theorem Ready.execute (h : command.Ready) (htyped : s.store.WellTyped) :
    (command.execute s).Meets (fun command' s' => command'.Applied s.store s'.store)
      fun _ s' => s'.store = s.store := by
  refine call_meets ?_ ?_
  · rintro c rfl
    exact (Command.Ready.execute h htyped).mono (fun _ _ hc => hc) fun _ _ hc => hc.2
  · rintro m rfl
    exact MatrixCommand.Ready.execute h htyped

/-- Undoing an applied command leads back to the store it was executed on. -/
theorem Applied.undo (h : command.Applied before after) (hstore : s.store = after) :
    (command.undo s).Meets
      (fun command' s' => command'.Undone before after ∧
        s'.layer = { s.layer with store := before })
      fun _ _ => False := by
  refine call_meets ?_ ?_
  · rintro c rfl
    exact Command.Applied.undo h hstore
  · rintro m rfl
    exact MatrixCommand.Applied.undo h hstore

/-- Redoing an undone command makes the same store again, unless the layer refuses something. -/
theorem Undone.redo (h : command.Undone before after) (hstore : s.store = before) :
    (command.redo s).Meets
      (fun command' s' => command'.Applied before after ∧ s'.store = after ∧
        (s.layer.refusals = {} → s'.layer.refusals = {}))
      fun _ _ => s.layer.refusals ≠ {} := by
  refine call_meets ?_ ?_
  · rintro c rfl
    exact Command.Undone.redo h hstore
  · rintro m rfl
    exact MatrixCommand.Undone.redo h hstore

/-- An applied command was executed on a well typed store, and made one. -/
theorem Applied.typed (h : command.Applied before after) :
    before.WellTyped ∧ after.WellTyped := by
  cases command with
  | single c => exact ⟨Command.Applied.typed h, Command.Applied.typed_after h⟩
  | matrix m =>
    obtain ⟨s₁, s₂, htranslate, -, hscale⟩ := h
    exact ⟨htranslate.typed, hscale.typed_after⟩

/-- An applied command was executed on a store that is open for writing, and left it so. -/
theorem Applied.writable (h : command.Applied before after) :
    before.readOnly = false ∧ after.readOnly = false := by
  cases command with
  | single c => exact Command.Applied.writable h
  | matrix m =>
    obtain ⟨s₁, s₂, htranslate, -, hscale⟩ := h
    exact ⟨htranslate.writable.1, hscale.writable.2⟩

end AnyCommand

end TransformStack
