import TransformStack.Proofs.Edit.Sparing
import TransformStack.Proofs.Command.Redoing
import TransformStack.Proofs.Editor.Reordering

/-!
# Attributes that commands spare

Executing a new command touches the attribute of its op, and the order if the order lacks the op.
Everything else that was there is spared, whether the command succeeds or fails, and undoing the
command spares it too. So a matrix command spares what its parts spare, wherever it stops. Where
commands succeed one after the other, each leaves its value in the attribute of its op.
-/

namespace TransformStack

namespace Command

variable {c : Command} {value : Vector3} {order : OpOrder} {before : Store} {id : EntityId}
  {names : List String} {tx : Transaction} {s : Session}

/-- The attributes that executing a new command touches, where the order reads as `order`. -/
def touches (c : Command) (order : OpOrder) : List String :=
  (c.recipe.opIn order).attributeName ::
    if (order.at? c.recipe.position).isSome then [] else [Op.orderName]

/-- What a command touches depends on the op that the order has for it. -/
theorem touches_congr {order' : OpOrder}
    (h : order'.at? c.recipe.position = order.at? c.recipe.position) :
    c.touches order' = c.touches order := by
  rw [touches, touches, Recipe.opIn, Recipe.opIn, h]

/-! ## New commands -/

/-- Finding the op of a command adds it if it is missing, and touches nothing but the order. -/
theorem target_within (hop : c.op = none) (horder : tx.store.order c.entity = .ok order)
    (htouches : ∀ name ∈ c.touches order, name ∈ names) (h : tx.Within before c.entity names) :
    (c.target.on tx).2.Within before c.entity names := by
  cases hat : order.at? c.recipe.position with
  | some op =>
    rw [target_on horder, opIn?_of_none hop, hat]
    exact h
  | none =>
    have hname : Op.orderName ∈ names := htouches _ (by simp [touches, hat])
    have hkeeps : c.target.Keeps (·.Within before c.entity names) :=
      target_keeps (fun _ op htx => htx.addOp hname op) fun _ order htx => htx.setOrder hname order
    exact hkeeps tx h

/-- The op that a new command finds is the one in the order, or the one that its recipe makes. -/
theorem eq_opIn_of_target (hop : c.op = none) (horder : tx.store.order c.entity = .ok order)
    {op : Op} {tx' : Transaction} (h : c.target.on tx = (.ok op, tx')) :
    op = c.recipe.opIn order := by
  obtain ⟨order', horder', hfound⟩ := target_eq_ok h
  obtain rfl : order = order' := Except.ok.inj (horder.symm.trans horder')
  rw [opIn?_of_none hop] at hfound
  rcases hfound with ⟨hat, -⟩ | ⟨hat, rfl, -⟩
  · rw [Recipe.opIn, hat, Option.getD_some]
  · rw [Recipe.opIn, hat, Option.getD_none]

/-- Writing a value stays within the attributes that the command touches. -/
theorem write_within (hop : c.op = none) (horder : tx.store.order c.entity = .ok order)
    (htouches : ∀ name ∈ c.touches order, name ∈ names) (h : tx.Within before c.entity names) :
    ((c.write value).on tx).2.Within before c.entity names := by
  have htarget := target_within hop horder htouches h
  rcases hrun : (c.write value).on tx with ⟨e | op, tx'⟩
  · rwa [write_eq_error hrun] at htarget
  · obtain ⟨mid, stored, hfound, -, hset⟩ := write_eq_ok_iff.1 hrun
    rw [hfound] at htarget
    have hname : op.attributeName ∈ names := by
      rw [eq_opIn_of_target hop horder hfound]
      exact htouches _ List.mem_cons_self
    have hwritten := Transaction.Within.setValue htarget hname stored .default
    rwa [hset] at hwritten

/-- All but the given attributes of the command's entity are spared, now and when the command is
undone. -/
structure Spares (c : Command) (before : Store) (id : EntityId) (names : List String)
    (s : Session) : Prop where
  entity : c.entity = id
  store : before.Spares id names s.store
  journal : ∀ edit ∈ c.journal, edit.Within before id names

/-- Executing a new command spares all but what it touches. -/
theorem Ready.spares (h : c.Ready) (hentity : c.entity = id)
    (horder : s.store.order id = .ok order) (htouches : ∀ name ∈ c.touches order, name ∈ names)
    (hspares : before.Spares id names s.store) :
    (c.execute s).command.Spares before id names (c.execute s).session := by
  subst hentity
  obtain ⟨value, hvalue⟩ := h.value
  have hwithin : ((c.write value).on (.start (s.signal .hold))).2.Within before c.entity names :=
    write_within h.op horder htouches (.start hspares)
  rcases apply_cases c value s with ⟨op, tx, hrun, happly⟩ | ⟨e, tx, hrun, happly⟩ <;>
    rw [hrun] at hwithin
  · rw [h.execute_of_ok hvalue (by rw [happly]), happly]
    refine ⟨rfl, hwithin.store, ?_⟩
    show ∀ edit ∈ tx.journal ++ c.journal, edit.Within before c.entity names
    rw [h.journal, List.append_nil]
    exact hwithin.journal
  · rw [h.execute_of_error hvalue (by rw [happly]), happly]
    refine ⟨rfl, hwithin.rollback, ?_⟩
    show ∀ edit ∈ c.journal, edit.Within before c.entity names
    rw [h.journal]
    exact fun _ hedit => nomatch hedit

/-- A command goes on sparing what it spared where something else spares it. -/
theorem Spares.move {s' : Session} (h : c.Spares before id names s)
    (hstore : before.Spares id names s'.store) : c.Spares before id names s' :=
  ⟨h.entity, hstore, h.journal⟩

/-- Undoing a command spares what the command spared. -/
theorem Spares.undo (h : c.Spares before id names s) :
    (c.undo s).command.Spares before id names (c.undo s).session := by
  have hspares : before.Spares id names (s.signal .hold).store := h.store
  obtain ⟨hstore, hjournal⟩ :=
    Journal.revert_keeps (fun _ _ _ hedit hs => hedit.revert hs) h.journal hspares
  rcases c.undo_cases s with
    ⟨-, hundo⟩ | ⟨-, journal, s', ⟨hrevert, hundo⟩ | ⟨e, hrevert, hundo⟩⟩ <;> rw [hundo]
  · exact h
  all_goals
    rw [hrevert] at hstore hjournal
    exact ⟨h.entity, hstore, hjournal⟩

/-! ## Rows of commands -/

namespace MoveInTurn

variable {commands commands' : List Command} {first mid last : Layer} {recipe : Recipe}

/-- Two rows of commands move a layer one after the other. -/
theorem append (h : MoveInTurn commands first mid) (h' : MoveInTurn commands' mid last) :
    MoveInTurn (commands ++ commands') first last := by
  induction commands generalizing first with
  | nil =>
    obtain rfl : first = mid := h
    exact h'
  | cons c commands ih =>
    obtain ⟨value, next, hvalue, hmove, hrest⟩ := h
    exact ⟨value, next, hvalue, hmove, ih hrest⟩

/-- What a row of commands on one entity needs for an op apart from theirs to be left alone. -/
structure Beside (commands : List Command) (id : EntityId) (recipe : Recipe) : Prop where
  op : ∀ c ∈ commands, c.op = none
  entity : ∀ c ∈ commands, c.entity = id
  apart : ∀ c ∈ commands, c.recipe.Apart recipe

/-- No command is in the way where there is none. -/
theorem Beside.nil : Beside [] id recipe :=
  ⟨List.forall_mem_nil _, List.forall_mem_nil _, List.forall_mem_nil _⟩

/-- The rest of a row leaves alone what the whole row does. -/
theorem Beside.of_cons (h : Beside (c :: commands) id recipe) : Beside commands id recipe :=
  ⟨(List.forall_mem_cons.1 h.op).2, (List.forall_mem_cons.1 h.entity).2,
    (List.forall_mem_cons.1 h.apart).2⟩

/-- The op at another position is the same after a row of commands. -/
theorem exists_order (h : MoveInTurn commands first last) (hbeside : Beside commands id recipe)
    (horder : first.store.order id = .ok order) :
    ∃ order', last.store.order id = .ok order' ∧
      order'.at? recipe.position = order.at? recipe.position := by
  induction commands generalizing first order with
  | nil =>
    obtain rfl : first = last := h
    exact ⟨order, horder, rfl⟩
  | cons c commands ih =>
    obtain ⟨value, next, hvalue, ⟨order₀, stored, refusals, hsettles, -, -, rfl⟩, hrest⟩ := h
    obtain rfl := hbeside.entity c List.mem_cons_self
    obtain rfl : order = order₀ := Except.ok.inj (horder.symm.trans hsettles.reads)
    have hapart := hbeside.apart c List.mem_cons_self
    obtain ⟨order', horder', hat⟩ := ih hrest hbeside.of_cons
      (hsettles.order_leave (hbeside.op c List.mem_cons_self) hapart.fits)
    exact ⟨order', horder', hat.trans (hapart.at?_arrange (.inl rfl))⟩

/-- The attribute of an op at another position is the same after a row of commands. -/
theorem find?_eq (h : MoveInTurn commands first last) (hbeside : Beside commands id recipe)
    {op : Op} (hplace : Position.ofOp? op = some recipe.position) :
    last.store.find? id op.attributeName = first.store.find? id op.attributeName := by
  induction commands generalizing first with
  | nil =>
    obtain rfl : first = last := h
    rfl
  | cons c commands ih =>
    obtain ⟨value, next, hvalue, ⟨order, stored, refusals, -, -, -, rfl⟩, hrest⟩ := h
    obtain rfl := hbeside.entity c List.mem_cons_self
    have hapart := hbeside.apart c List.mem_cons_self
    have hcompanion : c.recipe.position.companion ≠ some recipe.position := by
      intro hpair
      have hinverse := Position.isInverse_of_companion hpair
      simp [hapart.upright, hapart.upright'] at hinverse
    rw [ih hrest hbeside.of_cons]
    exact find?_leave (Position.attributeName_ne (Recipe.ofOp?_opIn hapart.fits order) hplace
      hapart.ne hcompanion) op.attributeName_ne_orderName

/-- Each command of a row leaves its value in the attribute of its op, of which nothing else is
changed. -/
theorem find?_settled (h : MoveInTurn commands first last) (hop : ∀ c ∈ commands, c.op = none)
    (hentity : ∀ c ∈ commands, c.entity = id) (hplain : ∀ c ∈ commands, c.recipe.Plain)
    (hapart : commands.Pairwise fun c d => c.recipe.Apart d.recipe)
    (horder : first.store.order id = .ok order) :
    ∀ c ∈ commands, let op := c.recipe.opIn order
      ∃ value stored, c.newValue = some value ∧ c.converter.store op value = .ok stored ∧
        last.store.find? id op.attributeName =
          some { (first.store.find? id op.attributeName).getD (.ofType op.valueType) with
            fixed := some (.value stored) } := by
  -- On the row. What the first command leaves is spared by the others, and what the others find is
  -- what they would have found before it, as their ops have other names.
  induction commands generalizing first order with
  | nil => exact fun c hc => nomatch hc
  | cons c commands ih =>
    obtain ⟨value, next, hvalue, ⟨order₀, stored, refusals, hsettles, -, -, rfl⟩, hrest⟩ := h
    obtain ⟨hop', hops⟩ := List.forall_mem_cons.1 hop
    obtain ⟨rfl, hentities⟩ := List.forall_mem_cons.1 hentity
    obtain ⟨hplain', hplains⟩ := List.forall_mem_cons.1 hplain
    obtain ⟨hhead, htail⟩ := List.pairwise_cons.1 hapart
    obtain rfl : order = order₀ := Except.ok.inj (horder.symm.trans hsettles.reads)
    refine List.forall_mem_cons.2 ⟨?_, fun d hd => ?_⟩
    · refine ⟨value, stored, hvalue, hsettles.converts, ?_⟩
      have hbeside : Beside commands c.entity c.recipe :=
        ⟨hops, hentities, fun d hd => (hhead d hd).symm⟩
      rw [hrest.find?_eq hbeside (Recipe.ofOp?_opIn hplain'.fits order)]
      exact find?_leave_self (Store.order_eq_ok_iff.1 hsettles.reads).1 order stored
    · have hleft := ih hrest hops hentities hplains htail (hsettles.order_leave hop' hplain'.fits)
      have hd' := hleft d hd
      rw [(hhead d hd).opIn_arrange] at hd'
      have hsame : (c.leave first.store order stored).find? c.entity
          (d.recipe.opIn order).attributeName =
          first.store.find? c.entity (d.recipe.opIn order).attributeName :=
        find?_leave ((hhead d hd).attributeName_ne order order) (Op.attributeName_ne_orderName _)
      dsimp only at hd' ⊢
      rwa [hsame] at hd'

end MoveInTurn

/-- A new command that is executed after a row of others, at a position apart from theirs, joins the
row or fails. In any case it spares all but what it touches. -/
theorem Ready.execute_beside (h : c.Ready) (hentity : c.entity = id) {row : List Command}
    {first : Layer} (hrow : MoveInTurn row first s.layer)
    (hbeside : MoveInTurn.Beside row id c.recipe) (horder : first.store.order id = .ok order)
    (htouches : ∀ name ∈ c.touches order, name ∈ names)
    (hspares : before.Spares id names s.store) :
    (c.execute s).Meets
      (fun c' s' => c'.Spares before id names s' ∧ MoveInTurn (row ++ [c]) first s'.layer)
      fun _ s' => before.Spares id names s'.store := by
  obtain ⟨order', horder', hat⟩ := hrow.exists_order hbeside horder
  rw [← touches_congr hat] at htouches
  have hspared := h.spares hentity horder' htouches hspares
  refine ⟨fun hok => ⟨hspared, ?_⟩, fun _ _ => hspared.store⟩
  obtain ⟨value, hvalue, hmove⟩ := h.execute_iff.1 ⟨hok, rfl⟩
  exact hrow.append ⟨value, _, hvalue, hmove, rfl⟩

end Command

/-! ## Matrix commands -/

namespace MatrixCommand

variable {m : MatrixCommand} {s : Session} {order : OpOrder} {names : List String}

/-- Executing a new matrix command moves the layer part by part, or fails. In any case it spares all
but what its parts touch. -/
theorem Ready.execute_spares (h : m.Ready) (hplaced : m.Placed)
    (hapart : (AnyCommand.matrix m).parts.Pairwise fun c d => c.recipe.Apart d.recipe)
    (horder : s.store.order m.entity = .ok order)
    (htouches : ∀ c ∈ (AnyCommand.matrix m).parts, ∀ name ∈ c.touches order, name ∈ names) :
    (m.execute s).Meets
      (fun _ s' => s.store.Spares m.entity names s'.store ∧
        Command.MoveInTurn (AnyCommand.matrix m).parts s.layer s'.layer)
      fun _ s' => s.store.Spares m.entity names s'.store := by
  obtain ⟨touchesT, touchesR, touchesS⟩ : _ ∧ _ ∧ _ := by simpa [AnyCommand.parts] using htouches
  obtain ⟨⟨apartTR, apartTS⟩, apartRS⟩ : (_ ∧ _) ∧ _ := by simpa [AnyCommand.parts] using hapart
  refine .guarded (.andThen
    (P := fun m₂ s₂ => m₂.scale = m.scale ∧ m₂.translate.Spares s.store m.entity names s₂ ∧
      m₂.rotate.Spares s.store m.entity names s₂ ∧
      Command.MoveInTurn [m.translate, m.rotate] s.layer s₂.layer)
    (.andThen
      (P := fun m₁ s₁ => m₁.rotate = m.rotate ∧ m₁.scale = m.scale ∧
        m₁.translate.Spares s.store m.entity names s₁ ∧
        Command.MoveInTurn [m.translate] s.layer s₁.layer) ?translate ?rotate) ?scale)
  case translate =>
    have hrow : Command.MoveInTurn [] s.layer (s.signal .hold).layer := rfl
    refine onPart_meets .translate ((h.translate.execute_beside hplaced.translate.entity hrow
      .nil horder touchesT (.refl s.store)).mono ?_ ?_)
    · exact fun c s' hc => ⟨rfl, rfl, hc⟩
    · exact fun c s' hc => hc
  case rotate =>
    rintro m₁ s₁ ⟨hrotate, hscale, htranslate, hrow⟩
    have hpart : m₁.part .rotate = m.rotate := hrotate
    have hbeside : Command.MoveInTurn.Beside [m.translate] m.entity m.rotate.recipe :=
      ⟨by simpa using h.translate.op, by simpa using hplaced.translate.entity,
        by simpa using apartTR⟩
    refine .orElse (E := fun m₂ s₂ => m₂.translate.Spares s.store m.entity names s₂)
      (onPart_meets .rotate ?_) ?_
    · rw [hpart]
      refine (h.rotate.execute_beside hplaced.rotate.entity hrow hbeside horder touchesR
        htranslate.store).mono ?_ ?_
      · exact fun c s' hc => ⟨hscale, htranslate.move hc.1.store, hc⟩
      · exact fun c s' hc => htranslate.move hc
    · exact fun m₂ s₂ hm => .intro hm.undo.store
  case scale =>
    rintro m₂ s₂ ⟨hscale, htranslate, hrotate, hrow⟩
    have hpart : m₂.part .scale = m.scale := hscale
    have hbeside : Command.MoveInTurn.Beside [m.translate, m.rotate] m.entity m.scale.recipe :=
      ⟨by simpa using ⟨h.translate.op, h.rotate.op⟩,
        by simpa using ⟨hplaced.translate.entity, hplaced.rotate.entity⟩,
        by simpa using ⟨apartTS, apartRS⟩⟩
    refine .orElse (E := fun m₃ s₃ => m₃.translate.Spares s.store m.entity names s₃ ∧
        m₃.rotate.Spares s.store m.entity names s₃) (onPart_meets .scale ?_) ?_
    · rw [hpart]
      refine (h.scale.execute_beside hplaced.scale.entity hrow hbeside horder touchesS
        htranslate.store).mono ?_ ?_
      · exact fun c s' hc => ⟨hc.1.store, hc.2⟩
      · exact fun c s' hc => ⟨htranslate.move hc, hrotate.move hc⟩
    -- Undoing the rotation moves the translation on, whether it succeeds or not.
    · rintro m₃ s₃ ⟨htranslate₃, hrotate₃⟩
      have hundo : (rotating Command.undo m₃ s₃).Meets
          (fun m₄ s₄ => m₄.translate.Spares s.store m.entity names s₄)
          fun _ s' => s.store.Spares m.entity names s'.store :=
        onPart_meets .rotate ((Call.Meets.intro
          (P := fun _ s' => s.store.Spares m.entity names s'.store) hrotate₃.undo.store).mono
            (fun _ _ hs => htranslate₃.move hs) fun _ _ hs => hs)
      exact .andThen hundo fun m₄ s₄ hm => .intro hm.undo.store

end MatrixCommand

/-! ## Commands of either kind -/

/-- Executing a new command moves the layer part by part, or fails. In any case it spares all but
what its parts touch. -/
theorem AnyCommand.Ready.execute_spares {command : AnyCommand} {s : Session} {order : OpOrder}
    {names : List String} (h : command.Ready) (hplaced : command.Placed)
    (hapart : command.parts.Pairwise fun c d => c.recipe.Apart d.recipe)
    (horder : s.store.order command.entity = .ok order)
    (htouches : ∀ c ∈ command.parts, ∀ name ∈ c.touches order, name ∈ names) :
    (command.execute s).Meets
      (fun _ s' => s.store.Spares command.entity names s'.store ∧
        Command.MoveInTurn command.parts s.layer s'.layer)
      fun _ s' => s.store.Spares command.entity names s'.store := by
  refine call_meets ?_ ?_
  · rintro c rfl
    have hrow : Command.MoveInTurn [] s.layer s.layer := rfl
    exact (Command.Ready.execute_beside h rfl hrow .nil horder
      (htouches c List.mem_cons_self) (.refl s.store)).mono
      (fun _ _ hc => ⟨hc.1.store, hc.2⟩) fun _ _ hc => hc
  · rintro m rfl
    exact MatrixCommand.Ready.execute_spares h hplaced hapart horder htouches

end TransformStack
