import TransformStack.Proofs.Command.Sparing
import TransformStack.Proofs.Stack.Reading

/-!
# Attributes that may not be edited

A view offers a command if the attribute that it looks at may be edited: that of the op at the
position, or the order where it lacks such an op. Executed at once, an offered command leaves every
attribute alone that may not be edited, with one exception. An attribute can be there while its op
is not in the order. The view does not look at such an attribute, but the command adopts it for the
op that it adds, and writes to it even if it is locked.
-/

namespace TransformStack

/-! ## What bars an edit -/

namespace Store

variable {s : Store} {id : EntityId} {name : String} {bar : EditBar}

/-- A store that bars no edit is not read only. -/
theorem readOnly_of_unbarred (h : s.editBar? id name = .ok none) : s.readOnly = false := by
  cases hreadOnly : s.readOnly with
  | false => rfl
  | true => simp [editBar?, targetBar?, hreadOnly] at h

/-- In a store that is open for writing, only an attribute that is there can be barred. -/
theorem exists_of_barred (hopen : s.readOnly = false) (h : s.editBar? id name = .ok (some bar)) :
    ∃ a, s.find? id name = some a := by
  cases hfind : s.find? id name with
  | some a => exact ⟨a, rfl⟩
  | none =>
    rw [editBar?, record?_eq_none_iff.2 hfind] at h
    simp [targetBar?, hopen, Functor.map, Except.map] at h

end Store

namespace StackView

variable {view : StackView} {s : Store} {position : Position} {value : Vector3} {c : Command}

/-- A view looks at the op at the position, and at the order where there is none. -/
theorem editBar?_eq_ok_iff {bar : Option EditBar} :
    view.editBar? s position = .ok bar ↔ ∃ order, s.order view.entity = .ok order ∧
      s.editBar? view.entity
        (((order.at? position).map Op.attributeName).getD Op.orderName) = .ok bar := by
  rw [editBar?, bind_eq_ok_iff]
  constructor
  · rintro ⟨op, hop, hbar⟩
    obtain ⟨order, horder, rfl⟩ := map_eq_ok_iff.1 hop
    refine ⟨order, mapError_eq_ok_iff.1 horder, ?_⟩
    cases hat : order.at? position <;> rw [hat] at hbar <;> exact mapError_eq_ok_iff.1 hbar
  · rintro ⟨order, horder, hbar⟩
    refine ⟨order.at? position, op?_of_order horder, ?_⟩
    cases hat : order.at? position <;> rw [hat] at hbar <;> exact mapError_eq_ok_iff.2 hbar

end StackView

/-! ## Commands that were just offered -/

namespace Command

/-- The order lacks the op of the command, and the attribute is that of the op which the command
will add. -/
structure Adopts (c : Command) (s : Store) (id : EntityId) (name : String) : Prop where
  entity : c.entity = id
  lacking : ∃ order, s.order id = .ok order ∧ order.at? c.recipe.position = none
  name : (c.recipe.op c.recipe.position.isInverse).attributeName = name

end Command

namespace StackView

variable {view : StackView} {s : Store} {position : Position} {value : Vector3} {c : Command}

/-- An offered command touches nothing that is barred, unless it adopts it. -/
theorem adopts_of_barred (h : view.offerAt s position value = .ok (.ok c)) {order : OpOrder}
    (horder : s.order view.entity = .ok order) {name : String} (hname : name ∈ c.touches order)
    {bar : EditBar} (hbar : s.editBar? view.entity name = .ok (some bar)) :
    c.Adopts s view.entity name := by
  obtain ⟨-, hat⟩ := ready_of_offerAt h
  obtain ⟨order', horder', hfree⟩ := editBar?_eq_ok_iff.1 (offered_of_offerAt h).unbarred
  obtain rfl : order = order' := Except.ok.inj (horder.symm.trans horder')
  rw [← hat.recipe] at hfree
  have hne {name' : String} (hfree : s.editBar? view.entity name' = .ok none) : name ≠ name' := by
    rintro rfl
    cases hbar.symm.trans hfree
  unfold Command.touches Recipe.opIn at hname
  cases hfound : order.at? c.recipe.position with
  | some op =>
    simp only [hfound, Option.map_some, Option.getD_some] at hfree hname
    exact absurd (by simpa using hname) (hne hfree)
  | none =>
    simp only [hfound, Option.map_none, Option.getD_none] at hfree hname
    rcases List.mem_cons.1 hname with rfl | hname
    · exact ⟨hat.entity, ⟨order, horder, hfound⟩, rfl⟩
    · exact absurd (by simpa using hname) (hne hfree)

end StackView

namespace AnyCommand

variable {view : StackView} {s : Store} {command : AnyCommand} {session : Session}

/-- The commands that a view offers on a store. -/
inductive OfferedBy (view : StackView) (s : Store) : AnyCommand → Prop where
  | single {position : Position} {value : Vector3} {c : Command}
      (h : view.offerAt s position value = .ok (.ok c)) : OfferedBy view s (single c)
  | matrix {matrix : Matrix4} {m : MatrixCommand}
      (h : view.offerMatrix s matrix = .ok (.ok m)) : OfferedBy view s (.matrix m)

namespace OfferedBy

/-- A command that is offered was never called. -/
theorem fresh (h : command.OfferedBy view s) : command.Fresh := by
  cases h with
  | single h => exact .offered h
  | matrix h => exact .offeredMatrix h

theorem entity (h : command.OfferedBy view s) : command.entity = view.entity := by
  cases h with
  | single h => exact (StackView.ready_of_offerAt h).2.entity
  | matrix h => exact (StackView.parts_of_offerMatrix h).1

/-- Each part of an offered command is offered. -/
theorem offerAt (h : command.OfferedBy view s) :
    ∀ c ∈ command.parts, ∃ position value, view.offerAt s position value = .ok (.ok c) := by
  cases h with
  | single h => simpa [parts] using ⟨_, _, h⟩
  | matrix h =>
    obtain ⟨-, htranslate, hrotate, hscale⟩ := StackView.parts_of_offerMatrix h
    simpa [parts] using ⟨⟨_, _, htranslate⟩, ⟨_, _, hrotate⟩, ⟨_, _, hscale⟩⟩

theorem plain (h : command.OfferedBy view s) : ∀ c ∈ command.parts, c.recipe.Plain := by
  intro c hc
  obtain ⟨position, value, hoffer⟩ := h.offerAt c hc
  exact StackView.plain_of_offerAt hoffer

/-- The parts of an offered command make ops at different positions. -/
theorem apart (h : command.OfferedBy view s) :
    command.parts.Pairwise fun c d => c.recipe.Apart d.recipe := by
  have hpositions : command.parts.Pairwise fun c d => c.recipe.position ≠ d.recipe.position := by
    cases h with
    | single h => exact List.pairwise_singleton _ _
    | matrix h =>
      obtain ⟨-, hplaced⟩ := StackView.ready_of_offerMatrix h
      simp [parts, hplaced.translate.recipe, hplaced.rotate.recipe, hplaced.scale.recipe]
  refine hpositions.imp_of_mem fun hc hd hne => ?_
  have hplain := h.plain _ hc
  have hplain' := h.plain _ hd
  exact ⟨hplain.fits, hplain.upright, hplain'.fits, hplain'.upright, hne⟩

/-- A view that offers a command could read the order, and the store is open for writing. -/
theorem readable (h : command.OfferedBy view s) :
    ∃ order, s.order view.entity = .ok order ∧ s.readOnly = false := by
  have hfirst : ∃ c, c ∈ command.parts := by
    cases command <;> exact ⟨_, List.mem_cons_self⟩
  obtain ⟨c, hc⟩ := hfirst
  obtain ⟨position, value, hoffer⟩ := h.offerAt c hc
  obtain ⟨order, horder, hfree⟩ :=
    StackView.editBar?_eq_ok_iff.1 (StackView.offered_of_offerAt hoffer).unbarred
  exact ⟨order, horder, Store.readOnly_of_unbarred hfree⟩

/-- Executed at once, an offered command moves the layer part by part, or fails. In any case it
spares all but what its parts touch. -/
theorem execute_spares (h : command.OfferedBy view session.store) {order : OpOrder}
    (horder : session.store.order view.entity = .ok order) :
    let names := command.parts.flatMap (·.touches order)
    (command.execute session).Meets
      (fun _ s' => session.store.Spares view.entity names s'.store ∧
        Command.MoveInTurn command.parts session.layer s'.layer)
      fun _ s' => session.store.Spares view.entity names s'.store := by
  have htouches : ∀ c ∈ command.parts, ∀ name ∈ c.touches order,
      name ∈ command.parts.flatMap (·.touches order) :=
    fun c hc name hname => List.mem_flatMap.2 ⟨c, hc, hname⟩
  rw [← h.entity] at horder ⊢
  exact h.fresh.ready.execute_spares h.fresh.placed h.apart horder htouches

/-- Where an offered command succeeds, each part has left its value in the attribute of its op. -/
theorem find?_settled (h : command.OfferedBy view session.store) {order : OpOrder}
    (horder : session.store.order view.entity = .ok order)
    (hok : (command.execute session).outcome = .ok ()) :
    ∀ c ∈ command.parts, let op := c.recipe.opIn order
      ∃ value stored, c.newValue = some value ∧ c.converter.store op value = .ok stored ∧
        (command.execute session).session.store.find? view.entity op.attributeName =
          some { (session.store.find? view.entity op.attributeName).getD (.ofType op.valueType) with
            fixed := some (.value stored) } := by
  have hready : ∀ c ∈ command.parts, c.op = none ∧ c.entity = view.entity := by
    intro c hc
    obtain ⟨position, value, hoffer⟩ := h.offerAt c hc
    obtain ⟨hready, hat⟩ := StackView.ready_of_offerAt hoffer
    exact ⟨hready.op, hat.entity⟩
  have hmoves := ((h.execute_spares horder).ok hok).2
  exact hmoves.find?_settled (fun c hc => (hready c hc).1) (fun c hc => (hready c hc).2) h.plain
    h.apart horder

end OfferedBy

/-- Executed at once, an offered command leaves every attribute alone that may not be edited, unless
one of its parts adopts it. Such an attribute gets the value of the part where the command
succeeds. -/
theorem execute_respects_locks (hoffered : command.OfferedBy view s) (hstore : session.store = s)
    {id : EntityId} {name : String} {bar : EditBar} (hbar : s.editBar? id name = .ok (some bar)) :
    let call := command.execute session
    let after := call.session.store
    ((∀ c ∈ command.parts, ¬c.Adopts s id name) → after.find? id name = s.find? id name) ∧
    ∀ c ∈ command.parts, c.Adopts s id name →
      (call.outcome = .ok () → ∃ a value stored, s.find? id name = some a ∧
        c.newValue = some value ∧
        c.converter.store (c.recipe.op c.recipe.position.isInverse) value = .ok stored ∧
        after.find? id name = some { a with fixed := some (.value stored) }) ∧
      (s.WellTyped → ∀ e, call.outcome = .error e → after = s) := by
  intro call after
  subst hstore
  obtain ⟨order, horder, hopen⟩ := hoffered.readable
  obtain ⟨a, ha⟩ := Store.exists_of_barred hopen hbar
  have hexecute := hoffered.execute_spares horder
  refine ⟨fun hnone => ?_, fun c hc hadopts => ⟨fun hok => ?_, fun htyped e herror => ?_⟩⟩
  · -- What the command could change is spared unless a part adopts it, for the view asked for
    -- locks.
    have hspares := (hexecute.mono (fun _ _ hs => hs.1) fun _ _ hs => hs).leaves
    rw [ha]
    refine hspares id name a ha ?_
    rintro ⟨rfl, hname⟩
    obtain ⟨c, hc, hname⟩ := List.mem_flatMap.1 hname
    obtain ⟨position, value, hoffer⟩ := hoffered.offerAt c hc
    exact hnone c hc (StackView.adopts_of_barred hoffer horder hname hbar)
  · obtain ⟨rfl, ⟨order', horder', hat⟩, rfl⟩ := hadopts
    obtain ⟨position, value, hoffer⟩ := hoffered.offerAt c hc
    rw [(StackView.ready_of_offerAt hoffer).2.entity] at horder' ha ⊢
    obtain rfl : order = order' := Except.ok.inj (horder.symm.trans horder')
    have hop : c.recipe.opIn order = c.recipe.op c.recipe.position.isInverse := by
      rw [Recipe.opIn, hat, Option.getD_none]
    obtain ⟨value, stored, hvalue, hconverts, hfind⟩ := hoffered.find?_settled horder hok c hc
    rw [hop] at hconverts hfind
    rw [ha, Option.getD_some] at hfind
    exact ⟨a, value, stored, ha, hvalue, hconverts, hfind⟩
  · exact (hoffered.fresh.ready.execute htyped).error e herror

end AnyCommand

/-- A store whose entity has locked attributes for a translation and a scale, but no ops. -/
def Store.detached : Store :=
  let lock (s : Store) (name : String) : Store :=
    s.alter default name (·.map ({ · with locked := true }))
  let declared := (Store.bare.declare default "xformOp:translate" .double3).declare default
    "xformOp:scale" .float3
  lock (lock declared "xformOp:translate") "xformOp:scale"

namespace AnyCommand

/-- The store with the detached attribute offers a translation. -/
theorem offeredBy_detached :
    (single translation).OfferedBy ⟨default, .default⟩ .detached := by
  have h : StackView.offerAt ⟨default, .default⟩ .detached .translate .one =
      .ok (.ok translation) :=
    rfl
  exact .single h

/-- A translation leaves the locked scale alone, and is written to the locked attribute that it
adopts. -/
theorem execute_respects_locks_on_detached :
    let session : Session := { layer := { store := .detached } }
    let after := ((single translation).execute session).session.store
    after.find? default "xformOp:scale" = Store.detached.find? default "xformOp:scale" ∧
      after.authored? default "xformOp:translate" .default =
        .ok (some (Value.ofVector .one .double)) := by
  intro session after
  have hstore : session.store = Store.detached := rfl
  have hbarT : Store.detached.editBar? default "xformOp:translate" =
      .ok (some (.locked "xformOp:translate")) := by decide +kernel
  have hbarS : Store.detached.editBar? default "xformOp:scale" =
      .ok (some (.locked "xformOp:scale")) := by decide +kernel
  obtain ⟨hscale, -⟩ := execute_respects_locks offeredBy_detached hstore hbarS
  obtain ⟨-, htranslate⟩ := execute_respects_locks offeredBy_detached hstore hbarT
  have hadopts : translation.Adopts Store.detached default "xformOp:translate" :=
    ⟨rfl, ⟨⟨[], false⟩, by decide +kernel, rfl⟩, by decide⟩
  have hok : ((single translation).execute session).outcome = .ok () := by decide +kernel
  obtain ⟨a, value, stored, -, hvalue, hconverts, hfind⟩ :=
    (htranslate translation List.mem_cons_self hadopts).1 hok
  obtain rfl : Vector3.one = value := Option.some.inj hvalue
  obtain rfl : Value.ofVector .one .double = stored := Except.ok.inj hconverts
  refine ⟨hscale fun c hc hadopts => ?_, ?_⟩
  · obtain rfl := List.mem_singleton.1 hc
    exact absurd hadopts.name (by decide)
  · rw [Store.authored?, hfind]
    rfl

/-- A command that is offered and executed at once changes a locked attribute. -/
theorem not_locks_respected :
    let session : Session := { layer := { store := .detached } }
    let after := ((single translation).execute session).session.store
    (single translation).OfferedBy ⟨default, .default⟩ .detached ∧
      Store.detached.editBar? default "xformOp:translate" =
        .ok (some (.locked "xformOp:translate")) ∧
      Store.detached.authored? default "xformOp:translate" .default = .ok none ∧
      after.authored? default "xformOp:translate" .default =
        .ok (some (Value.ofVector .one .double)) := by
  intro session after
  exact ⟨offeredBy_detached, by decide +kernel, by decide +kernel, by decide +kernel⟩

end AnyCommand

end TransformStack
