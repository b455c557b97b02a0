import TransformStack.Proofs.Command.Effects
import TransformStack.Proofs.Edit.Forming
import TransformStack.Proofs.Stack.Allowed

/-!
# Commands on well formed entities

Executing a new command on a well formed entity leaves the entity well formed. What is stored has
the type of the op, whether the op was there or is made, so that nothing can go wrong but the edits
themselves. A matrix command goes wrong as its parts do: where a part fails, those before it are
undone, and undoing does not fail.
-/

namespace TransformStack

/-! ## Calls that fail for a reason -/

namespace Call

variable {κ : Type} {P Q E E' : κ → Session → Prop} {F F' : EditError → Prop} {call : Call κ}
  {next : κ → Session → Call κ}

/-- A call leaves one condition where it succeeds and another where it fails, and it fails for a
reason. -/
structure Explains (call : Call κ) (P E : κ → Session → Prop) (F : EditError → Prop) : Prop where
  meets : call.Meets P E
  reason : ∀ e, call.outcome = .error e → F e

namespace Explains

/-- What is known of a call may be weakened, its reasons to fail included. -/
theorem mono (h : call.Explains P E F) (hP : ∀ c s, P c s → Q c s) (hE : ∀ c s, E c s → E' c s)
    (hF : ∀ e, F e → F' e) : call.Explains Q E' F' :=
  ⟨h.meets.mono hP hE, fun e he => hF e (h.reason e he)⟩

/-- A call that cannot fail needs no reason. -/
theorem of_meets (h : call.Meets P fun _ _ => False) : call.Explains P E F :=
  ⟨h.mono (fun _ _ hP => hP) fun _ _ hE => hE.elim,
    fun e herror => (h.error e herror).elim⟩

/-- A call and the one after it fail for no other reasons than each of them. -/
theorem andThen (h : call.Explains P E F) (hnext : ∀ c s, P c s → (next c s).Explains Q E F) :
    (call.andThen next).Explains Q E F := by
  refine ⟨h.meets.andThen fun c s hP => (hnext c s hP).meets, fun e herror => ?_⟩
  unfold Call.andThen at herror
  split at herror
  · next houtcome => exact (hnext _ _ (h.meets.ok houtcome)).reason e herror
  · exact h.reason e herror

/-- Where the call fails and is made up for, its own reason counts. -/
theorem orElse (h : call.Explains P E F) (hnext : ∀ c s, E c s → (next c s).Explains E' E' F) :
    (call.orElse next).Explains P E' F := by
  refine ⟨h.meets.orElse fun c s hE => (hnext c s hE).meets, fun e herror => ?_⟩
  unfold Call.orElse at herror
  split at herror
  · next houtcome => cases houtcome.symm.trans herror
  · next e' houtcome =>
    dsimp only at herror
    split at herror
    · cases herror
      exact h.reason e houtcome
    · exact (hnext _ _ (h.meets.error e' houtcome)).reason e herror

/-- Holding notices back gives a call no other reasons to fail. -/
theorem guarded {act : κ → Session → Call κ} {c : κ} {s : Session}
    (h : (act c (s.signal .hold)).Explains (fun c s => P c (s.signal .release))
      (fun c s => E c (s.signal .release)) F) : (Call.guarded act c s).Explains P E F :=
  ⟨.guarded h.meets, h.reason⟩

end Explains

end Call

namespace MatrixCommand

variable {P E : MatrixCommand → Session → Prop} {F : EditError → Prop}
  {act : Command → Session → Call Command} {m : MatrixCommand} {s : Session}

/-- A call on a part fails for no other reasons than the call on the single command. -/
theorem onPart_explains (p : Part) (h : (act (m.part p) s).Explains
      (fun c s => P (m.withPart c p) s) (fun c s => E (m.withPart c p) s) F) :
    (onPart act p m s).Explains P E F := by
  refine ⟨onPart_meets p h.meets, ?_⟩
  rw [onPart_eq]
  exact h.reason

end MatrixCommand

/-! ## Commands as they are offered -/

/-- The name of the attribute that the ops of a recipe apply. -/
def Recipe.attributeName (recipe : Recipe) : String := (recipe.op false).attributeName

namespace Command

/-- The recipe of a command is plain, and the command stores what the ops at its position hold. -/
structure Suited (c : Command) : Prop where
  plain : c.recipe.Plain
  converter : c.converter = c.recipe.position.converter
  shear : c.recipe.position ≠ .shear

/-- A command is suited if one that edits the same op in the same way is. -/
theorem Suited.congr {c c' : Command} (h : c.Suited) (hbare : c'.bare = c.bare) : c'.Suited := by
  obtain ⟨-, hrecipe, hconverter⟩ := bare_eq_iff.1 hbare
  exact ⟨hrecipe ▸ h.plain, by rw [hrecipe, hconverter, h.converter], hrecipe ▸ h.shear⟩

end Command

/-- Every offered command is suited. -/
theorem StackView.suited_of_offerAt {view : StackView} {s : Store} {position : Position}
    {value : Vector3} {c : Command} (h : view.offerAt s position value = .ok (.ok c)) :
    c.Suited := by
  have hoffered := offered_of_offerAt h
  have hposition := (ready_of_offerAt h).2.recipe
  refine ⟨hoffered.plain, ?_, ?_⟩ <;> rw [hposition]
  · exact hoffered.converter
  · exact ne_shear_of_offerAt h

/-- Giving a matrix command another matrix leaves what its parts edit, and how. -/
theorem MatrixCommand.bare_set (m : MatrixCommand) (matrix : Matrix4) (s : Session) :
    let m' := (m.set matrix s).command
    m'.translate.bare = m.translate.bare ∧ m'.rotate.bare = m.rotate.bare ∧
      m'.scale.bare = m.scale.bare := by
  let P (m' : MatrixCommand) (_ : Session) : Prop :=
    m'.translate.bare = m.translate.bare ∧ m'.rotate.bare = m.rotate.bare ∧
      m'.scale.bare = m.scale.bare
  have hset (c : Command) (v : Vector3) (s : Session) : (c.set v s).command.bare = c.bare :=
    c.bare_call s (.set v)
  have hmeets : (m.set matrix s).Meets P P := by
    refine .andThen (P := P) (.andThen (P := P) (.intro ?_) fun m' s' h => .intro ?_)
      fun m' s' h => .intro ?_
    · exact ⟨hset _ _ _, rfl, rfl⟩
    · exact ⟨h.1, (hset _ _ _).trans h.2.1, h.2.2⟩
    · exact ⟨h.1, h.2.1, (hset _ _ _).trans h.2.2⟩
  exact hmeets.leaves

/-- The parts of a command that was not executed yet are suited. -/
theorem AnyCommand.Fresh.suited {command : AnyCommand} (h : command.Fresh) :
    ∀ c ∈ command.parts, c.Suited := by
  induction h with
  | offered h => simpa [parts] using StackView.suited_of_offerAt h
  | offeredMatrix h =>
    intro c hc
    obtain ⟨position, value, hoffer⟩ := (OfferedBy.matrix h).offerAt c hc
    exact StackView.suited_of_offerAt hoffer
  | @set c value s h ih =>
    simp only [parts, List.forall_mem_singleton] at ih ⊢
    exact ih.congr (c.bare_call s (.set value))
  | @setValue c value s h ih =>
    simp only [parts, List.forall_mem_singleton] at ih ⊢
    exact ih.congr (c.bare_call s (.setValue value))
  | @setMatrix m matrix s h ih =>
    obtain ⟨htranslate, hrotate, hscale⟩ := m.bare_set matrix s
    simp only [parts, List.forall_mem_cons] at ih ⊢
    exact ⟨ih.1.congr htranslate, ih.2.1.congr hrotate, ih.2.2.1.congr hscale, ih.2.2.2⟩

/-! ## Executing -/

namespace Command

open Store

variable {c : Command} {value : Vector3} {s : Session} {origin : Store}

/-- What cannot be stored for an op at a position are angles, if the op is a quaternion. -/
theorem store_error {p : Position} {op : Op} (hplace : Position.ofOp? op = some p) {e : EditError}
    (h : p.converter.store op value = .error e) : e = .data (.unsupportedRotation .orient) := by
  cases hconverter : p.converter with
  | vector =>
    rw [hconverter] at h
    cases h
  | rotation =>
    rw [hconverter] at h
    rcases Position.formOf_of_ofOp? hplace hconverter with ⟨form, hform⟩ | horient
    · simp [Converter.store, hform, EditError.ofData, Except.mapError, Except.map] at h
    · simpa [Converter.store, horient, Rotation.formOf, EditError.ofData, Except.mapError,
        Functor.map, Except.map, eq_comm] using h

/-- Lifting an answer fails for the reasons of the answer, and writes nothing. -/
theorem triple_liftExcept {α : Type} {answer : Except EditError α} {P : Transaction → Prop}
    {F : EditError → Prop} (h : ∀ e, answer = .error e → F e) :
    Steps.Triple P (write.liftExcept answer) (fun a tx => answer = .ok a ∧ P tx) F := by
  refine fun tx htx => ⟨fun a tx' hok => ?_, fun e tx' herror => ?_⟩
  · obtain ⟨hanswer, rfl⟩ := liftExcept_on_iff.1 hok
    exact ⟨hanswer, htx⟩
  · exact h e (liftExcept_on_iff.1 herror).1

/-- A new command that writes its value keeps the store in form. -/
theorem triple_write (hsuited : c.Suited) (hop : c.op = none) :
    (c.write value).Triple (fun tx => Formed origin c.entity tx.store)
      (fun _ tx => Formed origin c.entity tx.store)
      (origin.Excuses c.entity [c.recipe.attributeName]) := by
  have htarget : c.target = Arrangement.ensure c.entity c.recipe := by
    rw [target, hop]
  have hname : ∀ inverse, (c.recipe.op inverse).attributeName ∈ [c.recipe.attributeName] :=
    fun _ => List.mem_singleton_self _
  rw [write_eq, htarget]
  refine .bind ((Arrangement.triple_ensure hsuited.plain hname).pre
    fun tx h => ⟨h, List.forall_mem_nil _⟩) fun op => .lift fun hplace => ?_
  refine .bind (triple_liftExcept fun e herror => ?_) fun stored => .lift fun hstored => ?_
  · rw [hsuited.converter] at herror
    rw [store_error hplace herror]
    exact .quaternion
  rw [hsuited.converter] at hstored
  have htype := Position.type?_of_store hplace hsuited.shear hstored
  refine .bind (.tell_require (Q := fun tx => Formed origin c.entity tx.store) ?_ ?_ (.refused _))
    fun _ => .pure fun tx h => h
  · intro tx tx' h hset
    obtain ⟨previous, s, -, hs, rfl⟩ := Transaction.setValue_eq_ok_iff.1 hset
    exact h.formed.setValue hs
  · intro tx e h herror
    obtain ⟨answer, hanswer⟩ := Transaction.exists_setValue h.formed
      (h.carries op (List.mem_singleton_self op)) htype
    cases herror.symm.trans hanswer

/-- Executing a new command keeps the store in form. Where it fails, the store is as it was. -/
theorem Ready.explains (h : c.Ready) (hsuited : c.Suited)
    (hformed : Formed origin c.entity s.store) :
    (c.execute s).Explains
      (fun c' s' => c'.Applied s.store s'.store ∧ Formed origin c.entity s'.store)
      (fun c' s' => c' = c ∧ s'.store = s.store)
      (origin.Excuses c.entity [c.recipe.attributeName]) := by
  have hmeets := h.execute hformed.typed
  obtain ⟨value, hvalue⟩ := h.value
  have htriple : (c.write value).Triple _ _ (origin.Excuses c.entity [c.recipe.attributeName]) :=
    triple_write hsuited h.op
  have hwrite := htriple (.start (s.signal .hold)) hformed
  rcases apply_cases c value s with ⟨op, tx, hrun, happly⟩ | ⟨e, tx, hrun, happly⟩
  · rw [h.execute_of_ok hvalue (by rw [happly]), happly] at hmeets ⊢
    refine ⟨⟨fun hok => ⟨hmeets.ok hok, hwrite.1 op tx hrun⟩, hmeets.error⟩, ?_⟩
    exact fun e herror => nomatch herror
  · rw [h.execute_of_error hvalue (by rw [happly]), happly] at hmeets ⊢
    refine ⟨.of_error rfl (hmeets.error e rfl), ?_⟩
    rintro _ ⟨⟩
    exact hwrite.2 e tx hrun

end Command

/-! ## Executing a matrix command -/

namespace MatrixCommand

open Store

variable {m : MatrixCommand} {s : Session} {origin : Store} {names : List String}

/-- A matrix command keeps the store in form if its parts do, and fails for no other reasons than
they do: what was executed before a part that fails can be undone. -/
theorem execute_explains
    (hparts : ∀ c ∈ (AnyCommand.matrix m).parts, ∀ s : Session, Formed origin m.entity s.store →
      (c.execute s).Explains
        (fun c' s' => c'.Applied s.store s'.store ∧ Formed origin m.entity s'.store)
        (fun c' s' => c' = c ∧ s'.store = s.store) (origin.Excuses m.entity names))
    (hformed : Formed origin m.entity s.store) :
    (m.execute s).Explains (fun _ s' => Formed origin m.entity s'.store) (fun _ _ => True)
      (origin.Excuses m.entity names) := by
  simp only [AnyCommand.parts, List.forall_mem_cons] at hparts
  obtain ⟨htranslate, hrotate, hscale, -⟩ := hparts
  refine .guarded (.andThen
    (P := fun m₂ s₂ => ∃ mid, m₂.translate.Applied s.store mid ∧
      m₂.rotate.Applied mid s₂.store ∧ m₂.scale = m.scale ∧ Formed origin m.entity s₂.store)
    (.andThen
      (P := fun m₁ s₁ => m₁.translate.Applied s.store s₁.store ∧ m₁.rotate = m.rotate ∧
        m₁.scale = m.scale ∧ Formed origin m.entity s₁.store) ?translate ?rotate) ?scale)
  case translate =>
    refine onPart_explains .translate
      ((htranslate (s.signal .hold) hformed).mono ?_ ?_ fun _ he => he)
    · exact fun c s' hc => ⟨hc.1, rfl, rfl, hc.2⟩
    · exact fun _ _ _ => trivial
  case rotate =>
    rintro m₁ s₁ ⟨happlied, hsame, hscale₁, hformed₁⟩
    have hpart : m₁.part .rotate = m.rotate := hsame
    refine .orElse (E := fun m₂ s₂ => m₂.translate = m₁.translate ∧ s₂.store = s₁.store)
      (onPart_explains .rotate ?_) ?_
    · rw [hpart]
      refine (hrotate s₁ hformed₁).mono ?_ ?_ fun _ he => he
      · exact fun c s' hc => ⟨s₁.store, happlied, hc.1, hscale₁, hc.2⟩
      · exact fun c s' hc => ⟨rfl, hc.2⟩
    · rintro m₂ s₂ ⟨htranslate₂, hstore⟩
      refine onPart_explains .translate (.of_meets ?_)
      exact ((htranslate₂ ▸ happlied).undo hstore).mono (fun _ _ _ => trivial) fun _ _ hc => hc
  case scale =>
    rintro m₂ s₂ ⟨mid, happlied, happlied', hsame, hformed₂⟩
    have hpart : m₂.part .scale = m.scale := hsame
    refine .orElse (E := fun m₃ s₃ => m₃.translate = m₂.translate ∧ m₃.rotate = m₂.rotate ∧
        s₃.store = s₂.store) (onPart_explains .scale ?_) ?_
    · rw [hpart]
      refine (hscale s₂ hformed₂).mono ?_ ?_ fun _ he => he
      · exact fun c s' hc => hc.2
      · exact fun c s' hc => ⟨rfl, rfl, hc.2⟩
    -- The rotation is undone on the store that it made, and then the translation on its own.
    · rintro m₃ s₃ ⟨htranslate₃, hrotate₃, hstore⟩
      refine .andThen (P := fun m₄ s₄ => m₄.translate = m₂.translate ∧ s₄.store = mid)
        (onPart_explains .rotate (.of_meets ?_)) ?_
      · refine ((hrotate₃ ▸ happlied').undo hstore).mono ?_ fun _ _ hc => hc
        exact fun c s' hc => ⟨htranslate₃, Session.store_eq hc.2⟩
      · rintro m₄ s₄ ⟨htranslate₄, hstore₄⟩
        refine onPart_explains .translate (.of_meets ?_)
        exact ((htranslate₄ ▸ happlied).undo hstore₄).mono (fun _ _ _ => trivial) fun _ _ hc => hc

end MatrixCommand

/-! ## Commands of either kind -/

namespace AnyCommand

open Store

variable {command : AnyCommand} {s : Session}

/-- The names of the attributes that a command may add ops to. -/
def attributeNames (command : AnyCommand) : List String :=
  command.parts.map (·.recipe.attributeName)

/-- Executing a new command on a well formed entity keeps the store in form. It fails only if the
store refuses a write, if it meets a quaternion, or if the attribute of an op to be added has no
type. -/
theorem Fresh.explains (h : command.Fresh) (hformed : Formed s.store command.entity s.store) :
    (command.execute s).Explains (fun _ s' => Formed s.store command.entity s'.store)
      (fun _ _ => True) (s.store.Excuses command.entity command.attributeNames) := by
  have hready := h.ready
  have hplaced := h.placed
  have hsuited := h.suited
  cases command with
  | single c =>
    have hexplains := Command.Ready.explains hready (hsuited c List.mem_cons_self) hformed
    exact ⟨⟨fun hok => (hexplains.meets.ok hok).2, fun _ _ => trivial⟩, hexplains.reason⟩
  | matrix m =>
    have hparts : ∀ c ∈ (matrix m).parts, c.Ready ∧ c.entity = m.entity := by
      simp [parts, hready.translate, hready.rotate, hready.scale, hplaced.translate.entity,
        hplaced.rotate.entity, hplaced.scale.entity]
    have hexplains : (m.execute s).Explains (fun _ s' => Formed s.store m.entity s'.store)
        (fun _ _ => True) (s.store.Excuses m.entity (matrix m).attributeNames) := by
      refine MatrixCommand.execute_explains (fun c hc s' hformed' => ?_) hformed
      obtain ⟨hreadyC, hentity⟩ := hparts c hc
      rw [← hentity] at hformed' ⊢
      refine (hreadyC.explains (hsuited c hc) hformed').mono (fun _ _ hc' => hc')
        (fun _ _ hc' => hc') fun e he => he.mono (fun _ _ h => h) fun name hname => ?_
      rw [List.mem_singleton.1 hname]
      exact List.mem_map_of_mem hc
    exact ⟨⟨hexplains.meets.ok, hexplains.meets.error⟩, hexplains.reason⟩

end AnyCommand

end TransformStack
