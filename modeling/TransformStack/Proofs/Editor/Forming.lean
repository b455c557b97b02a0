import TransformStack.Proofs.Command.Forming
import TransformStack.Proofs.Editor.Restricting

/-!
# Well formed entities stay well formed

An entity that is well formed at first stays so, whatever new commands are executed, undone and
redone, on it and on others. So its readers go on answering, and of the calls on its commands none
fails over a type or a value, with one exception. An attribute that was left without its op may
declare a type that is none, and a new command that adds the op fails to read it.
-/

namespace TransformStack

namespace Store

variable {s origin : Store} {id : EntityId}

/-- An entity is well formed by its own attributes. -/
theorem wellFormed_only {keep : EntityId → Bool} (hid : keep id) :
    (s.only keep).WellFormed id ↔ s.WellFormed id := by
  have hcarries (op : Op) : (s.only keep).Carries id op ↔ s.Carries id op := by
    rw [Carries, Carries, find?_only hid]
  have hcarried : (s.only keep).Carried id ↔ s.Carried id := by
    simp only [Carried, order_only hid, hcarries]
  constructor
  · rintro ⟨hdeclared, hvalues, hops⟩
    simp only [find?_only hid] at hdeclared hvalues
    exact ⟨hdeclared, hvalues, hcarried.1 hops⟩
  · rintro ⟨hdeclared, hvalues, hops⟩
    refine ⟨?_, ?_, hcarried.2 hops⟩
    · simpa only [find?_only hid] using hdeclared
    · simpa only [find?_only hid] using hvalues

/-- Without the attributes of other entities the whole store is well typed. -/
theorem WellFormed.typed_only (h : s.WellFormed id) : (s.only (· = id)).WellTyped := by
  refine ⟨fun id' name a ha => ?_, fun id' a ha => ?_⟩ <;> by_cases hid : id' = id
  · subst hid
    rw [find?_only (by simp)] at ha
    exact h.values name a ha
  · rw [find?_only_of_not (by simpa using hid)] at ha
    cases ha
  · subst hid
    rw [find?_only (by simp)] at ha
    exact h.declared a ha
  · rw [find?_only_of_not (by simpa using hid)] at ha
    cases ha

/-- A well formed entity is in form on its own. -/
theorem WellFormed.formed (h : s.WellFormed id) :
    Formed (s.only (· = id)) id (s.only (· = id)) :=
  ⟨h.typed_only, ((wellFormed_only (by simp)).2 h).ops, fun _ _ hdamaged => hdamaged⟩

/-- An entity in form is well formed. -/
theorem Formed.wellFormed (h : Formed origin id s) : s.WellFormed id :=
  ⟨h.typed.orders id, h.typed.values id, h.carried⟩

end Store

/-! ## Executing a command -/

/-- Executing a new command leaves its entity well formed. It fails only if the store refuses a
write, if it meets a quaternion, or if the attribute of an op to be added has no type. -/
theorem AnyCommand.Fresh.execute_wellFormed {command : AnyCommand} {s : Session}
    (h : command.Fresh) (hformed : s.store.WellFormed command.entity) :
    ((command.execute s).outcome = .ok () →
      (command.execute s).session.store.WellFormed command.entity) ∧
    ∀ e, (command.execute s).outcome = .error e →
      s.store.Excuses command.entity command.attributeNames e := by
  let keep : EntityId → Bool := (· = command.entity)
  have hkeep : keep command.entity := by simp [keep]
  have hexplains := h.explains (s := s.only keep) hformed.formed
  rw [confined_execute.only keep command s (h.ready.owns h.placed) hkeep] at hexplains
  refine ⟨fun hok => ?_, fun e herror => ?_⟩
  · exact (Store.wellFormed_only hkeep).1 (hexplains.meets.ok hok).wellFormed
  · refine (hexplains.reason e herror).mono ?_ fun _ hname => hname
    rintro name type ⟨a, ha, hdeclared⟩
    have hfind : (s.store.only keep).find? command.entity name = some a := ha
    rw [Store.find?_only hkeep] at hfind
    exact ⟨a, hfind, hdeclared⟩

/-! ## Runs -/

namespace Editor

variable {ed : Editor} {id : EntityId} {command : AnyCommand}

/-- The command that a call of the host is on. -/
def called? (ed : Editor) : HostCall → Option AnyCommand
  | .execute command => some command
  | .undo => ed.history.undo.head?.bind (ed.commands[·]?)
  | .redo => ed.history.redo.head?.bind (ed.commands[·]?)

/-- The editor after calls of the host, whether they succeed or not. -/
def performed (ed : Editor) (calls : List HostCall) : Editor :=
  calls.foldl (fun ed call => (ed.perform call).2) ed

namespace Tracks

/-- Submitting a fresh command tracks a well formed entity. -/
theorem submit (h : ed.Tracks id (·.WellFormed id)) (hfresh : command.Fresh) :
    (ed.submit command).2.Tracks id (·.WellFormed id) := by
  obtain ⟨hregistered, hnew⟩ := h.register command
  have hcommand : (ed.register command).2.commands[ed.commands.size]? = some command := by
    rw [commands_register, if_pos rfl]
  refine hregistered.execute hcommand hnew hfresh.ready (hfresh.ready.owns hfresh.placed) ?_
  rintro rfl hok
  have hformed : ed.store.WellFormed command.entity :=
    (Store.wellFormed_only (by simp)).1 h.spans.now
  exact (Store.wellFormed_only (by simp)).2
    ((hfresh.execute_wellFormed (s := ed.session) hformed).1 hok)

/-- A call of the host keeps to the track of a well formed entity. Of the calls on its commands only
executing can fail. -/
theorem perform (h : ed.Tracks id (·.WellFormed id)) {call : HostCall}
    (hfresh : ∀ command, call = .execute command → command.Fresh) :
    (ed.perform call).2.Tracks id (·.WellFormed id) ∧
      ∀ command, ed.called? call = some command → command.entity = id →
        ∀ e, (ed.perform call).1 = .error e →
          call = .execute command ∧ ed.store.Excuses id command.attributeNames e := by
  cases call with
  | execute command =>
    refine ⟨h.submit (hfresh command rfl), ?_⟩
    rintro _ ⟨⟩ rfl e herror
    refine ⟨rfl, ?_⟩
    have hformed : ed.store.WellFormed command.entity :=
      (Store.wellFormed_only (by simp)).1 h.spans.now
    refine ((hfresh command rfl).execute_wellFormed (s := ed.session) hformed).2 e ?_
    rw [perform_execute, outcome_submit] at herror
    cases houtcome : (command.execute ed.session).outcome with
    | ok u =>
      rw [houtcome] at herror
      cases herror
    | error e' =>
      rw [houtcome] at herror
      cases herror
      rfl
  | undo =>
    refine ⟨h.undo.1, fun command hcalled hid e herror => ?_⟩
    obtain ⟨cid, hcid, hcommand⟩ := Option.bind_eq_some_iff.1 hcalled
    obtain ⟨answer, hok⟩ := h.undo.2 cid hcid (by rw [edits_eq hcommand, decide_eq_true hid])
    cases herror.symm.trans hok
  | redo =>
    refine ⟨h.redo.1, fun command hcalled hid e herror => ?_⟩
    obtain ⟨cid, hcid, hcommand⟩ := Option.bind_eq_some_iff.1 hcalled
    obtain ⟨answer, hok⟩ := h.redo.2 cid hcid (by rw [edits_eq hcommand, decide_eq_true hid])
    cases herror.symm.trans hok

/-- Calls of the host track a well formed entity. -/
theorem performed (h : ed.Tracks id (·.WellFormed id)) {calls : List HostCall}
    (hfresh : ∀ command, .execute command ∈ calls → command.Fresh) :
    (ed.performed calls).Tracks id (·.WellFormed id) := by
  induction calls generalizing ed with
  | nil => exact h
  | cons call calls ih =>
    have hstep : (ed.perform call).2.Tracks id (·.WellFormed id) :=
      (h.perform fun command hcall => hfresh command (by simp [hcall])).1
    exact ih hstep fun command hmem => hfresh command (List.mem_cons_of_mem _ hmem)

end Tracks

/-- From an empty history, and as long as the layer refuses nothing of its own, each call of a run
leaves an entity well formed and readable that was well formed at first. A call on a command of such
an entity fails only if it executes the command, and then for a reason that is no mismatch of a
type, no rejected value, and no invalid data but an attribute, for an op to be added, whose declared
type is none. -/
theorem stays_wellFormed {limit : Nat} (hhistory : ed.history = { limit })
    (hfree : ed.layer.refusals = {}) (calls : List HostCall) (call : HostCall)
    (hfresh : ∀ command, .execute command ∈ calls ++ [call] → command.Fresh) :
    let reached := ed.performed calls
    let after := (reached.perform call).2
    (∀ id, ed.store.WellFormed id →
      after.store.WellFormed id ∧ ∀ time, StackView.Readable ⟨id, time⟩ after.store) ∧
    ∀ command, reached.called? call = some command → ed.store.WellFormed command.entity →
      ∀ e, (reached.perform call).1 = .error e →
        call = .execute command ∧
          reached.store.Excuses command.entity command.attributeNames e := by
  intro reached after
  have hcalls : ∀ command, .execute command ∈ calls → command.Fresh :=
    fun command hmem => hfresh command (List.mem_append_left _ hmem)
  have hcall : ∀ command, call = .execute command → command.Fresh := by
    rintro command rfl
    exact hfresh command (by simp)
  have htracks {id : EntityId} (hformed : ed.store.WellFormed id) :
      reached.Tracks id (·.WellFormed id) := by
    have hstart : ed.Tracks id (·.WellFormed id) :=
      Tracks.start hhistory hfree hformed.typed_only ((Store.wellFormed_only (by simp)).2 hformed)
    exact hstart.performed hcalls
  refine ⟨fun id hformed => ?_, fun command hcalled hformed e herror => ?_⟩
  · have hafter : after.store.WellFormed id :=
      (Store.wellFormed_only (by simp)).1 ((htracks hformed).perform hcall).1.spans.now
    exact ⟨hafter, fun time => StackView.readable_of_wellFormed hafter⟩
  · exact ((htracks hformed).perform hcall).2 command hcalled rfl e herror

/-- A translation of a bare entity is executed, undone and redone. -/
theorem stays_wellFormed_on_bare :
    let ed := start { store := .bare } 2 .default
    let after := ((ed.performed [.execute (.single AnyCommand.translation), .undo]).perform .redo).2
    after.store.WellFormed default ∧ ∀ time, StackView.Readable ⟨default, time⟩ after.store := by
  intro ed after
  have hformed : ed.store.WellFormed default :=
    ⟨Store.wellTyped_bare.orders default, Store.wellTyped_bare.values default,
      ⟨[], false⟩, by decide +kernel, by simp⟩
  refine (stays_wellFormed rfl rfl _ .redo fun command hmem => ?_).1 default hformed
  obtain rfl : command = .single AnyCommand.translation := by simpa using hmem
  exact AnyCommand.fresh_translation

/-- Of an attribute outside the order nothing says that its declared type is a type. A translation
of the well formed entity fails to read it. -/
theorem not_free_of_invalid_data :
    let made := AnyCommand.translation.recipe.op false
    let damaged := Store.bare.alter default made.attributeName fun _ =>
      some { declared := .unknown "half3" }
    let ed := start { store := damaged } 2 .default
    ed.store.WellFormed default ∧ AnyCommand.Fresh (.single AnyCommand.translation) ∧
      (ed.perform (.execute (.single AnyCommand.translation))).1 =
        .error (.store (.data (.unknownType "half3"))) := by
  intro made damaged ed
  have htyped : ed.store.WellTyped := by
    refine Store.wellTyped_bare.alter ?_
    rintro a ⟨⟩
    exact ⟨⟨by simp, by simp⟩, fun hname => absurd hname made.attributeName_ne_orderName⟩
  exact ⟨⟨htyped.orders default, htyped.values default, ⟨[], false⟩, by decide +kernel, by simp⟩,
    AnyCommand.fresh_translation, by decide +kernel⟩

end Editor

end TransformStack
