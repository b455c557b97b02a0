import TransformStack.Proofs.Command.Passing
import TransformStack.Proofs.Edit.Restricting

/-!
# Calls without the attributes of other entities

A call on a command whose entity keeps its attributes has the same outcome and leaves the same
command whether the other entities have their attributes or not, and it leaves theirs alone.
-/

namespace TransformStack

variable {keep : EntityId → Bool} {id : EntityId}

/-- Writes to an entity that is not kept are lost with its attributes. -/
theorem Session.Passes.only_eq {s last : Session} {trail : List Layer}
    (h : s.Passes id trail last) (hid : keep id = false) :
    last.store.only keep = s.store.only keep := by
  refine h.keeps_of_alter (Q := fun s' => s'.only keep = s.store.only keep) rfl ?_
  intro s' name change hs'
  rw [Store.only_alter_of_not hid, hs']

/-! ## Calls -/

namespace Call

variable {κ : Type}

/-- What a call leaves, with the attributes of some entities only. -/
def only (call : Call κ) (keep : EntityId → Bool) : Call κ :=
  { call with session := call.session.only keep }

/-- On the commands of a kind, a call comes to the same without the attributes of entities that are
not kept, and it leaves a command of the kind. -/
def Local (keep : EntityId → Bool) (P : κ → Prop) (act : κ → Session → Call κ) : Prop :=
  ∀ c (s : Session), P c → act c (s.only keep) = (act c s).only keep ∧ P (act c s).command

namespace Local

variable {P : κ → Prop} {act next : κ → Session → Call κ}

/-- Two calls that work on kept entities do so one after the other. -/
theorem andThen (h : Local keep P act) (hnext : Local keep P next) :
    Local keep P fun c s => (act c s).andThen next := by
  intro c s hc
  obtain ⟨hact, hleft⟩ := h c s hc
  dsimp only
  rw [hact]
  generalize act c s = call at hleft
  obtain ⟨e | u, c', s'⟩ := call
  · exact ⟨rfl, hleft⟩
  · exact hnext c' s' hleft

/-- A call and what makes up for it work on kept entities if both do. -/
theorem orElse (h : Local keep P act) (hnext : Local keep P next) :
    Local keep P fun c s => (act c s).orElse next := by
  intro c s hc
  obtain ⟨hact, hleft⟩ := h c s hc
  dsimp only
  rw [hact]
  generalize act c s = call at hleft
  obtain ⟨e | u, c', s'⟩ := call
  · obtain ⟨hrecover, hlast⟩ := hnext c' s' hleft
    simp only [Call.orElse, Call.only] at hrecover ⊢
    rw [hrecover]
    generalize next c' s' = recovery at hlast
    obtain ⟨e' | u, c'', s''⟩ := recovery <;> exact ⟨rfl, hlast⟩
  · exact ⟨rfl, hleft⟩

/-- Holding notices back does not depend on other entities. -/
theorem guarded (h : Local keep P act) : Local keep P (Call.guarded act) := by
  intro c s hc
  obtain ⟨hact, hleft⟩ := h c (s.signal .hold) hc
  have hhold : (s.only keep).signal .hold = (s.signal .hold).only keep := rfl
  unfold Call.guarded
  rw [hhold, hact]
  exact ⟨rfl, hleft⟩

end Local

end Call

/-! ## Commands -/

namespace Command

variable {c : Command}

section Steps

variable (hid : keep c.entity)

include hid

/-- Finding the op does not depend on other entities. -/
theorem local_target : c.target.Local keep := by
  unfold target
  split
  · exact Arrangement.local_ensure hid _
  · refine .bind (.ask fun s => Store.order_only hid) fun order => ?_
    split
    · exact .pure _
    · exact Arrangement.local_ensure hid _

/-- Writing a value does not depend on other entities. -/
theorem local_write (value : Vector3) : (c.write value).Local keep := by
  refine .bind (local_target hid) fun op => .bind (fun _ => rfl) fun stored => ?_
  refine .bind (.tell fun tx => Transaction.setValue_only hid tx _ _ _) fun taken => ?_
  exact .bind (.require _ taken) fun _ => .pure op

/-- Applying a value looks at the attributes of the own entity only. -/
theorem apply_only (value : Vector3) (s : Session) :
    c.apply value (s.only keep) = (c.apply value s).only keep := by
  have hwrite : (c.write value).on (.start ((s.only keep).signal .hold)) = _ :=
    local_write hid value (.start (s.signal .hold))
  have hkept := (stays_write c value (s.signal .hold)).journal
  unfold apply Session.guarded
  dsimp only
  rw [Session.transact_eq, Session.transact_eq, hwrite]
  rcases hrun : (c.write value).on (.start (s.signal .hold)) with ⟨e | op, tx⟩
  · rw [hrun] at hkept
    have hrollback : (tx.only keep).rollback = tx.rollback.only keep :=
      Transaction.rollback_only fun edit hedit => by rw [hkept edit hedit, hid]
    dsimp only
    rw [hrollback]
    rfl
  · rfl

/-- Redoing comes to the same without the attributes of other entities. -/
theorem redo_only (s : Session) : c.redo (s.only keep) = (c.redo s).only keep := by
  unfold redo
  split
  · next value _ _ =>
    rw [apply_only hid]
    rcases c.apply value s with ⟨e | u, c', s'⟩ <;> rfl
  · rfl

/-- Executing comes to the same without the attributes of other entities. -/
theorem execute_only (s : Session) : c.execute (s.only keep) = (c.execute s).only keep := by
  unfold execute
  split
  · rfl
  · exact redo_only hid s
  · rfl
  · next value _ _ _ =>
    rw [apply_only hid]
    rcases c.apply value s with ⟨e | u, c', s'⟩ <;> rfl

end Steps

/-- Undoing comes to the same without the attributes of other entities. -/
theorem undo_only (hkept : ∀ edit ∈ c.journal, keep edit.entity) (s : Session) :
    c.undo (s.only keep) = (c.undo s).only keep := by
  have hrevert : c.journal.revert ((s.only keep).signal .hold) = _ :=
    Journal.revert_only hkept (s.signal .hold)
  unfold undo Session.guarded
  split
  · dsimp only
    rw [hrevert]
    rcases c.journal.revert (s.signal .hold) with ⟨⟨e | u, journal⟩, s'⟩ <;> rfl
  · rfl

variable (hid : keep id)

include hid

/-- Executing a single command works on kept entities if the command does. -/
theorem local_execute : Call.Local keep (·.Owns id) execute := by
  intro c s h
  exact ⟨execute_only (h.entity ▸ hid) s, (h.execute s).owns⟩

/-- Redoing a single command works on kept entities if the command does. -/
theorem local_redo : Call.Local keep (·.Owns id) redo := by
  intro c s h
  exact ⟨redo_only (h.entity ▸ hid) s, (h.redo s).owns⟩

/-- Undoing a single command works on kept entities if the command does. -/
theorem local_undo : Call.Local keep (·.Owns id) undo := by
  intro c s h
  exact ⟨undo_only (fun edit hedit => by rw [h.journal edit hedit, hid]) s, (h.undo s).owns⟩

end Command

/-! ## Matrix commands -/

namespace MatrixCommand

/-- A call on a part works on kept entities if the call on the single command does. -/
theorem local_onPart {act : Command → Session → Call Command}
    (hact : Call.Local keep (·.Owns id) act) (p : Part) :
    Call.Local keep (·.Owns id) (onPart act p) := by
  intro m s h
  obtain ⟨hsame, howns⟩ := hact (m.part p) s (h.part p)
  rw [onPart_eq, onPart_eq, hsame]
  refine ⟨rfl, ?_⟩
  cases p with
  | translate => exact ⟨h.entity, howns, h.rotate, h.scale⟩
  | rotate => exact ⟨h.entity, h.translate, howns, h.scale⟩
  | scale => exact ⟨h.entity, h.translate, h.rotate, howns⟩

variable (hid : keep id)

include hid

/-- Executing a matrix command works on kept entities if the command does. -/
theorem local_execute : Call.Local keep (·.Owns id) execute := by
  have hexecute := local_onPart (Command.local_execute hid)
  have hundo := local_onPart (Command.local_undo hid)
  refine .guarded (.andThen (.andThen (hexecute .translate) ?_) ?_)
  · exact .orElse (hexecute .rotate) (hundo .translate)
  · exact .orElse (hexecute .scale) (.andThen (hundo .rotate) (hundo .translate))

/-- Undoing a matrix command works on kept entities if the command does. -/
theorem local_undo : Call.Local keep (·.Owns id) undo := by
  have hundo := local_onPart (Command.local_undo hid)
  exact .guarded (.andThen (.andThen (hundo .scale) (hundo .rotate)) (hundo .translate))

/-- Redoing a matrix command works on kept entities if the command does. -/
theorem local_redo : Call.Local keep (·.Owns id) redo := by
  have hredo := local_onPart (Command.local_redo hid)
  exact .guarded (.andThen (.andThen (hredo .translate) (hredo .rotate)) (hredo .scale))

end MatrixCommand

/-! ## Commands of either kind -/

namespace AnyCommand

/-- A call on a command of either kind comes to the same without other entities if those on each
kind do. -/
theorem local_call {onSingle : Command → Session → Call Command}
    {onMatrix : MatrixCommand → Session → Call MatrixCommand}
    (hsingle : ∀ id, keep id → Call.Local keep (·.Owns id) onSingle)
    (hmatrix : ∀ id, keep id → Call.Local keep (·.Owns id) onMatrix) {command : AnyCommand}
    (s : Session) (howns : command.Owns) (hid : keep command.entity) :
    call onSingle onMatrix command (s.only keep) =
      (call onSingle onMatrix command s).only keep := by
  cases command with
  | single c =>
    simp only [call, (hsingle c.entity hid c s howns).1]
    rfl
  | matrix m =>
    simp only [call, (hmatrix m.entity hid m s howns).1]
    rfl

/-- A call works on the entity of its command: it writes to no other entity, and comes to the same
without the attributes of others. -/
structure Confined (act : AnyCommand → Session → Call AnyCommand) : Prop where
  announces : ∀ (command : AnyCommand) (s : Session), command.Owns →
    Announces command.entity s (act command s)
  only : ∀ (keep : EntityId → Bool) (command : AnyCommand) (s : Session), command.Owns →
    keep command.entity → act command (s.only keep) = (act command s).only keep

/-- Executing works on the entity of the command. -/
theorem confined_execute : Confined execute where
  announces _ s h := h.execute s
  only _ _ s howns hid := local_call (fun _ => Command.local_execute)
    (fun _ => MatrixCommand.local_execute) s howns hid

/-- Undoing works on the entity of the command. -/
theorem confined_undo : Confined undo where
  announces _ s h := h.undo s
  only _ _ s howns hid := local_call (fun _ => Command.local_undo)
    (fun _ => MatrixCommand.local_undo) s howns hid

/-- Redoing works on the entity of the command. -/
theorem confined_redo : Confined redo where
  announces _ s h := h.redo s
  only _ _ s howns hid := local_call (fun _ => Command.local_redo)
    (fun _ => MatrixCommand.local_redo) s howns hid

end AnyCommand

end TransformStack
