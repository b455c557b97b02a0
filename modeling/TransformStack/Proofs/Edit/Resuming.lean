import TransformStack.Proofs.Edit.Reverting

/-!
# Where reverting a journal stops

Reverting a journal takes back its newest edits, one after the other, up to the first that the store
refuses to revert or fails to. That edit and all older ones are left, in order. This holds of any
journal on any store, so whatever becomes of the store in between, reverting what is left goes on
with the edit at which it stopped.
-/

namespace TransformStack

/-! ## What a session announces -/

namespace Session

variable {s s' : Session} {id : EntityId}

/-- The entities that were announced to have changed, in the order of the announcements. -/
def announced (s : Session) : List EntityId :=
  s.signals.filterMap fun
    | .changed id => some id
    | .hold | .release => none

@[simp] theorem announced_hold : (s.signal .hold).announced = s.announced := by
  simp [announced, signal]

@[simp] theorem announced_release : (s.signal .release).announced = s.announced := by
  simp [announced, signal]

@[simp] theorem announced_wrote {layer : Layer} :
    (s.wrote id layer).announced = s.announced ++ [id] := by
  simp [announced, wrote, signal]

end Session

/-- Why an edit is not reverted on a store: the store refuses to, or fails to. -/
inductive Edit.RevertFails (edit : Edit) (s : Store) : EditError → Prop where
  | refused (h : edit.revert s = .ok none) :
      RevertFails edit s (.structural (.revertRefused edit.name edit.entity))
  | failed {e : StoreError} (h : edit.revert s = .error e) : RevertFails edit s (.store e)

/-- An edit is reverted, or there is a reason why it is not. -/
theorem Edit.reverts_or_fails (edit : Edit) (s : Store) :
    (∃ s', edit.revert s = .ok (some s')) ∨ ∃ e, edit.RevertFails s e := by
  cases hrevert : edit.revert s with
  | error e => exact .inr ⟨_, .failed hrevert⟩
  | ok reverted =>
    cases reverted with
    | none => exact .inr ⟨_, .refused hrevert⟩
    | some s' => exact .inl ⟨s', rfl⟩

namespace Journal

variable {s s' : Session} {edits : Journal}

/-- From one session to another exactly some edits were reverted, the newest first, each announcing
the entity that it was of. -/
structure Reverted (edits : Journal) (s s' : Session) : Prop where
  takesBack : edits.TakesBack s.store s'.store
  layer : s'.layer = { s.layer with store := s'.store }
  announced : s'.announced = s.announced ++ edits.map Edit.entity

/-- What is left of a journal when reverting it ends on a store: nothing, or the edit that cannot be
reverted there and all older ones. -/
inductive Leaves (store : Store) : Except EditError Unit → Journal → Prop where
  | nothing : Leaves store (.ok ()) []
  | stopped {edit : Edit} {older : Journal} {e : EditError} (h : edit.RevertFails store e) :
      Leaves store (.error e) (edit :: older)

namespace Reverted

theorem refl (s : Session) : Reverted [] s s :=
  ⟨rfl, rfl, (List.append_nil _).symm⟩

/-- One edit is reverted, and then the others. -/
theorem cons {edit : Edit} {store : Store} (hrevert : edit.revert s.store = .ok (some store))
    (h : edits.Reverted (s.wrote edit.entity { s.layer with store }) s') :
    Reverted (edit :: edits) s s' := by
  refine ⟨⟨store, hrevert, h.takesBack⟩, h.layer, ?_⟩
  rw [h.announced, Session.announced_wrote, List.map_cons, List.append_assoc]
  rfl

/-- Holding notices back meanwhile announces nothing. -/
theorem guarded (h : edits.Reverted (s.signal .hold) s') :
    edits.Reverted s (s'.signal .release) := by
  refine ⟨h.takesBack, h.layer, ?_⟩
  rw [Session.announced_release, h.announced, Session.announced_hold]

end Reverted

/-- Reverting a journal without an error leaves nothing of it. -/
theorem Leaves.eq_nil {store : Store} {left : Journal} (h : Leaves store (.ok ()) left) :
    left = [] := by
  cases h
  rfl

/-- An edit that can be reverted is, and then the older ones are. -/
theorem revert_of_reverts {edit : Edit} {store : Store}
    (h : edit.revert s.store = .ok (some store)) (older : Journal) :
    revert (edit :: older) s = revert older (s.wrote edit.entity { s.layer with store }) := by
  rw [revert, h]
  rfl

/-- Reverting stops at an edit that cannot be reverted. -/
theorem revert_of_fails {edit : Edit} {e : EditError} (h : edit.RevertFails s.store e)
    (older : Journal) : revert (edit :: older) s = ((.error e, edit :: older), s) := by
  cases h with
  | refused h =>
    rw [revert, h]
    rfl
  | failed h =>
    rw [revert, h]
    rfl

/-- Reverting a journal reverts its newest edits, and leaves the others. -/
theorem exists_reverted (journal : Journal) (s : Session) :
    ∃ edits : Journal, journal = edits ++ (journal.revert s).1.2 ∧
      edits.Reverted s (journal.revert s).2 ∧
      Leaves (journal.revert s).2.store (journal.revert s).1.1 (journal.revert s).1.2 := by
  induction journal generalizing s with
  | nil => exact ⟨[], rfl, .refl s, .nothing⟩
  | cons edit older ih =>
    rcases edit.reverts_or_fails s.store with ⟨store, hrevert⟩ | ⟨e, hfails⟩
    · obtain ⟨edits, hsplit, hreverted, hleaves⟩ := ih (s.wrote edit.entity { s.layer with store })
      rw [revert_of_reverts hrevert]
      exact ⟨edit :: edits, congrArg (edit :: ·) hsplit, hreverted.cons hrevert, hleaves⟩
    · rw [revert_of_fails hfails]
      exact ⟨[], rfl, .refl s, .stopped hfails⟩

end Journal

end TransformStack
