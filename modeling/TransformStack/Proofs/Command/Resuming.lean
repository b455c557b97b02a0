import TransformStack.Proofs.Command.Origin
import TransformStack.Proofs.Edit.Resuming

/-!
# Undoing is resumed where it stopped

Undoing fails where an edit cannot be reverted, and what is left of the journal begins with that
edit. Undoing again, in whatever session, goes on from there. So over any number of attempts up to
the first that succeeds the edits are reverted piece by piece, each of them once and the newest
first, and until then a command stays in the state that it was in.
-/

namespace TransformStack

/-! ## Calls that are made again -/

/-- A call that was made: on what, in which session, and what came of it. -/
structure Trial (κ : Type) where
  before : κ
  session : Session
  call : Call κ

/-- A call is made in one session after the other, each time on what it left before, up to the first
time that it succeeds. -/
def Call.trials {κ : Type} (act : κ → Session → Call κ) (c : κ) : List Session → List (Trial κ)
  | [] => []
  | s :: sessions =>
    ⟨c, s, act c s⟩ :: match (act c s).outcome with
      | .ok _ => []
      | .error _ => trials act (act c s).command sessions

namespace Trial

variable {κ : Type} {act : κ → Session → Call κ} {journal : κ → Journal} {c : κ} {s : Session}

/-- The call reverts exactly some edits of the journal, the newest, and leaves the others. -/
structure Reverts (journal : κ → Journal) (t : Trial κ) (edits : Journal) : Prop where
  split : journal t.before = edits ++ journal t.call.command
  reverted : edits.Reverted t.session t.call.session
  leaves : Journal.Leaves t.call.session.store t.call.outcome (journal t.call.command)

/-- What is left after the last call. -/
def left (c : κ) (trials : List (Trial κ)) : κ := (trials.getLast?.map (·.call.command)).getD c

/-- What is left after trials is left after the later ones. -/
theorem left_cons (t : Trial κ) (trials : List (Trial κ)) :
    left c (t :: trials) = left t.call.command trials := by
  rw [left, left, List.getLast?_cons]
  cases trials.getLast? <;> rfl

/-- Calls take a journal back piece by piece. Each reverts a piece of its own, the pieces follow one
another in the journal, and after them comes what is left. A call that succeeds leaves nothing. -/
structure Resumes (journal : κ → Journal) (c : κ) (trials : List (Trial κ))
    (pieces : List Journal) : Prop where
  reverts : List.Forall₂ (Reverts journal) trials pieces
  left : journal c = pieces.flatten ++ journal (left c trials)
  whole : ∀ t ∈ trials, t.call.outcome = .ok () → pieces.flatten = journal c

/-- A journal without edits is taken back by no calls. -/
theorem Resumes.nil : Resumes journal c [] [] :=
  ⟨.nil, rfl, fun _ ht => nomatch ht⟩

/-- A call that succeeds reverts the whole journal. -/
theorem Resumes.last {edits : Journal} {t : Trial κ} (h : t.Reverts journal edits)
    (hok : t.call.outcome = .ok ()) : Resumes journal t.before [t] [edits] := by
  have hleaves := h.leaves
  rw [hok] at hleaves
  have hwhole : edits = journal t.before := by
    rw [h.split, hleaves.eq_nil, List.append_nil]
  refine ⟨.cons h .nil, ?_, fun _ _ _ => ?_⟩
  · rw [List.flatten_singleton]
    exact h.split
  · rw [List.flatten_singleton, hwhole]

/-- After a call that fails, the others go on with what it left. -/
theorem Resumes.cons {edits : Journal} {pieces : List Journal} {t : Trial κ}
    {trials : List (Trial κ)} (h : t.Reverts journal edits) {e : EditError}
    (herror : t.call.outcome = .error e) (hrest : Resumes journal t.call.command trials pieces) :
    Resumes journal t.before (t :: trials) (edits :: pieces) := by
  refine ⟨.cons h hrest.reverts, ?_, fun t' ht' hok => ?_⟩
  · rw [left_cons, List.flatten_cons, List.append_assoc, ← hrest.left]
    exact h.split
  · rcases List.mem_cons.1 ht' with rfl | ht'
    · cases herror.symm.trans hok
    · rw [List.flatten_cons, hrest.whole t' ht' hok]
      exact h.split.symm

/-- Where each call reverts some edits of the journal, and a call that fails keeps to a property of
what it is made on, all calls together take the journal back piece by piece. -/
theorem exists_resumes {P : κ → Prop}
    (hreverts : ∀ c s, P c → ∃ edits, Reverts journal ⟨c, s, act c s⟩ edits)
    (hkeeps : ∀ c s e, P c → (act c s).outcome = .error e → P (act c s).command) (h : P c)
    (sessions : List Session) :
    ∃ pieces, Resumes journal c (Call.trials act c sessions) pieces := by
  induction sessions generalizing c with
  | nil => exact ⟨[], .nil⟩
  | cons s sessions ih =>
    obtain ⟨edits, hedits⟩ := hreverts c s h
    rw [Call.trials]
    cases houtcome : (act c s).outcome with
    | ok u => exact ⟨[edits], .last hedits houtcome⟩
    -- The call that failed has taken back its piece, and the command it leaves goes on from there.
    | error e =>
      obtain ⟨pieces, hpieces⟩ := ih (hkeeps c s e h houtcome)
      exact ⟨edits :: pieces, .cons hedits houtcome hpieces⟩

/-- What holds of each call that is made where a property holds is true of all calls, if the calls
that fail keep to the property. -/
theorem forall_of_keeps {P : κ → Prop} {Q : Trial κ → Prop}
    (hcall : ∀ c s, P c → Q ⟨c, s, act c s⟩)
    (hkeeps : ∀ c s e, P c → (act c s).outcome = .error e → P (act c s).command) (h : P c)
    (sessions : List Session) : ∀ t ∈ Call.trials act c sessions, Q t := by
  induction sessions generalizing c with
  | nil => exact fun _ ht => nomatch ht
  | cons s sessions ih =>
    rw [Call.trials, List.forall_mem_cons]
    refine ⟨hcall c s h, ?_⟩
    cases houtcome : (act c s).outcome with
    | ok u => exact fun _ ht => nomatch ht
    | error e => exact ih (hkeeps c s e h houtcome)

end Trial

/-! ## Undoing -/

/-- Undo an item of edits, which keeps those that could not be reverted. -/
def Journal.undo (item : Journal) (s : Session) : Call Journal :=
  ⟨(item.revert s).1.1, (item.revert s).1.2, (item.revert s).2⟩

/-- Undoing an item reverts its newest edits and keeps the others. -/
theorem Journal.undo_reverts (item : Journal) (s : Session) :
    ∃ edits, Trial.Reverts id ⟨item, s, item.undo s⟩ edits := by
  obtain ⟨edits, hsplit, hreverted, hleaves⟩ := exists_reverted item s
  exact ⟨edits, hsplit, hreverted, hleaves⟩

namespace Command

variable {c c' : Command} {s : Session}

/-- Undoing an applied command undoes its journal. -/
theorem undo_reverts (happlied : c.state.isApplied) (s : Session) :
    ∃ edits, Trial.Reverts (·.journal) ⟨c, s, c.undo s⟩ edits := by
  obtain ⟨edits, hsplit, hreverted, hleaves⟩ := Journal.exists_reverted c.journal (s.signal .hold)
  rcases c.undo_cases s with
    ⟨hidle, -⟩ | ⟨-, journal, s', ⟨hrevert, hundo⟩ | ⟨e, hrevert, hundo⟩⟩
  · cases hidle.symm.trans happlied
  all_goals
    rw [hrevert] at hsplit hreverted hleaves
    rw [hundo]
    exact ⟨edits, hsplit, hreverted.guarded, hleaves⟩

/-- A command that cannot be undone keeps all but some of its journal. -/
theorem undo_meets (happlied : c.state.isApplied) (s : Session) :
    (c.undo s).Meets (fun c' _ => c' = { c with journal := [], state := .undone })
      fun c' _ => c' = { c with journal := c'.journal } := by
  rcases c.undo_cases s with
    ⟨hidle, -⟩ | ⟨-, journal, s', ⟨hrevert, hundo⟩ | ⟨e, hrevert, hundo⟩⟩
  · cases hidle.symm.trans happlied
  · rw [hundo, Journal.eq_nil_of_revert hrevert]
    exact .of_ok rfl rfl
  · rw [hundo]
    exact .of_error rfl rfl

/-- Undone in one session after the other, up to the first time that this succeeds, an item and an
applied command revert the edits that they hold piece by piece. Each attempt reverts the newest
edits that are left, up to the first that cannot be reverted, and the next one goes on with that
edit; the one that succeeds has reverted the rest, so that each edit was reverted once, the newest
first. Until then the command keeps its state and all but the reverted edits. -/
theorem undo_resumes (sessions : List Session) :
    (∀ item : Journal, ∃ pieces,
      Trial.Resumes id item (Call.trials Journal.undo item sessions) pieces) ∧
    ∀ c : Command, c.state.isApplied →
      let trials := Call.trials undo c sessions
      (∃ pieces, Trial.Resumes (·.journal) c trials pieces) ∧
        ∀ t ∈ trials, t.before = { c with journal := t.before.journal } ∧
          t.call.Meets (fun c' _ => c' = { c with journal := [], state := .undone })
            fun c' _ => c' = { c with journal := c'.journal } := by
  refine ⟨fun item => ?_, fun c happlied => ?_⟩
  · exact Trial.exists_resumes (P := fun _ => True) (fun item s _ => item.undo_reverts s)
      (fun _ _ _ _ _ => trivial) trivial sessions
  · -- An attempt that fails changes only the journal, so the next one is on the same command.
    have hkeeps (c' : Command) (s : Session) (e : EditError)
        (hsame : c' = { c with journal := c'.journal })
        (herror : (c'.undo s).outcome = .error e) :
        (c'.undo s).command = { c with journal := (c'.undo s).command.journal } := by
      rw [hsame] at herror ⊢
      exact (undo_meets (c := { c with journal := c'.journal }) happlied s).error e herror
    refine ⟨Trial.exists_resumes (fun c' s hsame => ?_) hkeeps rfl sessions,
      Trial.forall_of_keeps (fun c' s hsame => ⟨hsame, ?_⟩) hkeeps rfl sessions⟩
    · exact undo_reverts (by rw [hsame]; exact happlied) s
    · rw [hsame]
      exact undo_meets (c := { c with journal := c'.journal }) happlied s

/-- A command that added an op to a bare store is undone there in three attempts. The order is gone
in the first, so that the store refuses to put its tokens back, and of another type in the second.
-/
theorem undo_resumes_interrupted :
    let done := AnyCommand.translation.execute { layer := { store := .bare } }
    let store := done.session.store
    let on (store : Store) : Session := { layer := { store } }
    let trials := Call.trials undo done.command
      [on (store.alter default Op.orderName fun _ => none),
        on (store.overwriteType default Op.orderName (.known .float)), on store]
    trials.map (·.call.outcome) =
        [.error (.structural (.revertRefused Op.orderName default)),
          .error (.store (.typeMismatch Op.orderName .float .tokenArray)), .ok ()] ∧
      trials.map (·.call.command.state) = [.committed, .committed, .undone] ∧
      trials.map (·.call.command.journal.length) = [3, 3, 0] ∧
      ∃ pieces, Trial.Resumes (·.journal) done.command trials pieces ∧
        pieces.flatten = done.command.journal := by
  intro done store on trials
  have houtcomes : trials.map (·.call.outcome) =
      [.error (.structural (.revertRefused Op.orderName default)),
        .error (.store (.typeMismatch Op.orderName .float .tokenArray)), .ok ()] := by
    decide +kernel
  have happlied : done.command.state.isApplied := by decide +kernel
  obtain ⟨⟨pieces, hpieces⟩, -⟩ := (undo_resumes _).2 done.command happlied
  have hlast : .ok () ∈ trials.map (·.call.outcome) := by
    rw [houtcomes]
    simp
  obtain ⟨t, ht, hok⟩ := List.mem_map.1 hlast
  exact ⟨houtcomes, by decide +kernel, by decide +kernel, pieces, hpieces, hpieces.whole t ht hok⟩

end Command

end TransformStack
