import TransformStack.Proofs.Command.Lifecycle
import TransformStack.Proofs.Command.Rewriting
import TransformStack.Proofs.Edit.Growing

/-!
# What calls come to on an order that can be read

As long as the order of its entity can be read, a call on a command other than undoing does one of
three things. It writes nothing; or it writes a value to an op of the order, and leaves the store
alike; or it sorts the ops it lacks into the order and writes a value to one of them, and then its
journal first takes back the value and then the arranging.
-/

namespace TransformStack

/-- The ops that an edit at a position lacks were sorted into the order of a store, which made
another store, and a journal takes that back if the order is typed. -/
structure Arranged (id : EntityId) (p : Position) (op : Op) (journal : Journal)
    (before after : Store) : Prop where
  order : ∃ order order', before.order id = .ok order ∧ after.order id = .ok order' ∧
    order.at? p = none ∧ order.GrownAt p order' ∧ op ∈ order'.ops
  arranging : ∀ edit ∈ journal, edit.IsArranging id
  tokens : ∃ names older,
    journal = .changed id Op.orderName .default (some (.tokens names)) :: older
  takesBack : before.OrderTyped id → journal.TakesBack after before ∧ after.OrderTyped id
  mistyped : before.OrderMistyped id → after.OrderMistyped id

namespace Command

variable {c : Command} {value : Vector3} {s : Session} {order : OpOrder} {op : Op}

/-! ## Applying a value -/

/-- A value that is applied to an op of the order leaves the store alike. -/
theorem apply_found (horder : s.store.order c.entity = .ok order)
    (hfound : c.opIn? order = some op) (hok : (c.apply value s).outcome = .ok ()) :
    ∃ edit, edit.IsValue c.entity op ∧
      (c.apply value s).command = { c with op := some op, journal := edit :: c.journal } ∧
      (c.apply value s).session.store.Alike c.entity s.store := by
  rcases apply_cases c value s with ⟨op', tx, hrun, happly⟩ | ⟨e, tx, -, happly⟩
  · obtain ⟨mid, stored, htarget, -, hset⟩ := write_eq_ok_iff.1 hrun
    have hstart : (Transaction.start (s.signal .hold)).store.order c.entity = .ok order := horder
    rw [target_on hstart, hfound] at htarget
    cases htarget
    obtain ⟨previous, after, -, hafter, rfl⟩ := Transaction.setValue_eq_ok_iff.1 hset
    rw [happly]
    exact ⟨_, ⟨previous, rfl⟩, rfl, .of_setValue hafter⟩
  · rw [happly] at hok
    cases hok

/-- Where the order lacks the op of a command, finding its target arranges the store. -/
theorem arranged_of_target {mid : Transaction} (hplain : c.recipe.Plain)
    (horder : s.store.order c.entity = .ok order) (hmissing : c.opIn? order = none)
    (htarget : c.target.on (.start s) = (.ok op, mid)) :
    Arranged c.entity c.recipe.position op mid.journal s.store mid.store := by
  have hstart : (Transaction.start s).store.order c.entity = .ok order := horder
  have hat : order.at? c.recipe.position = none := (Option.or_eq_none_iff.1 hmissing).2
  -- Each field holds at the start and is kept by both writes that finding a target can make.
  refine ⟨?_, ?_, ?_, fun htyped => ?_, fun hmistyped => ?_⟩
  · obtain ⟨order', horder', ⟨hfound, -⟩ | ⟨-, rfl, hplaced, hmade⟩⟩ := target_eq_ok htarget
    all_goals obtain rfl : order = order' := Except.ok.inj (hstart.symm.trans horder')
    · cases hmissing.symm.trans hfound
    · refine ⟨order, _, horder, hmade, hat, OpOrder.grownAt_additions hplain.fits hplaced, ?_⟩
      refine Op.mem_byPosition.2 ⟨List.mem_append_right _ ?_, _, hplain.fits.ofOp?⟩
      rw [Recipe.additions, List.map_cons, hplain.stored]
      exact List.mem_cons_self
  · have hkeeps : c.target.Keeps (·.Arranges c.entity) :=
      target_keeps (fun _ op htx => htx.addOp op) fun _ order htx => htx.setOrder order
    have hmid := hkeeps (.start s) (List.forall_mem_nil _)
    rwa [htarget] at hmid
  · rw [target_on hstart, hmissing] at htarget
    exact Arrangement.journal_of_ensure hstart hat htarget
  · have hkeeps : c.target.Keeps fun tx => tx.store.OrderTyped c.entity ∧ tx.Traced s.store :=
      target_keeps
        (fun _ op htx => ⟨Transaction.addOp_keeps htx.1 fun _ => htx.1.addOp,
          htx.2.addOp htx.1 op⟩)
        fun _ order htx => ⟨Transaction.setOrder_keeps htx.1 fun _ => htx.1.setOrder,
          htx.2.setOrder htx.1 order⟩
    have hmid := hkeeps (.start s) ⟨htyped, rfl⟩
    rw [htarget] at hmid
    exact ⟨hmid.2, hmid.1⟩
  · have hkeeps : c.target.Keeps fun tx => tx.store.OrderMistyped c.entity :=
      target_keeps
        (fun _ _ htx => Transaction.addOp_keeps (Q := (·.OrderMistyped c.entity)) htx
          fun _ => htx.addOp)
        fun _ _ htx => Transaction.setOrder_keeps (Q := (·.OrderMistyped c.entity)) htx
          fun _ => htx.setOrder
    have hmid := hkeeps (.start s) hmistyped
    rwa [htarget] at hmid

/-- A value that is applied where the order lacks its op is written to a store that was arranged
for it. -/
theorem apply_missing (hplain : c.recipe.Plain) (horder : s.store.order c.entity = .ok order)
    (hmissing : c.opIn? order = none) (hok : (c.apply value s).outcome = .ok ()) :
    ∃ op edit journal mid, edit.IsValue c.entity op ∧
      Arranged c.entity c.recipe.position op journal s.store mid ∧
      (c.apply value s).command =
        { c with op := some op, journal := edit :: (journal ++ c.journal) } ∧
      (c.apply value s).session.store.Alike c.entity mid := by
  rcases apply_cases c value s with ⟨op, tx, hrun, happly⟩ | ⟨e, tx, -, happly⟩
  · obtain ⟨mid, stored, htarget, -, hset⟩ := write_eq_ok_iff.1 hrun
    obtain ⟨previous, after, -, hafter, rfl⟩ := Transaction.setValue_eq_ok_iff.1 hset
    have harranged : Arranged c.entity c.recipe.position op mid.journal s.store mid.store :=
      arranged_of_target (s := s.signal .hold) hplain horder hmissing htarget
    rw [happly]
    exact ⟨op, _, mid.journal, mid.store, ⟨previous, rfl⟩, harranged, rfl, .of_setValue hafter⟩
  · rw [happly] at hok
    cases hok

/-- Where a value cannot be applied and the order attribute is declared as something else, no op is
lost. -/
theorem apply_of_error_of_mistyped {e : EditError} (horder : s.store.order c.entity = .ok order)
    (h : (c.apply value s).outcome = .error e) (hmistyped : s.store.OrderMistyped c.entity) :
    (c.apply value s).command = c ∧
      (c.apply value s).session.store.Retains c.entity order.ops := by
  have hkeeps : c.target.Keeps (·.Unwound (·.Retains c.entity order.ops) s.store) := by
    refine target_keeps_of_sort ?_ ?_
    · intro tx inverse htx
      exact htx.addOp (htx.store.declare (c.recipe.op inverse) _) fun _ => htx.store.addOp
    · intro tx order' htx horder' hplaced
      exact htx.setOrder fun _ => htx.store.sort horder' hplaced
  have hstart : s.store.Retains c.entity order.ops := ⟨hmistyped, order, horder, fun _ => id⟩
  obtain ⟨hcommand, hretains, -⟩ := apply_of_unwound hkeeps hstart h
  exact ⟨hcommand, hretains⟩

/-! ## Calls that apply a value -/

/-- A call leaves the store and what the command has written, or it applies a value, which makes the
command stand applied, or it fails to. -/
inductive Attempts (c : Command) (s : Session) : Call Command → Prop where
  | idle {outcome : Except EditError Unit} {c' : Command} (hsame : c'.SameWrites c)
      (hstate : c'.state.isApplied = c.state.isApplied) : Attempts c s ⟨outcome, c', s⟩
  | applied {outcome : Except EditError Unit} {c' c'' : Command} {value : Vector3}
      (hsame : c'.SameWrites c) (hok : (c'.apply value s).outcome = .ok ())
      (hafter : c''.SameWrites (c'.apply value s).command) (hstate : c''.state.isApplied) :
      Attempts c s ⟨outcome, c'', (c'.apply value s).session⟩
  | failed {c' : Command} {value : Vector3} {e : EditError} (hsame : c'.SameWrites c)
      (hstate : c'.state.isApplied = c.state.isApplied)
      (herror : (c'.apply value s).outcome = .error e) : Attempts c s (c'.apply value s)

/-- A value is applied, and what is noted after that leaves what was written and makes the command
stand applied. -/
theorem Attempts.of_apply {c' : Command} (hsame : c'.SameWrites c)
    (hstate : c'.state.isApplied = c.state.isApplied) {f : Command → Command}
    (hf : ∀ op journal, (f { c' with op, journal }).SameWrites { c' with op, journal } ∧
      (f { c' with op, journal }).state.isApplied) :
    c.Attempts s (match c'.apply value s with
      | ⟨.ok _, c, s⟩ => ⟨.ok (), f c, s⟩
      | other => other) := by
  obtain ⟨op, journal, hleft⟩ := exists_apply_command c' value s
  cases happly : (c'.apply value s).outcome with
  | error e =>
    have hfailed : c.Attempts s (c'.apply value s) := .failed hsame hstate happly
    rcases hcall : c'.apply value s with ⟨e' | u, c'', s'⟩
    · rw [hcall] at hfailed
      exact hfailed
    · rw [hcall] at happly
      cases happly
  | ok u =>
    have happlied : c.Attempts s ⟨.ok (), f (c'.apply value s).command,
        (c'.apply value s).session⟩ :=
      .applied hsame happly (hleft ▸ (hf op journal).1) (hleft ▸ (hf op journal).2)
    rcases hcall : c'.apply value s with ⟨e' | u, c'', s'⟩
    · rw [hcall] at happly
      cases happly
    · rw [hcall] at happlied
      exact happlied

/-- Redoing attempts at most one write. -/
theorem attempts_redo (c : Command) (s : Session) : c.Attempts s (c.redo s) := by
  unfold redo
  split
  · next value _ _ =>
    exact .of_apply (f := ({ · with newValue := some value, state := .redone })) ⟨rfl, rfl, rfl⟩ rfl
      fun _ _ => ⟨⟨rfl, rfl, rfl⟩, rfl⟩
  · exact .idle ⟨rfl, rfl, rfl⟩ rfl

/-- Executing attempts at most one write. -/
theorem attempts_execute (c : Command) (s : Session) : c.Attempts s (c.execute s) := by
  unfold execute
  split
  · exact .idle ⟨rfl, rfl, rfl⟩ rfl
  · exact attempts_redo c s
  · exact .idle ⟨rfl, rfl, rfl⟩ rfl
  · next value _ hunbound hundone =>
    refine .of_apply
      (f := ({ · with
        committedValue := some value
        state := if c.state = .pending then .committed else c.state }))
      ⟨rfl, rfl, rfl⟩ rfl fun _ _ => ⟨⟨rfl, rfl, rfl⟩, ?_⟩
    cases hstate : c.state with
    | unbound => exact absurd hstate hunbound
    | undone => exact absurd hstate hundone
    | _ => rfl

/-- Giving a value attempts at most one write. -/
theorem attempts_set (c : Command) (value : Vector3) (s : Session) :
    c.Attempts s (c.set value s) := by
  have hnew : { c with newValue := some value }.SameWrites c := ⟨rfl, rfl, rfl⟩
  unfold set
  split
  · split
    · next hstate => exact .idle ⟨rfl, rfl, rfl⟩ (by rw [hstate]; rfl)
    · next hstate => exact .idle ⟨rfl, rfl, rfl⟩ (by rw [hstate]; rfl)
    · next hstate =>
      exact .of_apply (f := ({ · with committedValue := some value })) hnew rfl
        fun _ _ => ⟨⟨rfl, rfl, rfl⟩, by rw [hstate]; rfl⟩
    · next hstate =>
      exact .of_apply (f := ({ · with committedValue := some value })) hnew rfl
        fun _ _ => ⟨⟨rfl, rfl, rfl⟩, by rw [hstate]; rfl⟩
    · exact .idle ⟨rfl, rfl, rfl⟩ rfl
  · exact .idle ⟨rfl, rfl, rfl⟩ rfl

/-- Giving the value of an attribute attempts at most one write. -/
theorem attempts_setValue (c : Command) (value : Value) (s : Session) :
    c.Attempts s (c.setValue value s) := by
  unfold setValue
  split
  · exact .idle ⟨rfl, rfl, rfl⟩ rfl
  · split
    · exact attempts_set c _ s
    · exact .idle ⟨rfl, rfl, rfl⟩ rfl

/-- Every call but undoing attempts at most to apply a value. -/
theorem attempts_call (c : Command) (s : Session) {call : CommandCall} (hundo : call ≠ .undo) :
    c.Attempts s (c.call s call) := by
  cases call with
  | set value => exact attempts_set c value s
  | setValue value => exact attempts_setValue c value s
  | execute => exact attempts_execute c s
  | undo => exact absurd rfl hundo
  | redo => exact attempts_redo c s

/-! ## Effects -/

/-- What a call comes to on a store where the order can be read, in terms of the command and the
store that it leaves. The command edits the op at a position of an entity. -/
inductive Effect (id : EntityId) (p : Position) (c : Command) (s : Store) (order : OpOrder)
    (c' : Command) (s' : Store) : Prop where
  | stays (happlied : c'.state.isApplied = c.state.isApplied) (hop : c'.op = c.op)
      (hjournal : c'.journal = c.journal) (htyped : s.OrderTyped id → s' = s)
      (hmistyped : s.OrderMistyped id → s'.Retains id order.ops)
  | found {op : Op} {edit : Edit} (happlied : c'.state.isApplied)
      (hfound : c.opIn? order = some op) (hop : c'.op = some op) (hvalue : edit.IsValue id op)
      (hjournal : c'.journal = edit :: c.journal) (halike : s'.Alike id s)
  | made {op : Op} {edit : Edit} {journal : Journal} {mid : Store} (happlied : c'.state.isApplied)
      (hmissing : c.opIn? order = none) (harranged : Arranged id p op journal s mid)
      (hop : c'.op = some op) (hvalue : edit.IsValue id op)
      (hjournal : c'.journal = edit :: (journal ++ c.journal)) (halike : s'.Alike id mid)

/-- Commands that have written the same find the same op in an order. -/
theorem SameWrites.opIn? {c c' : Command} (h : c.SameWrites c') (order : OpOrder) :
    c.opIn? order = c'.opIn? order := by
  rw [Command.opIn?, Command.opIn?, h.op, h.recipe]

/-- A call but undoing has one of three effects. -/
theorem effect_call (hplain : c.recipe.Plain) (horder : s.store.order c.entity = .ok order)
    {call : CommandCall} (hundo : call ≠ .undo) :
    Effect c.entity c.recipe.position c s.store order (c.call s call).command
      (c.call s call).session.store := by
  generalize hdone : c.call s call = done
  have hattempts := attempts_call c s hundo
  rw [hdone] at hattempts
  -- Every other call comes to an attempt to apply a value, or to none.
  cases hattempts with
  | idle hsame hstate =>
    exact .stays hstate hsame.op hsame.journal (fun _ => rfl)
      fun hmistyped => ⟨hmistyped, order, horder, fun _ => id⟩
  | @failed c' value e hsame hstate herror =>
    rw [← hsame.entity] at horder
    rcases Store.orderTyped_or_mistyped horder with htyped | hmistyped
    · obtain ⟨hcommand, hstore⟩ := apply_of_error_of_typed herror htyped
      rw [hcommand]
      exact .stays hstate hsame.op hsame.journal (fun _ => hstore)
        fun hmistyped => absurd htyped (hsame.entity ▸ hmistyped).not_typed
    · obtain ⟨hcommand, hretains⟩ := apply_of_error_of_mistyped horder herror hmistyped
      rw [hcommand]
      exact .stays hstate hsame.op hsame.journal
        (fun htyped => absurd (hsame.entity ▸ htyped) hmistyped.not_typed)
        fun _ => hsame.entity ▸ hretains
  | @applied outcome c' c'' value hsame hok hafter hstate =>
    rw [← hsame.entity] at horder
    cases hfound : c'.opIn? order with
    | some op =>
      obtain ⟨edit, hvalue, hcommand, halike⟩ := apply_found horder hfound hok
      rw [hcommand] at hafter
      rw [hsame.entity] at hvalue halike
      refine .found hstate ?_ hafter.op hvalue ?_ halike
      · rw [← hsame.opIn?, hfound]
      · rw [hafter.journal, hsame.journal]
    | none =>
      obtain ⟨op, edit, journal, mid, hvalue, harranged, hcommand, halike⟩ :=
        apply_missing (hsame.recipe ▸ hplain) horder hfound hok
      rw [hcommand] at hafter
      rw [hsame.entity] at hvalue halike harranged
      rw [hsame.recipe] at harranged
      refine .made hstate ?_ harranged hafter.op hvalue ?_ halike
      · rw [← hsame.opIn?, hfound]
      · rw [hafter.journal, hsame.journal]

/-- No call changes what the command edits, and how. -/
theorem bare_call (c : Command) (s : Session) (call : CommandCall) :
    (c.call s call).command.bare = c.bare := by
  by_cases hundo : call = .undo
  · subst hundo
    show (c.undo s).command.bare = c.bare
    rcases c.undo_cases s with ⟨-, hundo⟩ | ⟨-, journal, s', ⟨-, hundo⟩ | ⟨e, -, hundo⟩⟩ <;>
      rw [hundo] <;> rfl
  · have happly : ∀ (c : Command) value, (c.apply value s).command.bare = c.bare := by
      intro c value
      obtain ⟨op, journal, hleft⟩ := exists_apply_command c value s
      rw [hleft]
      rfl
    generalize hdone : c.call s call = done
    have hattempts := attempts_call c s hundo
    rw [hdone] at hattempts
    cases hattempts with
    | idle hsame hstate => exact hsame.bare
    | failed hsame hstate herror => exact (happly _ _).trans hsame.bare
    | applied hsame hok hafter hstate =>
      exact hafter.bare.trans ((happly _ _).trans hsame.bare)

end Command

end TransformStack
