import TransformStack.Proofs.Command.Commuting
import TransformStack.Proofs.Command.Recipes
import TransformStack.Proofs.Editor.History

/-!
# Commands in any order

New commands at different positions of an entity can be executed in any order: if all of them
succeed in one, all of them succeed in every other, and the layer they leave is the same. A command
that is executed moves the layer from one state to another, and moves of neighbours can be
exchanged.
-/

namespace TransformStack

/-! ## Rows of moves -/

namespace Command

variable {c : Command} {commands commands' : List Command} {before after : Layer}

/-- Executing a new command succeeds exactly if writing its value moves the layer, and leaves what
the layer is moved to. -/
theorem Ready.execute_iff (h : c.Ready) {s : Session} :
    (c.execute s).outcome = .ok () ∧ (c.execute s).session.layer = after ↔
      ∃ value, c.newValue = some value ∧ c.Moves value s.layer after := by
  obtain ⟨value, hvalue⟩ := h.value
  have hmoves : (∃ op tx, (c.write value).on (.start (s.signal .hold)) = (.ok op, tx) ∧
      tx.layer = after) ↔ c.Moves value s.layer after := write_iff h.op h.fits _
  have happly : (c.apply value s).outcome = .ok () ∧ (c.apply value s).session.layer = after ↔
      c.Moves value s.layer after := by
    rw [← hmoves]
    rcases apply_cases c value s with ⟨op, tx, hrun, happly⟩ | ⟨e, tx, hrun, happly⟩
    · rw [happly, hrun]
      simp [Session.signal]
    · rw [happly, hrun]
      simp
  have hexecute : (c.execute s).outcome = (c.apply value s).outcome ∧
      (c.execute s).session = (c.apply value s).session := by
    cases houtcome : (c.apply value s).outcome with
    | ok u =>
      rw [h.execute_of_ok hvalue houtcome]
      exact ⟨houtcome, rfl⟩
    | error e =>
      rw [h.execute_of_error hvalue houtcome]
      exact ⟨houtcome, rfl⟩
  rw [hexecute.1, hexecute.2, happly]
  constructor
  · exact fun h => ⟨value, hvalue, h⟩
  · rintro ⟨value', hvalue', h⟩
    rwa [Option.some.inj (hvalue.symm.trans hvalue')]

/-- Commands move a layer one after the other. -/
def MoveInTurn : List Command → Layer → Layer → Prop
  | [], before, after => before = after
  | c :: commands, before, after =>
    ∃ value mid, c.newValue = some value ∧ c.Moves value before mid ∧
      MoveInTurn commands mid after

/-- New commands on one entity can move a layer in any order if their positions are apart. -/
theorem MoveInTurn.perm (h : MoveInTurn commands before after) (hperm : commands.Perm commands')
    (hop : ∀ c ∈ commands, c.op = none) {id : EntityId} (hentity : ∀ c ∈ commands, c.entity = id)
    (hapart : commands.Pairwise fun c d => c.recipe.Apart d.recipe) :
    MoveInTurn commands' before after := by
  -- On the permutation: only the swap of two neighbours needs them to be apart.
  induction hperm generalizing before with
  | nil => exact h
  | cons c hperm ih =>
    obtain ⟨value, mid, hvalue, hmove, hrest⟩ := h
    refine ⟨value, mid, hvalue, hmove, ih hrest ?_ ?_ (List.pairwise_cons.1 hapart).2⟩
    · exact (List.forall_mem_cons.1 hop).2
    · exact (List.forall_mem_cons.1 hentity).2
  | swap c d commands =>
    obtain ⟨value, mid, hvalue, hmove, value', mid', hvalue', hmove', hrest⟩ := h
    simp only [List.mem_cons, forall_eq_or_imp] at hop hentity
    have hpair := List.rel_of_pairwise_cons hapart (List.mem_cons_self)
    obtain ⟨mid'', hfirst, hsecond⟩ :=
      hmove.swap hpair (hentity.2.1.trans hentity.1.symm) hop.1 hop.2.1 hmove'
    exact ⟨value', mid'', hvalue', hfirst, value, mid', hvalue, hsecond, hrest⟩
  | trans hperm _ ih ih' =>
    refine ih' (ih h hop hentity hapart) ?_ ?_ ?_
    · exact fun c hc => hop c (hperm.mem_iff.2 hc)
    · exact fun c hc => hentity c (hperm.mem_iff.2 hc)
    · exact (hperm.pairwise_iff fun h => h.symm).1 hapart

end Command

/-! ## Rows of executions -/

namespace Editor

variable {ed : Editor} {commands commands' : List Command} {id : EntityId}

/-- Take over commands of the host and execute them, up to the first that fails. -/
def submitAll (ed : Editor) : List Command → Except EditError Unit × Editor
  | [] => (.ok (), ed)
  | c :: commands =>
    match ed.submit (.single c) with
    | (.ok _, ed) => ed.submitAll commands
    | failed => failed

/-- Submitting a command leaves the layer that executing it leaves. -/
theorem layer_submit (ed : Editor) (command : AnyCommand) :
    (ed.submit command).2.layer = (command.execute ed.session).session.layer := by
  rw [submit_eq]
  dsimp only
  split <;> rfl

/-- New commands are all executed exactly if they move the layer one after the other. -/
theorem submitAll_iff (hready : ∀ c ∈ commands, c.Ready) {after : Layer} :
    (ed.submitAll commands).1 = .ok () ∧ (ed.submitAll commands).2.layer = after ↔
      Command.MoveInTurn commands ed.layer after := by
  -- On the row, with the editor as the commands before left it.
  induction commands generalizing ed with
  | nil => exact and_iff_right rfl
  | cons c commands ih =>
    obtain ⟨hc, hcommands⟩ := List.forall_mem_cons.1 hready
    have hlayer : (ed.submit (.single c)).2.layer = (c.execute ed.session).session.layer :=
      layer_submit ed (.single c)
    have houtcome : (ed.submit (.single c)).1 = (c.execute ed.session).outcome :=
      outcome_submit ed (.single c)
    have hexecute (mid : Layer) : (c.execute ed.session).outcome = .ok () ∧
        (c.execute ed.session).session.layer = mid ↔
          ∃ value, c.newValue = some value ∧ c.Moves value ed.layer mid := hc.execute_iff
    unfold submitAll Command.MoveInTurn
    rcases hsubmit : ed.submit (.single c) with ⟨e | u, ed'⟩ <;> rw [hsubmit] at hlayer houtcome
    · refine iff_of_false (fun h => nomatch h.1) ?_
      rintro ⟨value, mid, hvalue, hmove, -⟩
      have hok := ((hexecute mid).2 ⟨value, hvalue, hmove⟩).1
      cases houtcome.trans hok
    · dsimp only
      rw [ih hcommands]
      constructor
      · intro hrest
        obtain ⟨value, hvalue, hmove⟩ := (hexecute _).1 ⟨houtcome.symm, hlayer.symm⟩
        exact ⟨value, ed'.layer, hvalue, hmove, hrest⟩
      · rintro ⟨value, mid, hvalue, hmove, hrest⟩
        have hmid := ((hexecute mid).2 ⟨value, hvalue, hmove⟩).2
        rwa [hlayer.trans hmid]

/-- If new commands at different positions of an entity can all be executed in one order, all of
them can be executed in every other, and leave the same store and the same refusals. -/
theorem submitAll_perm (hfresh : ∀ c ∈ commands, (AnyCommand.single c).Fresh)
    (hentity : ∀ c ∈ commands, c.entity = id)
    (hpositions : commands.Pairwise fun c d => c.recipe.position ≠ d.recipe.position)
    (hok : (ed.submitAll commands).1 = .ok ()) (hperm : commands.Perm commands') :
    (ed.submitAll commands').1 = .ok () ∧
      (ed.submitAll commands').2.layer = (ed.submitAll commands).2.layer := by
  have hready : ∀ c ∈ commands, c.Ready := fun c hc => (hfresh c hc).ready
  have hready' : ∀ c ∈ commands', c.Ready := fun c hc => hready c (hperm.mem_iff.2 hc)
  have hapart : commands.Pairwise fun c d => c.recipe.Apart d.recipe := by
    refine hpositions.imp_of_mem fun hc hd hne => ?_
    have hplain := (hfresh _ hc).plain
    have hplain' := (hfresh _ hd).plain
    exact ⟨hplain.fits, hplain.upright, hplain'.fits, hplain'.upright, hne⟩
  have hmoves := (submitAll_iff hready).1 ⟨hok, rfl⟩
  have hop : ∀ c ∈ commands, c.op = none := fun c hc => (hready c hc).op
  exact (submitAll_iff hready').2 (hmoves.perm hperm hop hentity hapart)

/-- The commands that views of the bare store offer for the scale pivot and the scale of its
entity. -/
def scaling : List Command :=
  let part (recipe : Recipe) : Command :=
    Command.withValue { entity := default, recipe, converter := .vector } .one
  [part ⟨.scalePivot, .translate, .float⟩, part ⟨.scale, .scale, .float⟩]

/-- The commands of the example are fresh. -/
theorem fresh_scaling : ∀ c ∈ scaling, (AnyCommand.single c).Fresh := by
  have hpivot : StackView.offerAt ⟨default, .default⟩ .bare .scalePivot .one =
      .ok (.ok (scaling.get ⟨0, by decide⟩)) := rfl
  have hscale : StackView.offerAt ⟨default, .default⟩ .bare .scale .one =
      .ok (.ok (scaling.get ⟨1, by decide⟩)) := rfl
  intro c hc
  rcases List.mem_cons.1 hc with rfl | hc
  · exact .offered hpivot
  · obtain rfl := List.mem_singleton.1 hc
    exact .offered hscale

/-- On a bare store a pivot pair, a scale and a translation are made from the last to the first. -/
theorem submitAll_perm_on_bare :
    let ed := start { store := .bare } 2 .default
    let commands := scaling ++ [AnyCommand.translation]
    (ed.submitAll commands).1 = .ok () ∧ (ed.submitAll commands.reverse).1 = .ok () ∧
      (ed.submitAll commands.reverse).2.layer = (ed.submitAll commands).2.layer := by
  intro ed commands
  have hok : (ed.submitAll commands).1 = .ok () := by decide +kernel
  have hfresh : ∀ c ∈ commands, (AnyCommand.single c).Fresh := by
    intro c hc
    rcases List.mem_append.1 hc with hc | hc
    · exact fresh_scaling c hc
    · obtain rfl := List.mem_singleton.1 hc
      exact AnyCommand.fresh_translation
  have hentity : ∀ c ∈ commands, c.entity = default := by decide +kernel
  have hpositions : commands.Pairwise fun c d => c.recipe.position ≠ d.recipe.position := by
    decide +kernel
  exact ⟨hok, submitAll_perm hfresh hentity hpositions hok commands.reverse_perm.symm⟩

end Editor

end TransformStack
