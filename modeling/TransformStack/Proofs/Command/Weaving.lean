import TransformStack.Proofs.Command.Effects
import TransformStack.Proofs.Command.Interleaving
import TransformStack.Proofs.Edit.Resuming

/-!
# Two commands keep an order readable

What a command arranged is a frame on top of the frames that were there when it made its op. As
long as the order attribute is declared as a list of tokens, undoing a command takes its frame off,
and leads to a store that differs from the one below in values only; so frames must be taken off
from the top. A command whose op was found has no frame, and its op stands below all frames. If the
order attribute is declared as something else, no frame can be taken off, and the order never loses
an op.
-/

namespace TransformStack

/-! ## Undoing -/

/-- An edit that cannot be reverted stays, with all that are older. -/
theorem Journal.revert_stuck {edit : Edit} {older : Journal} {s : Session}
    (h : ∀ s', edit.revert s.store ≠ .ok (some s')) :
    ∃ e, Journal.revert (edit :: older) s = ((.error e, edit :: older), s) := by
  obtain ⟨e, hfails⟩ := (edit.reverts_or_fails s.store).resolve_left (not_exists.2 h)
  exact ⟨e, Journal.revert_of_fails hfails older⟩

namespace Command

variable {c : Command} {s : Session}

/-- No call moves a command away from its position. -/
theorem At.call {id : EntityId} {p : Position} (h : c.At id p) (s : Session)
    (call : CommandCall) : (c.call s call).command.At id p := by
  cases call with
  | set value => exact h.set value s
  | setValue value => exact h.setValue value s
  | execute => exact h.execute s
  | undo => exact h.undo s
  | redo => exact h.redo s

/-- A journal of an applied command that first takes values back: what it wrote to an op, and what
is left of arranging. -/
structure Written (c : Command) (id : EntityId) (op : Op) (arranging : Journal) : Prop where
  remembers : c.op = some op
  journal : ∃ values : Journal, (∀ edit ∈ values, edit.IsValue id op) ∧
    c.journal = values ++ arranging

/-- A first write leaves a journal with one value on top of what was arranged. -/
theorem Written.of_first {id : EntityId} {op : Op} {arranging : Journal} {edit : Edit}
    (hop : c.op = some op) (hvalue : edit.IsValue id op)
    (hjournal : c.journal = edit :: arranging) : c.Written id op arranging :=
  ⟨hop, [edit], List.forall_mem_singleton.2 hvalue, hjournal⟩

/-- Another write puts another value on top of the journal. -/
theorem Written.cons {id : EntityId} {op : Op} {arranging : Journal} {c' : Command} {edit : Edit}
    (h : c.Written id op arranging) (hop : c'.op = some op) (hvalue : edit.IsValue id op)
    (hjournal : c'.journal = edit :: c.journal) : c'.Written id op arranging := by
  obtain ⟨values, hvalues, hwritten⟩ := h.journal
  refine ⟨hop, edit :: values, List.forall_mem_cons.2 ⟨hvalue, hvalues⟩, ?_⟩
  rw [hjournal, hwritten, List.cons_append]

/-- What a command has written depends on its op and its journal. -/
theorem Written.congr {id : EntityId} {op : Op} {arranging : Journal} {c' : Command}
    (h : c.Written id op arranging) (hop : c'.op = c.op) (hjournal : c'.journal = c.journal) :
    c'.Written id op arranging :=
  ⟨hop.trans h.remembers, by rw [hjournal]; exact h.journal⟩

/-- Undoing a command comes to taking back what is left of arranging on a store that is alike, or it
stops before that. -/
theorem Written.undo {id : EntityId} {op : Op} {arranging : Journal}
    (h : c.Written id op arranging) :
    (∃ session : Session, session.store.Alike id s.store ∧
      c.journal.revert (s.signal .hold) = arranging.revert session) ∨
    (∃ e journal s', c.journal.revert (s.signal .hold) = ((.error e, journal), s') ∧
      s'.store.Alike id s.store ∧ { c with journal }.Written id op arranging) := by
  obtain ⟨values, hvalues, hjournal⟩ := h.journal
  rw [hjournal]
  rcases Journal.revert_values hvalues arranging (s.signal .hold) with
    ⟨session, halike, hrevert⟩ | ⟨e, remaining, hsuffix, hrevert, halike⟩
  · exact .inl ⟨session, halike, hrevert⟩
  · refine .inr ⟨e, remaining ++ arranging, _, Prod.ext hrevert rfl, halike, h.remembers,
      remaining, ?_, rfl⟩
    exact fun edit hedit => hvalues edit (hsuffix.subset hedit)

end Command

/-! ## Frames -/

/-- What the command of a side arranged, and the op it made by that. -/
structure Frame where
  side : Side
  op : Op
  journal : Journal

variable {id : EntityId} {p : Side → Position} {base s s' : Store} {order₀ : OpOrder}
  {frames : List Frame}

/-- The store is what arranging made of a base, one frame after the other, the newest first, but for
the values of ops. -/
def Stacked (id : EntityId) (p : Side → Position) (base : Store) : List Frame → Store → Prop
  | [], s => s.Alike id base
  | f :: frames, s => ∃ before after, s.Alike id after ∧
      Arranged id (p f.side) f.op f.journal before after ∧ Stacked id p base frames before

/-- What an order holds on top of frames: the ops of the base and those of the frames, and else only
ops at positions of the frames. -/
structure OpOrder.Covers (p : Side → Position) (order₀ : OpOrder) (frames : List Frame)
    (order : OpOrder) : Prop where
  base : ∀ op ∈ order₀.ops, op ∈ order.ops
  made : ∀ f ∈ frames, f.op ∈ order.ops
  missing : ∀ f ∈ frames, order₀.at? (p f.side) = none
  adds : ∀ op ∈ order.ops, op ∈ order₀.ops ∨
    ∃ f ∈ frames, ∃ q, Position.ofOp? op = some q ∧ q.InPair (p f.side)

namespace Stacked

/-- Frames are stacked up to the values of ops. -/
theorem alike (h : Stacked id p base frames s) (halike : s'.Alike id s) :
    Stacked id p base frames s' := by
  cases frames with
  | nil => exact halike.trans h
  | cons f frames =>
    obtain ⟨before, after, hafter, hrest⟩ := h
    exact ⟨before, after, halike.trans hafter, hrest⟩

/-- With the order of the base, the orders on top of it are typed. -/
theorem typed (htyped : base.OrderTyped id) (h : Stacked id p base frames s) :
    s.OrderTyped id := by
  induction frames generalizing s with
  | nil => exact h.orderTyped htyped
  | cons f frames ih =>
    obtain ⟨before, after, halike, harranged, hrest⟩ := h
    exact halike.orderTyped (harranged.takesBack (ih hrest)).2

/-- With the order of the base, the orders on top of it can be read. -/
theorem order (hbase : base.order id = .ok order₀) (h : Stacked id p base frames s) :
    ∃ order, s.order id = .ok order ∧ order₀.Covers p frames order := by
  -- On the frames, the newest first: each grows the order that those below it leave.
  induction frames generalizing s with
  | nil =>
    refine ⟨order₀, h.order_eq.trans hbase, fun _ hop => hop, ?_, ?_, fun _ => .inl⟩
    · exact fun _ hf => nomatch hf
    · exact fun _ hf => nomatch hf
  | cons f frames ih =>
    obtain ⟨before, after, halike, harranged, hrest⟩ := h
    obtain ⟨order, horder, hcovers⟩ := ih hrest
    obtain ⟨order', after', horder', hafter', hmissing, hgrown, hop⟩ := harranged.order
    obtain rfl : order = order' := Except.ok.inj (horder.symm.trans horder')
    refine ⟨after', halike.order_eq.trans hafter', ?_, ?_, ?_, ?_⟩
    · exact fun op hop => hgrown.keeps op (hcovers.base op hop)
    · exact List.forall_mem_cons.2 ⟨hop, fun f hf => hgrown.keeps _ (hcovers.made f hf)⟩
    · refine List.forall_mem_cons.2 ⟨?_, hcovers.missing⟩
      rw [OpOrder.at?, List.find?_eq_none] at hmissing ⊢
      exact fun op hop => hmissing op (hcovers.base op hop)
    · intro op hop
      rcases hgrown.adds op hop with hold | ⟨q, hplace, hpair⟩
      · rcases hcovers.adds op hold with hbase | ⟨g, hg, hadded⟩
        · exact .inl hbase
        · exact .inr ⟨g, List.mem_cons_of_mem _ hg, hadded⟩
      · exact .inr ⟨f, List.mem_cons_self, q, hplace, hpair⟩

end Stacked

/-! ## Commands above frames -/

/-- Where the command of a side stands: it has not written anything, or its op was made by a frame,
or its op stands below the frames. -/
inductive Holding (id : EntityId) (order₀ : OpOrder) (frames : List Frame) (side : Side)
    (c : Command) : Prop where
  | idle (hstate : c.state.isApplied = false) (hjournal : c.journal = [])
      (hframe : side ∉ frames.map Frame.side)
  | framed {op : Op} {journal : Journal} (hstate : c.state.isApplied)
      (hwritten : c.Written id op journal) (hframe : ⟨side, op, journal⟩ ∈ frames)
  | based {op : Op} (hstate : c.state.isApplied) (hwritten : c.Written id op [])
      (hframe : side ∉ frames.map Frame.side) (hbase : op ∈ order₀.ops)

namespace Holding

variable {side : Side} {c c' : Command} {f : Frame}

/-- A frame of the other side is of no concern. -/
theorem push (h : Holding id order₀ frames side c) (hne : side ≠ f.side) :
    Holding id order₀ (f :: frames) side c := by
  cases h with
  | idle hstate hjournal hframe =>
    exact .idle hstate hjournal (by simpa [hne] using hframe)
  | framed hstate hwritten hframe => exact .framed hstate hwritten (List.mem_cons_of_mem _ hframe)
  | based hstate hwritten hframe hbase =>
    exact .based hstate hwritten (by simpa [hne] using hframe) hbase

/-- A command that does not stand on the top frame stands where it did once the frame is gone. -/
theorem pop (h : Holding id order₀ (f :: frames) side c) (hne : side ≠ f.side) :
    Holding id order₀ frames side c := by
  cases h with
  | idle hstate hjournal hframe =>
    exact .idle hstate hjournal (List.not_mem_of_not_mem_cons hframe)
  | framed hstate hwritten hframe =>
    rcases List.mem_cons.1 hframe with rfl | hframe
    · exact absurd rfl hne
    · exact .framed hstate hwritten hframe
  | based hstate hwritten hframe hbase =>
    exact .based hstate hwritten (List.not_mem_of_not_mem_cons hframe) hbase

/-- Where a command stands depends on its state, its op and its journal. -/
theorem congr (h : Holding id order₀ frames side c)
    (hstate : c'.state.isApplied = c.state.isApplied) (hop : c'.op = c.op)
    (hjournal : c'.journal = c.journal) : Holding id order₀ frames side c' := by
  cases h with
  | idle hidle hnone hframe => exact .idle (hstate.trans hidle) (hjournal.trans hnone) hframe
  | framed happlied hwritten hframe =>
    exact .framed (hstate.trans happlied) (hwritten.congr hop hjournal) hframe
  | based happlied hwritten hframe hbase =>
    exact .based (hstate.trans happlied) (hwritten.congr hop hjournal) hframe hbase

/-- The op of an applied command is in every order that covers the frames. -/
theorem mem_order (h : Holding id order₀ frames side c) (hstate : c.state.isApplied)
    {order : OpOrder} (hcovers : order₀.Covers p frames order) :
    ∃ op, c.op = some op ∧ op ∈ order.ops := by
  cases h with
  | idle hidle hjournal hframe =>
    rw [hidle] at hstate
    cases hstate
  | framed hstate hwritten hframe =>
    exact ⟨_, hwritten.remembers, hcovers.made _ hframe⟩
  | based hstate hwritten hframe hbase =>
    exact ⟨_, hwritten.remembers, hcovers.base _ hbase⟩

/-- A value is written to an op that is found: the op of the frame or of the base, and to none but
one of the base if the command has not written anything. -/
theorem found (h : Holding id order₀ frames side c) (hat : c.At id (p side))
    (hapart : ∀ side', side' ≠ side → ¬(p side).InPair (p side')) {order : OpOrder}
    (hcovers : order₀.Covers p frames order) {op : Op} {edit : Edit}
    (hstate : c'.state.isApplied) (hfound : c.opIn? order = some op) (hop : c'.op = some op)
    (hvalue : edit.IsValue id op) (hjournal : c'.journal = edit :: c.journal) :
    Holding id order₀ frames side c' := by
  cases h with
  | idle hidle hnone hframe =>
    have hwritten : c'.Written id op [] := .of_first hop hvalue (hjournal.trans (hnone ▸ rfl))
    refine .based hstate hwritten hframe ?_
    rcases hcovers.adds op (Command.mem_of_opIn? hfound) with hbase | ⟨f, hf, q, hplace, hpair⟩
    · exact hbase
    · obtain rfl : q = p side :=
        Option.some.inj (hplace.symm.trans (hat.ofOp?_of_opIn? hfound))
      have hne : f.side ≠ side := fun hsame => hframe (hsame ▸ List.mem_map_of_mem hf)
      exact absurd hpair (hapart f.side hne)
  | @framed op' journal happlied hwritten hframe =>
    have hsame := Command.opIn?_of_mem hwritten.remembers (hcovers.made _ hframe)
    obtain rfl : op' = op := Option.some.inj (hsame.symm.trans hfound)
    exact .framed hstate (hwritten.cons hop hvalue hjournal) hframe
  | @based op' happlied hwritten hframe hbase =>
    have hsame := Command.opIn?_of_mem hwritten.remembers (hcovers.base _ hbase)
    obtain rfl : op' = op := Option.some.inj (hsame.symm.trans hfound)
    exact .based hstate (hwritten.cons hop hvalue hjournal) hframe hbase

/-- A command that is not applied has no journal and no frame. -/
theorem frame_of_idle (h : Holding id order₀ frames side c) (hidle : c.state.isApplied = false) :
    c.journal = [] ∧ side ∉ frames.map Frame.side := by
  cases h with
  | idle _ hnone hframe => exact ⟨hnone, hframe⟩
  | framed happlied => cases hidle.symm.trans happlied
  | based happlied => cases hidle.symm.trans happlied

/-- A command that finds no op has not written anything. -/
theorem idle_of_missing (h : Holding id order₀ frames side c) {order : OpOrder}
    (hcovers : order₀.Covers p frames order) (hmissing : c.opIn? order = none) :
    c.state.isApplied = false ∧ c.journal = [] ∧ side ∉ frames.map Frame.side := by
  cases h with
  | idle hidle hnone hframe => exact ⟨hidle, hnone, hframe⟩
  | framed happlied hwritten hframe =>
    have hsome := Command.opIn?_of_mem hwritten.remembers (hcovers.made _ hframe)
    cases hmissing.symm.trans hsome
  | based happlied hwritten hframe hbase =>
    have hsome := Command.opIn?_of_mem hwritten.remembers (hcovers.base _ hbase)
    cases hmissing.symm.trans hsome

end Holding

namespace Duo

variable {d : Duo} {side side' : Side}

/-! ## What no call changes -/

/-- The commands edit ops at positions of one entity. -/
structure Placed (d : Duo) (id : EntityId) (p : Side → Position) : Prop where
  places : ∀ side, (d.commands side).At id (p side)
  plain : ∀ side, (d.commands side).recipe.Plain

/-- A call on a side leaves there what it leaves of the command. -/
theorem commands_call_self (d : Duo) (side : Side) (call : CommandCall) :
    (d.call side call).commands side = ((d.commands side).call { layer := d.layer } call).command :=
  Function.update_self ..

/-- A call on a side leaves the command of the other. -/
theorem commands_call_of_ne (d : Duo) (call : CommandCall) (hne : side' ≠ side) :
    (d.call side call).commands side' = d.commands side' :=
  Function.update_of_ne hne ..

/-- No call moves the commands away from their positions. -/
theorem Placed.call (h : d.Placed id p) (side : Side) (call : CommandCall) :
    (d.call side call).Placed id p := by
  refine ⟨fun side' => ?_, fun side' => ?_⟩ <;> by_cases hside : side' = side
  · subst hside
    rw [commands_call_self]
    exact (h.places side').call _ call
  · rw [commands_call_of_ne d call hside]
    exact h.places side'
  · subst hside
    have hbare := Command.bare_call (d.commands side') { layer := d.layer } call
    rw [commands_call_self, (Command.bare_eq_iff.1 hbare).2.1]
    exact h.plain side'
  · rw [commands_call_of_ne d call hside]
    exact h.plain side'

/-! ## Typed orders -/

/-- The commands stand on frames over a base, at most one of each side, and the frame on top of the
other is that of the command that was applied last. -/
structure Woven (d : Duo) (id : EntityId) (p : Side → Position) (base : Store) (order₀ : OpOrder)
    (frames : List Frame) : Prop where
  stacked : Stacked id p base frames d.layer.store
  nodup : (frames.map Frame.side).Nodup
  holds : ∀ side, Holding id order₀ frames side (d.commands side)
  latest : ∀ f g rest, frames = f :: g :: rest → d.latest = f.side

namespace Woven

/-- A call on one of the commands leaves the other, so it is enough to see to the command that is
called. -/
theorem of_call {call : CommandCall} {frames' : List Frame} (h : d.Woven id p base order₀ frames)
    (hstacked : Stacked id p base frames' (d.call side call).layer.store)
    (hnodup : (frames'.map Frame.side).Nodup)
    (hside : Holding id order₀ frames' side
      ((d.commands side).call { layer := d.layer } call).command)
    (hother : ∀ side', side' ≠ side → Holding id order₀ frames side' (d.commands side') →
      Holding id order₀ frames' side' (d.commands side'))
    (hlatest : ∀ f g rest, frames' = f :: g :: rest → (d.call side call).latest = f.side) :
    (d.call side call).Woven id p base order₀ frames' := by
  refine ⟨hstacked, hnodup, fun side' => ?_, hlatest⟩
  by_cases hne : side' = side
  · subst hne
    rw [commands_call_self]
    exact hside
  · rw [commands_call_of_ne d call hne]
    exact hother side' hne (h.holds side')

/-- A call that does not make its command stand applied leaves which one was applied last. -/
theorem latest_call {call : CommandCall} (hsame : (d.commands side).state.isApplied = false →
      ((d.commands side).call { layer := d.layer } call).command.state.isApplied = false) :
    (d.call side call).latest = d.latest := by
  refine if_neg ?_
  rintro ⟨hbefore, hafter⟩
  rw [hsame hbefore] at hafter
  cases hafter

/-- A call by which a command comes to stand applied makes it the latest. -/
theorem latest_call_of_applied {call : CommandCall}
    (hbefore : (d.commands side).state.isApplied = false)
    (hafter : ((d.commands side).call { layer := d.layer } call).command.state.isApplied) :
    (d.call side call).latest = side :=
  if_pos ⟨hbefore, hafter⟩

/-- A command with a frame stands applied. -/
theorem applied_of_frame (h : d.Woven id p base order₀ frames)
    (hframe : side ∈ frames.map Frame.side) : (d.commands side).state.isApplied := by
  cases h.holds side with
  | idle hstate hjournal hnone => exact absurd hframe hnone
  | framed hstate hwritten _ => exact hstate
  | based hstate hwritten hnone hbase => exact hstate

/-- There are no three sides. -/
theorem not_three {a b c : Side} (hab : a ≠ b) (hac : a ≠ c) (hbc : b ≠ c) : False := by
  cases a <;> cases b <;> cases c <;> contradiction

variable (hplaced : d.Placed id p)
  (hapart : ∀ side side', side' ≠ side → ¬(p side).InPair (p side'))
  (hbase : base.order id = .ok order₀) (htyped : base.OrderTyped id)

include hplaced hapart hbase htyped

/-- A call but undoing finds the op, or puts a frame on top. -/
theorem attempt (h : d.Woven id p base order₀ frames) {call : CommandCall} (hundo : call ≠ .undo) :
    ∃ frames', (d.call side call).Woven id p base order₀ frames' := by
  obtain ⟨order, horder, hcovers⟩ := h.stacked.order hbase
  have hat := hplaced.places side
  have hholds := h.holds side
  have heffect := Command.effect_call (s := { layer := d.layer }) (hplaced.plain side)
    (hat.entity.symm ▸ horder) hundo
  rw [hat.entity, hat.recipe] at heffect
  cases heffect with
  | stays happlied hop hjournal hsame _ =>
    have hstore : (d.call side call).layer.store = d.layer.store := hsame (h.stacked.typed htyped)
    refine ⟨frames, h.of_call (hstore ▸ h.stacked) h.nodup (hholds.congr happlied hop hjournal)
      (fun _ _ hother => hother) fun f g rest hframes => ?_⟩
    rw [latest_call fun hidle => happlied.trans hidle]
    exact h.latest f g rest hframes
  | found happlied hfound hop hvalue hjournal halike =>
    refine ⟨frames, h.of_call (h.stacked.alike halike) h.nodup
      (hholds.found hat (hapart side) hcovers happlied hfound hop hvalue hjournal)
      (fun _ _ hother => hother) fun f g rest hframes => ?_⟩
    cases hstate : (d.commands side).state.isApplied with
    | true =>
      rw [latest_call fun hidle => nomatch hstate.symm.trans hidle]
      exact h.latest f g rest hframes
    | false =>
      -- The command had no frame, so there is one of the other command at most.
      have hframe := (hholds.frame_of_idle hstate).2
      have hnodup := h.nodup
      subst hframes
      simp only [List.map_cons, List.mem_cons, List.nodup_cons, not_or] at hframe hnodup
      exact (not_three hframe.1 hframe.2.1 hnodup.1.1).elim
  | @made op edit journal mid happlied hmissing harranged hop hvalue hjournal halike =>
    obtain ⟨hidle, hnone, hframe⟩ := hholds.idle_of_missing hcovers hmissing
    have hwritten : ((d.commands side).call { layer := d.layer } call).command.Written id op
        journal := .of_first hop hvalue (by rw [hjournal, hnone, List.append_nil])
    refine ⟨⟨side, op, journal⟩ :: frames, h.of_call
      ⟨d.layer.store, mid, halike, harranged, h.stacked⟩
      (List.nodup_cons.2 ⟨hframe, h.nodup⟩) (.framed happlied hwritten List.mem_cons_self)
      (fun _ hne hother => hother.push hne) ?_⟩
    rintro f g rest hframes
    obtain ⟨rfl, -⟩ := List.cons.inj hframes
    exact latest_call_of_applied hidle happlied

omit hplaced hapart htyped in
/-- The frame of the command that was applied last is on top, if the order had no op for one of the
commands. -/
theorem top_of_newest (h : d.Woven id p base order₀ frames)
    (hnewest : (∃ side, (order₀.at? (p side)).isSome) ∨ d.Newest side) {f : Frame}
    (hframe : f ∈ frames) (hside : f.side = side) : ∃ below, frames = f :: below := by
  obtain ⟨order, -, hcovers⟩ := h.stacked.order hbase
  cases frames with
  | nil => cases hframe
  | cons top frames =>
    rcases List.mem_cons.1 hframe with rfl | hbelow
    · exact ⟨frames, rfl⟩
    -- With a frame of the other command on top, both commands stand applied.
    have hne : top.side ≠ side := by
      intro hsame
      have hnodup := h.nodup
      rw [List.map_cons, List.nodup_cons] at hnodup
      exact hnodup.1 (hsame.trans hside.symm ▸ List.mem_map_of_mem hbelow)
    have hframes : ∀ side', ∃ g ∈ top :: frames, g.side = side' := by
      intro side'
      by_cases htop : top.side = side'
      · exact ⟨top, List.mem_cons_self, htop⟩
      · refine ⟨f, hframe, ?_⟩
        by_contra hother
        exact not_three hne htop (hside ▸ hother)
    cases frames with
    | nil => cases hbelow
    | cons g rest =>
      rcases hnewest with ⟨side', hsome⟩ | hnewest
      · obtain ⟨g', hg', rfl⟩ := hframes side'
        rw [hcovers.missing g' hg'] at hsome
        cases hsome
      · have hlatest : d.latest = side := by
          refine hnewest fun side' => ?_
          obtain ⟨g', hg', rfl⟩ := hframes side'
          exact h.applied_of_frame (List.mem_map_of_mem hg')
        exact absurd ((h.latest top g rest rfl).symm.trans hlatest) hne

omit hplaced hapart htyped hbase in
/-- Undoing does not make a command the latest. -/
theorem latest_undo : (d.call side .undo).latest = d.latest := by
  refine latest_call fun hidle => ?_
  have hundo : (d.commands side).call { layer := d.layer } .undo = _ := Command.undo_idle hidle
  rw [hundo]
  exact hidle

omit hplaced hapart htyped hbase in
/-- Undoing that takes back values at most leaves the frames. -/
theorem undo_values (h : d.Woven id p base order₀ frames) {outcome : Except EditError Unit}
    {c' : Command} {s' : Session}
    (hundo : (d.commands side).undo { layer := d.layer } = ⟨outcome, c', s'⟩)
    (halike : s'.store.Alike id d.layer.store) (hside : Holding id order₀ frames side c') :
    (d.call side .undo).Woven id p base order₀ frames := by
  have hcall : (d.commands side).call { layer := d.layer } .undo = ⟨outcome, c', s'⟩ := hundo
  have hstore : (d.call side .undo).layer.store = s'.store := by
    show ((d.commands side).call { layer := d.layer } .undo).session.layer.store = s'.store
    rw [hcall]
    rfl
  refine h.of_call (hstore ▸ h.stacked.alike halike) h.nodup ?_ (fun _ _ hother => hother)
    fun f g rest hframes => latest_undo.trans (h.latest f g rest hframes)
  rw [hcall]
  exact hside

omit hplaced hapart hbase in
/-- Undoing the command of the frame on top takes the frame off. -/
theorem undo_top {f : Frame} {below : List Frame}
    (h : d.Woven id p base order₀ (f :: below)) (happlied : (d.commands f.side).state.isApplied)
    {session : Session} (halike : session.store.Alike id d.layer.store)
    (hrevert : (d.commands f.side).journal.revert (Session.signal { layer := d.layer } .hold) =
      f.journal.revert session) :
    (d.call f.side .undo).Woven id p base order₀ below := by
  obtain ⟨before, after, hafter, harranged, hbelow⟩ := h.stacked
  obtain ⟨hok, hback⟩ := (harranged.takesBack (hbelow.typed htyped)).1.revert_alike
    harranged.arranging (halike.trans hafter)
  have hundo : (d.commands f.side).call { layer := d.layer } .undo = _ :=
    Command.undo_of_ok happlied (hrevert.trans (Prod.ext hok rfl))
  have hnodup := h.nodup
  rw [List.map_cons, List.nodup_cons] at hnodup
  refine h.of_call ?_ hnodup.2 ?_ (fun _ hne hother => hother.pop hne) fun g g' rest hframes => ?_
  · show Stacked id p base below
      ((d.commands f.side).call { layer := d.layer } .undo).session.store
    rw [hundo]
    exact hbelow.alike hback
  · rw [hundo]
    exact .idle rfl rfl hnodup.1
  · subst hframes
    simp only [List.map_cons, List.mem_cons, List.nodup_cons, not_or] at hnodup
    exact (not_three hnodup.1.1 hnodup.1.2.1 hnodup.2.1.1).elim

omit hplaced hapart in
/-- Undoing the command that was applied last takes its frame off, if it has one. Undoing a command
without a frame leaves the frames. -/
theorem undo (h : d.Woven id p base order₀ frames)
    (hnewest : (∃ side, (order₀.at? (p side)).isSome) ∨ d.Newest side) :
    ∃ frames', (d.call side .undo).Woven id p base order₀ frames' := by
  cases h.holds side with
  | idle hidle hnone hframe =>
    exact ⟨frames, h.undo_values (Command.undo_idle hidle) (.refl _) (.idle hidle hnone hframe)⟩
  | framed happlied hwritten hframe =>
    rcases hwritten.undo (s := { layer := d.layer }) with
      ⟨session, halike, hrevert⟩ | ⟨e, journal', s', hrevert, halike, hwritten'⟩
    · obtain ⟨below, rfl⟩ := h.top_of_newest hbase hnewest hframe rfl
      exact ⟨below, h.undo_top htyped happlied halike hrevert⟩
    · exact ⟨frames, h.undo_values (Command.undo_of_error happlied hrevert) halike
        (.framed happlied hwritten' hframe)⟩
  | based happlied hwritten hframe hop =>
    rcases hwritten.undo (s := { layer := d.layer }) with
      ⟨session, halike, hrevert⟩ | ⟨e, journal', s', hrevert, halike, hwritten'⟩
    · exact ⟨frames, h.undo_values (Command.undo_of_ok happlied hrevert) halike
        (.idle rfl rfl hframe)⟩
    · exact ⟨frames, h.undo_values (Command.undo_of_error happlied hrevert) halike
        (.based happlied hwritten' hframe hop)⟩

end Woven

/-! ## Orders declared as something else -/

/-- The command has not written anything, or its op is in the order, and what is left of arranging
starts with tokens that are to be put back. -/
inductive Stranded (id : EntityId) (order : OpOrder) (c : Command) : Prop where
  | idle (hstate : c.state.isApplied = false) (hjournal : c.journal = [])
  | written {op : Op} {journal : Journal} (hstate : c.state.isApplied)
      (hwritten : c.Written id op journal) (hop : op ∈ order.ops)
      (hjournal : journal = [] ∨ ∃ names older,
        journal = .changed id Op.orderName .default (some (.tokens names)) :: older)

namespace Stranded

variable {order order' : OpOrder} {c c' : Command}

/-- A command that can lose no op can lose none when more ops are there. -/
theorem mono (h : Stranded id order c) (hops : ∀ op ∈ order.ops, op ∈ order'.ops) :
    Stranded id order' c := by
  cases h with
  | idle hstate hjournal => exact .idle hstate hjournal
  | written hstate hwritten hop hjournal => exact .written hstate hwritten (hops _ hop) hjournal

/-- Whether a command can lose its op depends on its state, its op and its journal. -/
theorem congr (h : Stranded id order c) (hstate : c'.state.isApplied = c.state.isApplied)
    (hop : c'.op = c.op) (hjournal : c'.journal = c.journal) : Stranded id order c' := by
  cases h with
  | idle hidle hnone => exact .idle (hstate.trans hidle) (hjournal.trans hnone)
  | written happlied hwritten hmem hrest =>
    exact .written (hstate.trans happlied) (hwritten.congr hop hjournal) hmem hrest

/-- A value is written to an op that is found. -/
theorem found (h : Stranded id order c) {op : Op} {edit : Edit} (hstate : c'.state.isApplied)
    (hfound : c.opIn? order = some op) (hop : c'.op = some op) (hvalue : edit.IsValue id op)
    (hjournal : c'.journal = edit :: c.journal) : Stranded id order c' := by
  cases h with
  | idle hidle hnone =>
    have hwritten : c'.Written id op [] := .of_first hop hvalue (hjournal.trans (hnone ▸ rfl))
    exact .written hstate hwritten (Command.mem_of_opIn? hfound) (.inl rfl)
  | @written op' journal happlied hwritten hmem hrest =>
    have hsame := Command.opIn?_of_mem hwritten.remembers hmem
    obtain rfl : op' = op := Option.some.inj (hsame.symm.trans hfound)
    exact .written hstate (hwritten.cons hop hvalue hjournal) hmem hrest

/-- A command whose op is missing has written nothing. -/
theorem idle_of_missing (h : Stranded id order c) (hmissing : c.opIn? order = none) :
    c.journal = [] := by
  cases h with
  | idle hstate hjournal => exact hjournal
  | written hstate hwritten hop hjournal =>
    cases hmissing.symm.trans (Command.opIn?_of_mem hwritten.remembers hop)

end Stranded

/-- The order attribute is declared as something else, and the order has the op of each command that
stands applied. -/
structure Stuck (d : Duo) (id : EntityId) : Prop where
  mistyped : d.layer.store.OrderMistyped id
  holds : ∃ order, d.layer.store.order id = .ok order ∧
    ∀ side, Stranded id order (d.commands side)

namespace Stuck

/-- A call leads to a store where the order has lost no op. -/
theorem of_call (h : d.Stuck id) {call : CommandCall} {outcome : Except EditError Unit}
    {c' : Command} {s' : Session} {order order' : OpOrder}
    (hcall : (d.commands side).call { layer := d.layer } call = ⟨outcome, c', s'⟩)
    (hmistyped : s'.store.OrderMistyped id) (horder : d.layer.store.order id = .ok order)
    (horder' : s'.store.order id = .ok order') (hops : ∀ op ∈ order.ops, op ∈ order'.ops)
    (hside : Stranded id order' c') : (d.call side call).Stuck id := by
  obtain ⟨order₁, horder₁, hholds⟩ := h.holds
  obtain rfl : order = order₁ := Except.ok.inj (horder.symm.trans horder₁)
  have hstore : (d.call side call).layer.store = s'.store := by
    show ((d.commands side).call { layer := d.layer } call).session.layer.store = s'.store
    rw [hcall]
    rfl
  refine ⟨hstore ▸ hmistyped, order', hstore ▸ horder', fun side' => ?_⟩
  by_cases hne : side' = side
  · subst hne
    rw [commands_call_self, hcall]
    exact hside
  · rw [commands_call_of_ne d call hne]
    exact (hholds side').mono hops

/-- A call but undoing may let the order grow. -/
theorem attempt (h : d.Stuck id) (hplaced : d.Placed id p) {call : CommandCall}
    (hundo : call ≠ .undo) : (d.call side call).Stuck id := by
  obtain ⟨order, horder, hholds⟩ := h.holds
  have hat := hplaced.places side
  have heffect := Command.effect_call (s := { layer := d.layer }) (hplaced.plain side)
    (hat.entity.symm ▸ horder) hundo
  rw [hat.entity, hat.recipe] at heffect
  cases heffect with
  | stays happlied hop hjournal _ hretains =>
    obtain ⟨hmistyped, order', horder', hops⟩ := hretains h.mistyped
    exact h.of_call rfl hmistyped horder horder' hops
      (((hholds side).congr happlied hop hjournal).mono hops)
  | found happlied hfound hop hvalue hjournal halike =>
    exact h.of_call rfl (halike.orderMistyped h.mistyped) horder (halike.order_eq.trans horder)
      (fun _ hop => hop) ((hholds side).found happlied hfound hop hvalue hjournal)
  | @made op edit journal mid happlied hmissing harranged hop hvalue hjournal halike =>
    obtain ⟨order₁, order', horder₁, horder', -, hgrown, hmem⟩ := harranged.order
    obtain rfl : order = order₁ := Except.ok.inj (horder.symm.trans horder₁)
    have hwritten : ((d.commands side).call { layer := d.layer } call).command.Written id op
        journal := .of_first hop hvalue
      (by rw [hjournal, (hholds side).idle_of_missing hmissing, List.append_nil])
    exact h.of_call rfl (halike.orderMistyped (harranged.mistyped h.mistyped)) horder
      (halike.order_eq.trans horder') hgrown.keeps
      (.written happlied hwritten hmem (.inr harranged.tokens))

/-- Undoing may take values back, but stops at the tokens that cannot be put back. -/
theorem undo (h : d.Stuck id) : (d.call side .undo).Stuck id := by
  obtain ⟨order, horder, hholds⟩ := h.holds
  cases hholds side with
  | idle hidle hnone =>
    exact h.of_call (Command.undo_idle hidle) h.mistyped horder horder (fun _ hop => hop)
      (.idle hidle hnone)
  | @written op journal happlied hwritten hop hjournal =>
    rcases hwritten.undo (s := { layer := d.layer }) with
      ⟨session, halike, hrevert⟩ | ⟨e, journal', s', hrevert, halike, hwritten'⟩
    · have hmistyped := halike.orderMistyped h.mistyped
      have horder' := halike.order_eq.trans horder
      rcases hjournal with rfl | ⟨names, older, rfl⟩
      · exact h.of_call (Command.undo_of_ok happlied hrevert) hmistyped horder horder'
          (fun _ hop => hop) (.idle rfl rfl)
      · obtain ⟨e, hstuck⟩ := Journal.revert_stuck fun s' => hmistyped.revert_ne names
        exact h.of_call (Command.undo_of_error happlied (hrevert.trans hstuck)) hmistyped horder
          horder' (fun _ hop => hop) (.written happlied
            ⟨hwritten.remembers, [], fun _ hedit => (nomatch hedit), rfl⟩ hop
            (.inr ⟨names, older, rfl⟩))
    · exact h.of_call (Command.undo_of_error happlied hrevert) (halike.orderMistyped h.mistyped)
        horder (halike.order_eq.trans horder) (fun _ hop => hop)
        (.written happlied hwritten' hop hjournal)

end Stuck

/-! ## Runs -/

/-- Commands that stand on frames are sound. -/
theorem Woven.sound (h : d.Woven id p base order₀ frames) (hbase : base.order id = .ok order₀) :
    d.Sound id := by
  obtain ⟨order, horder, hcovers⟩ := h.stacked.order hbase
  exact ⟨order, horder, Store.backs_of_order horder,
    fun side hstate => (h.holds side).mem_order hstate hcovers⟩

/-- Commands that can lose no op are sound. -/
theorem Stuck.sound (h : d.Stuck id) : d.Sound id := by
  obtain ⟨order, horder, hholds⟩ := h.holds
  refine ⟨order, horder, Store.backs_of_order horder, fun side hstate => ?_⟩
  cases hholds side with
  | idle hidle => cases hidle.symm.trans hstate
  | written _ hwritten hop => exact ⟨_, hwritten.remembers, hop⟩

/-- The commands stand on frames over a base with a typed order, or the order can lose no op. -/
structure Kept (d : Duo) (id : EntityId) (p : Side → Position) (base : Store)
    (order₀ : OpOrder) : Prop where
  placed : d.Placed id p
  stands : base.OrderTyped id ∧ (∃ frames, d.Woven id p base order₀ frames) ∨ d.Stuck id

/-- Two commands that have not written anything stand on the store, without frames. -/
theorem kept_of_idle (hplaced : d.Placed id p)
    (hidle : ∀ side, (d.commands side).state.isApplied = false ∧ (d.commands side).journal = [])
    (horder : d.layer.store.order id = .ok order₀) : d.Kept id p d.layer.store order₀ := by
  refine ⟨hplaced, ?_⟩
  rcases Store.orderTyped_or_mistyped horder with htyped | hmistyped
  · refine .inl ⟨htyped, [], .refl _, .nil, fun side => ?_, fun _ _ _ hframes => ?_⟩
    · exact .idle (hidle side).1 (hidle side).2 List.not_mem_nil
    · cases hframes
  · exact .inr ⟨hmistyped, order₀, horder, fun side => .idle (hidle side).1 (hidle side).2⟩

namespace Kept

/-- Every call keeps commands on their frames, if the newest is undone first. -/
theorem call (h : d.Kept id p base order₀) (hbase : base.order id = .ok order₀)
    (hapart : ∀ side side', side' ≠ side → ¬(p side).InPair (p side')) {call : CommandCall}
    (hnewest : call = .undo → (∃ side, (order₀.at? (p side)).isSome) ∨ d.Newest side) :
    (d.call side call).Kept id p base order₀ := by
  refine ⟨h.placed.call side call, ?_⟩
  rcases h.stands with ⟨htyped, frames, hwoven⟩ | hstuck
  · by_cases hundo : call = .undo
    · subst hundo
      exact .inl ⟨htyped, hwoven.undo hbase htyped (hnewest rfl)⟩
    · exact .inl ⟨htyped, hwoven.attempt h.placed hapart hbase htyped hundo⟩
  · by_cases hundo : call = .undo
    · subst hundo
      exact .inr hstuck.undo
    · exact .inr (hstuck.attempt h.placed hundo)

/-- Commands that are kept are sound. -/
theorem sound (h : d.Kept id p base order₀) (hbase : base.order id = .ok order₀) :
    d.Sound id := by
  rcases h.stands with ⟨-, frames, hwoven⟩ | hstuck
  · exact hwoven.sound hbase
  · exact hstuck.sound

end Kept

/-- What holds of two new commands holds along every run. -/
theorem Run.kept {d d' : Duo} (h : d.Run d') (hplaced : d.Placed id p)
    (hapart : ∀ side side', side' ≠ side → ¬(p side).InPair (p side'))
    (hidle : ∀ side, (d.commands side).state.isApplied = false ∧ (d.commands side).journal = [])
    (horder : d.layer.store.order id = .ok order₀) : d'.Kept id p d.layer.store order₀ := by
  have hsettled : d.Settled → ∃ side, (order₀.at? (p side)).isSome := by
    rintro ⟨side, order, horder', hsome⟩
    rw [(hplaced.places side).entity] at horder'
    rw [(hplaced.places side).recipe] at hsome
    obtain rfl : order₀ = order := Except.ok.inj (horder.symm.trans horder')
    exact ⟨side, hsome⟩
  induction h with
  | refl => exact kept_of_idle hplaced hidle horder
  | call _ side call hnewest ih =>
    exact ih.call horder hapart fun hundo => (hnewest hundo).imp_left hsettled

/-- Two new commands at different positions of an entity keep its order readable, and the op of each
of them that stands applied in it, along every run of calls in which the command that was applied
last is undone first. This proviso falls away if the order had an op for one of the commands. -/
theorem sound_of_run {d d' : Duo} {order : OpOrder}
    (hfresh : ∀ side, (AnyCommand.single (d.commands side)).Fresh)
    (hentity : ∀ side, (d.commands side).entity = id)
    (hne : (d.commands .first).recipe.position ≠ (d.commands .second).recipe.position)
    (horder : d.layer.store.order id = .ok order) (hrun : d.Run d') : d'.Sound id := by
  have hplain : ∀ side, (d.commands side).recipe.Plain := fun side => (hfresh side).plain
  have hplaced : d.Placed id fun side => (d.commands side).recipe.position := by
    refine ⟨fun side => ?_, hplain⟩
    obtain ⟨position, hat⟩ := (hfresh side).placed
    rw [hat.recipe, ← hentity side]
    exact hat
  have hapart : ∀ side side', side' ≠ side →
      ¬(d.commands side).recipe.position.InPair (d.commands side').recipe.position := by
    intro side side' hside hpair
    have hsame : (d.commands side).recipe.position = (d.commands side').recipe.position :=
      Position.InPair.eq (.inl rfl) hpair (hplain side).upright (hplain side').upright
    cases side <;> cases side'
    · exact hside rfl
    · exact hne hsame
    · exact hne hsame.symm
    · exact hside rfl
  refine (hrun.kept hplaced hapart (fun side => ?_) horder).sound horder
  have hready : (d.commands side).Ready := (hfresh side).ready
  exact ⟨by rw [hready.state]; rfl, hready.journal⟩

/-! ## On a bare store -/

/-- The commands that views of the bare store offer for the translation and the scale of its
entity. -/
def ofBare : Duo where
  commands
    | .first => AnyCommand.translation
    | .second => AnyCommand.transform.scale
  layer := { store := .bare }

/-- The commands of the bare store are fresh. -/
theorem fresh_ofBare : ∀ side, (AnyCommand.single (ofBare.commands side)).Fresh := by
  have hscale : StackView.offerAt ⟨default, .default⟩ .bare .scale
      (Placement.ofMatrix default).scale = .ok (.ok AnyCommand.transform.scale) := rfl
  intro side
  cases side with
  | first => exact AnyCommand.fresh_translation
  | second => exact .offered hscale

/-- Both commands are executed, and the one that was executed last is undone. -/
theorem sound_of_run_on_bare :
    let d := ((ofBare.call .first .execute).call .second .execute).call .second .undo
    (d.commands .first).state = .committed ∧ (d.commands .second).state = .undone ∧
      ofBare.Run d ∧ d.Sound default := by
  intro d
  have hstates : (d.commands .first).state = .committed ∧ (d.commands .second).state = .undone := by
    decide +kernel
  have hentity : ∀ side, (ofBare.commands side).entity = default := by
    intro side
    cases side <;> rfl
  have hne : (ofBare.commands .first).recipe.position ≠ (ofBare.commands .second).recipe.position :=
    by decide +kernel
  have horder : ofBare.layer.store.order default = .ok ⟨[], false⟩ := by decide +kernel
  have hnewest : ((ofBare.call .first .execute).call .second .execute).latest = .second := by
    decide +kernel
  have hrun : ofBare.Run d := by
    refine .call (.call (.call .refl .first .execute ?_) .second .execute ?_) .second .undo ?_
    · exact fun hundo => nomatch hundo
    · exact fun hundo => nomatch hundo
    · exact fun _ => .inr fun _ => hnewest
  exact ⟨hstates.1, hstates.2, hrun, sound_of_run fresh_ofBare hentity hne horder hrun⟩

/-- Both commands are executed, and the one that was executed first is undone. It takes the whole
order back, so the op of the other is lost, though that command stands applied. -/
theorem not_sound_of_undone_first :
    let d := ((ofBare.call .first .execute).call .second .execute).call .first .undo
    (∀ side, (AnyCommand.single (ofBare.commands side)).Fresh) ∧
      (∀ side, (ofBare.commands side).entity = default) ∧
      (ofBare.commands .first).recipe.position ≠ (ofBare.commands .second).recipe.position ∧
      ofBare.layer = { store := .bare } ∧ Store.bare.readOnly = false ∧
      Store.bare.order default = .ok ⟨[], false⟩ ∧
      (d.commands .first).state = .undone ∧ (d.commands .second).state = .committed ∧
      ¬d.Sound default := by
  intro d
  have hfirst : (d.commands .first).state = .undone := by decide +kernel
  have hsecond : (d.commands .second).state = .committed := by decide +kernel
  have hlost : d.layer.store.order default = .ok ⟨[], false⟩ := by decide +kernel
  refine ⟨fresh_ofBare, fun side => ?_, by decide +kernel, rfl, rfl, by decide +kernel, hfirst,
    hsecond, ?_⟩
  · cases side <;> rfl
  · rintro ⟨order, horder, -, hops⟩
    obtain rfl : order = ⟨[], false⟩ := Except.ok.inj (horder.symm.trans hlost)
    obtain ⟨op, -, hop⟩ := hops .second (by rw [hsecond]; rfl)
    cases hop

end Duo

end TransformStack
