import TransformStack.Proofs.Command.Effects
import TransformStack.Proofs.Edit.Closing

/-!
# Commands on a closed store

On a store that is closed to writing a call on a command writes nothing. Where undoing or redoing
has something to write it fails, and the command that it leaves can be undone or redone later as if
that had not been tried. Of a matrix command the parts before the one that fails had nothing to
write, and have nothing to write when the call is made again.
-/

namespace TransformStack

namespace Call

variable {κ : Type} {call call' call'' : Call κ} {act next : κ → Session → Call κ}
  {c c' : κ} {s : Session}

/-! ## Calls that write nothing -/

/-- On a closed store the call writes nothing. -/
def Stalling (act : κ → Session → Call κ) : Prop :=
  ∀ (c : κ) (s : Session), s.store.readOnly = true → s.Stalls (act c s).session

namespace Stalling

/-- A call that writes nothing to a closed store goes on from any session that wrote nothing. -/
theorem meets (h : Stalling act) (c : κ) {s₀ : Session} (hclosed : s₀.store.readOnly = true)
    (hstalls : s₀.Stalls s) :
    (act c s).Meets (fun _ s' => s₀.Stalls s') fun _ s' => s₀.Stalls s' :=
  .intro (hstalls.trans (h c s (hstalls.closed hclosed)))

/-- Two calls that write nothing to a closed store write nothing one after the other. -/
theorem andThen (h : Stalling act) (hnext : Stalling next) :
    Stalling fun c s => (act c s).andThen next := fun c s hclosed =>
  ((h.meets c hclosed (.refl s)).andThen fun c' _ => hnext.meets c' hclosed).leaves

/-- A call and what makes up for it write nothing if neither does. -/
theorem orElse (h : Stalling act) (hnext : Stalling next) :
    Stalling fun c s => (act c s).orElse next := fun c s hclosed =>
  ((h.meets c hclosed (.refl s)).orElse fun c' _ => hnext.meets c' hclosed).leaves

/-- Holding notices back writes nothing to a store. -/
theorem guarded (h : Stalling act) : Stalling (Call.guarded act) := fun c s hclosed =>
  (h c (s.signal .hold) hclosed).guarded

end Stalling

/-! ## Calls that come to the same -/

/-- Two calls come to the same, whatever they tell and log. -/
structure Alike (call call' : Call κ) : Prop where
  outcome : call.outcome = call'.outcome
  command : call.command = call'.command
  layer : call.session.layer = call'.session.layer

theorem Alike.refl (call : Call κ) : call.Alike call := ⟨rfl, rfl, rfl⟩

theorem Alike.symm (h : call.Alike call') : call'.Alike call :=
  ⟨h.outcome.symm, h.command.symm, h.layer.symm⟩

theorem Alike.trans (h : call.Alike call') (h' : call'.Alike call'') : call.Alike call'' :=
  ⟨h.outcome.trans h'.outcome, h.command.trans h'.command, h.layer.trans h'.layer⟩

/-- What the call comes to depends on the layer, and not on what was told or logged before. -/
def LayerOnly (act : κ → Session → Call κ) : Prop :=
  ∀ c s s', s.layer = s'.layer → (act c s).Alike (act c s')

/-- Calls that come to the same can be followed by any call that looks at the layer only. -/
theorem Alike.andThen (h : call.Alike call') (hnext : LayerOnly next) :
    (call.andThen next).Alike (call'.andThen next) := by
  unfold Call.andThen
  rw [h.outcome, h.command]
  cases call'.outcome with
  | error e => exact h
  | ok u => exact hnext _ _ _ h.layer

namespace LayerOnly

/-- Calls that look at the layer only do so one after the other. -/
theorem andThen (h : LayerOnly act) (hnext : LayerOnly next) :
    LayerOnly fun c s => (act c s).andThen next :=
  fun c _ _ hlayer => (h c _ _ hlayer).andThen hnext

/-- Holding notices back changes nothing that another call looks at. -/
theorem guarded_alike (h : LayerOnly act) (c : κ) (s : Session) :
    (Call.guarded act c s).Alike (act c s) := by
  obtain ⟨houtcome, hcommand, hlayer⟩ := h c (s.signal .hold) s rfl
  exact ⟨houtcome, hcommand, hlayer⟩

end LayerOnly

/-! ## Calls that fail where they cannot write -/

/-- Wherever the call is made on the one command, there is nothing to write, and the other command
is left. -/
structure Idles (act : κ → Session → Call κ) (c c' : κ) : Prop where
  alike : ∀ s, (act c s).Alike ⟨.ok (), c', s⟩
  quiet : ∀ s id, .changed id ∈ (act c s).session.signals → .changed id ∈ s.signals

/-- The call fails, and made again on the command that it leaves it comes to what it would have come
to at first; or there is nothing to write wherever it is made, also when it is made again. -/
inductive Halts (act : κ → Session → Call κ) (c : κ) (s : Session) : Prop where
  | refused {e : EditError} (herror : (act c s).outcome = .error e)
      (hagain : ∀ s', (act (act c s).command s').Alike (act c s'))
  | idle {c' : κ} (hidle : Idles act c c') (hstays : Idles act c' c')

/-- A call after one that has nothing to write is made on the command that this one leaves. -/
theorem Idles.andThen_eq (h : Idles act c c') (s : Session) :
    (act c s).andThen next = next c' (act c s).session := by
  rw [Call.andThen, (h.alike s).outcome, (h.alike s).command]

/-- Two calls with nothing to write have nothing to write one after the other. -/
theorem Idles.andThen {c'' : κ} (h : Idles act c c') (hnext : Idles next c' c'') :
    Idles (fun c s => (act c s).andThen next) c c'' := by
  refine ⟨fun s => ?_, fun s id hchanged => ?_⟩
  · rw [h.andThen_eq]
    exact (hnext.alike _).trans ⟨rfl, rfl, (h.alike s).layer⟩
  · rw [h.andThen_eq] at hchanged
    exact h.quiet s id (hnext.quiet _ id hchanged)

/-- A call with nothing to write has nothing to write when notices are held back. -/
theorem Idles.guarded (h : Idles act c c') : Idles (Call.guarded act) c c' := by
  refine ⟨fun s => ?_, fun s id hchanged => ?_⟩
  · obtain ⟨houtcome, hcommand, hlayer⟩ := h.alike (s.signal .hold)
    exact ⟨houtcome, hcommand, hlayer⟩
  · have hinner := h.quiet (s.signal .hold) id
    simp only [Call.guarded, Session.signal, List.mem_append, List.mem_singleton, reduceCtorEq,
      or_false] at hchanged hinner
    exact hinner hchanged

/-- A call that leaves no more to write, and then another one that does not touch what the first
looks at. -/
theorem Halts.andThen (h : Halts act c s) (hnext : ∀ c', Halts next c' (act c s).session)
    (hlayer : LayerOnly next)
    (hapart : ∀ c s, Idles act c c → Idles act (next c s).command (next c s).command) :
    Halts (fun c s => (act c s).andThen next) c s := by
  cases h with
  | @refused e herror hagain =>
    refine .refused (e := e) ?_ fun s' => ?_
    · rw [andThen_of_error herror, herror]
    · rw [andThen_of_error herror]
      exact (hagain s').andThen hlayer
  | @idle c' hidle hstays =>
    cases hnext c' with
    | @refused e herror hagain =>
      refine .refused (e := e) ?_ fun s' => ?_
      · rw [hidle.andThen_eq, herror]
      · -- The first call is idle on what is left as well, so the next one is made on the same.
        rw [hidle.andThen_eq]
        have hleft := ((hapart c' (act c s).session hstays).alike s').andThen hlayer
        exact (hleft.trans (hagain s')).trans ((hidle.alike s').andThen hlayer).symm
    | @idle c'' hidle' hstays' =>
      have hleft := hapart c' s hstays
      rw [(hidle'.alike s).command] at hleft
      exact .idle (hidle.andThen hidle') (hleft.andThen hstays')

/-- A call that halts does so when notices are held back, if it looks at the layer only. -/
theorem Halts.guarded (h : Halts act c (s.signal .hold)) (hlayer : LayerOnly act) :
    Halts (Call.guarded act) c s := by
  cases h with
  | @refused e herror hagain =>
    refine .refused (e := e) herror fun s' => ?_
    exact ((hlayer.guarded_alike _ s').trans (hagain s')).trans (hlayer.guarded_alike c s').symm
  | idle hidle hstays => exact .idle hidle.guarded hstays.guarded

/-- The call fails and leaves the command as it is; or it does nothing at all wherever it is made.
That such calls halt one after the other is seen without asking what they look at. -/
inductive Abstains (act : κ → Session → Call κ) (c : κ) (s : Session) : Prop where
  | refused {e : EditError} (herror : (act c s).outcome = .error e)
      (hsame : (act c s).command = c)
  | idle (hidle : ∀ s', act c s' = ⟨.ok (), c, s'⟩)

namespace Abstains

/-- Two calls that leave a command as it is do so one after the other. -/
theorem andThen (h : Abstains act c s) (hnext : Abstains next c s) :
    Abstains (fun c s => (act c s).andThen next) c s := by
  cases h with
  | @refused e herror hsame =>
    refine .refused (e := e) ?_ ?_
    · rw [andThen_of_error herror, herror]
    · rw [andThen_of_error herror, hsame]
  | idle hidle =>
    have hgoes : ∀ s', (act c s').andThen next = next c s' := by
      intro s'
      rw [hidle]
      rfl
    cases hnext with
    | @refused e herror hsame =>
      refine .refused (e := e) ?_ ?_
      · rw [hgoes, herror]
      · rw [hgoes, hsame]
    | idle hidle' => exact .idle fun s' => (hgoes s').trans (hidle' s')

/-- A call that does nothing at all has nothing to write. -/
theorem idles (hidle : ∀ s', act c s' = ⟨.ok (), c, s'⟩) : Idles act c c :=
  ⟨fun s => hidle s ▸ .refl _, fun s id hchanged => by rwa [hidle] at hchanged⟩

/-- A call that leaves a command as it is halts. -/
theorem halts (h : Abstains act c s) : Halts act c s := by
  cases h with
  | refused herror hsame => exact .refused herror fun s' => hsame.symm ▸ .refl _
  | idle hidle => exact .idle (idles hidle) (idles hidle)

/-- A call that leaves a command as it is halts when notices are held back. -/
theorem guarded (h : Abstains act c (s.signal .hold)) : Halts (Call.guarded act) c s := by
  cases h with
  | @refused e herror hsame =>
    have hleft : (Call.guarded act c s).command = c := hsame
    exact .refused (e := e) herror fun s' => hleft.symm ▸ .refl _
  | idle hidle => exact .idle (idles hidle).guarded (idles hidle).guarded

end Abstains

/-! ## Calls on what a command is made of -/

variable {κ' : Type} {wrap : κ → κ'} {act' : κ' → Session → Call κ'}

/-- The call on the whole is the call on what it is made of. -/
def Lifts (wrap : κ → κ') (act : κ → Session → Call κ) (act' : κ' → Session → Call κ') :
    Prop :=
  ∀ c s, act' (wrap c) s = ⟨(act c s).outcome, wrap (act c s).command, (act c s).session⟩

namespace Lifts

/-- A call on the whole comes to what the call on the part comes to. -/
theorem alike (h : Lifts wrap act act') {s : Session} (hcall : (act c s).Alike call) :
    (act' (wrap c) s).Alike ⟨call.outcome, wrap call.command, call.session⟩ := by
  rw [h]
  exact ⟨hcall.outcome, congrArg wrap hcall.command, hcall.layer⟩

/-- A call on the whole has nothing to write if the call on the part has nothing to write. -/
theorem idles (h : Lifts wrap act act') (hidle : Idles act c c') :
    Idles act' (wrap c) (wrap c') := by
  refine ⟨fun s => h.alike (hidle.alike s), fun s id hchanged => ?_⟩
  rw [h] at hchanged
  exact hidle.quiet s id hchanged

/-- A call on the whole halts if the call on the part does. -/
theorem halts (h : Lifts wrap act act') (hhalts : Halts act c s) : Halts act' (wrap c) s := by
  cases hhalts with
  | @refused e herror hagain =>
    refine .refused (e := e) ?_ fun s' => ?_
    · rw [h, herror]
    · rw [h c s, h c s']
      exact h.alike (hagain s')
  | idle hidle hstays => exact .idle (h.idles hidle) (h.idles hstays)

/-- A call on the whole leaves it as it is if the call on the part leaves the part. -/
theorem abstains (h : Lifts wrap act act') (habstains : Abstains act c s) :
    Abstains act' (wrap c) s := by
  cases habstains with
  | @refused e herror hsame =>
    refine .refused (e := e) ?_ ?_
    · rw [h, herror]
    · rw [h, hsame]
  | idle hidle => exact .idle fun s' => by rw [h, hidle]

end Lifts

end Call

/-! ## Single commands -/

namespace Command

variable {c : Command} {s : Session}

/-- No value is applied on a closed store. -/
theorem apply_of_closed (hclosed : s.store.readOnly = true) (c : Command) (value : Vector3) :
    (∃ e, (c.apply value s).outcome = .error e) ∧ (c.apply value s).command = c ∧
      s.Stalls (c.apply value s).session := by
  have hheld : (s.signal .hold).store.readOnly = true := hclosed
  have hkeeps : c.target.Keeps (·.Stalled (s.signal .hold)) :=
    target_keeps (fun _ op htx => htx.make hheld (.addOp _ op))
      fun _ order htx => htx.make hheld (.setOrder _ order)
  have htarget := hkeeps (.start (s.signal .hold)) (.start _)
  rcases apply_cases c value s with ⟨op, tx, hrun, happly⟩ | ⟨e, tx, hrun, happly⟩
  · obtain ⟨mid, stored, hfound, -, hset⟩ := write_eq_ok_iff.1 hrun
    rw [hfound] at htarget
    have hrefused := (Transaction.make_of_closed (htarget.1.closed hclosed)
      (.setValue c.entity op.attributeName stored .default)).1
    rw [Transaction.make, hset] at hrefused
    exact absurd rfl hrefused
  · rw [write_eq_error hrun] at htarget
    rw [happly]
    exact ⟨⟨e, rfl⟩, rfl, htarget.rollback.guarded⟩

/-- Undoing a command writes nothing to a closed store. -/
theorem stalling_undo : Call.Stalling undo := by
  intro c s hclosed
  have hstays := Journal.revert_stalls (s := s.signal .hold) hclosed c.journal
  rcases c.undo_cases s with
    ⟨-, hundo⟩ | ⟨-, journal, s', ⟨hrevert, hundo⟩ | ⟨e, hrevert, hundo⟩⟩ <;> rw [hundo]
  · exact .refl s
  all_goals
    rw [hrevert] at hstays
    obtain rfl := hstays
    exact .guarded (.refl _)

/-- No call of the host writes on a closed store. -/
theorem stalling_call (call : CommandCall) :
    Call.Stalling fun (c : Command) s => c.call s call := by
  intro c s hclosed
  by_cases hundo : call = .undo
  · rw [hundo]
    exact stalling_undo c s hclosed
  · show s.Stalls (c.call s call).session
    generalize hdone : c.call s call = done
    have hattempts := attempts_call c s hundo
    rw [hdone] at hattempts
    cases hattempts with
    | idle => exact .refl s
    | applied hsame hok =>
      obtain ⟨e, herror⟩ := (apply_of_closed hclosed _ _).1
      cases hok.symm.trans herror
    | failed => exact (apply_of_closed hclosed _ _).2.2

/-- On a closed store redoing fails if there is a value to write. -/
theorem abstains_redo (hclosed : s.store.readOnly = true) (c : Command) :
    Call.Abstains redo c s := by
  by_cases hundone : ∃ value, c.state = .undone ∧ c.committedValue = some value
  · obtain ⟨value, hstate, hvalue⟩ := hundone
    obtain ⟨⟨e, herror⟩, hcommand, -⟩ := apply_of_closed hclosed c value
    have hredo := redo_of_error hstate hvalue herror
    exact .refused (e := e) (hredo ▸ herror) (hredo ▸ hcommand)
  · exact .idle fun s' => redo_idle fun value h => hundone ⟨value, h⟩

/-- What undoing comes to depends on the layer only. -/
theorem layerOnly_undo : Call.LayerOnly undo := by
  intro c s s' hlayer
  cases happlied : c.state.isApplied with
  | false =>
    rw [undo_idle happlied, undo_idle happlied]
    exact ⟨rfl, rfl, hlayer⟩
  | true =>
    have hstore : s.store = s'.store := congrArg Layer.store hlayer
    have hback : Journal.TakesBack [] s'.store s.store := hstore.symm
    have hnone : Journal.TakesBack [] s.store s.store := rfl
    obtain ⟨houtcome, hcommand, hlayer₁⟩ := undo_append happlied rfl rfl hback
    obtain ⟨-, hcommand', hlayer'⟩ := undo_append happlied rfl rfl hnone
    refine ⟨houtcome.symm, hcommand'.trans hcommand.symm, ?_⟩
    rw [hlayer', hlayer₁, hlayer]

/-- A command that is not applied has nothing to take back. -/
theorem idles_undo_of_not_applied (h : c.state.isApplied = false) : Call.Idles undo c c :=
  Call.Abstains.idles fun _ => undo_idle h

/-- A command that stands applied with nothing to take back is undone without writing. -/
theorem idles_undo_of_applied (h : c.state.isApplied) (hjournal : c.journal = []) :
    Call.Idles undo c { c with journal := [], state := .undone } := by
  have hundo : ∀ s, c.undo s =
      ⟨.ok (), { c with journal := [], state := .undone }, (s.signal .hold).signal .release⟩ :=
    fun s => undo_of_ok h (by rw [hjournal]; rfl)
  refine ⟨fun s => ?_, fun s id hchanged => ?_⟩
  · rw [hundo]
    exact ⟨rfl, rfl, rfl⟩
  · rw [hundo] at hchanged
    simpa [Session.signal] using hchanged

/-- On a closed store undoing fails at the first write that is to be taken back. -/
theorem halts_undo (hclosed : s.store.readOnly = true) (c : Command) : Call.Halts undo c s := by
  cases happlied : c.state.isApplied with
  | false => exact .idle (idles_undo_of_not_applied happlied) (idles_undo_of_not_applied happlied)
  | true =>
    cases hjournal : c.journal with
    | nil => exact .idle (idles_undo_of_applied happlied hjournal) (idles_undo_of_not_applied rfl)
    | cons edit older =>
      have hrevert : c.journal.revert (s.signal .hold) =
          ((.error (.structural (.revertRefused edit.name edit.entity)), c.journal),
            s.signal .hold) := by
        rw [hjournal]
        exact Journal.revert_of_closed (s := s.signal .hold) hclosed edit older
      have hundo := undo_of_error happlied hrevert
      exact .refused (by rw [hundo]) fun s' => by rw [hundo]; exact .refl _

end Command

/-! ## Matrix commands -/

namespace MatrixCommand

variable {act : Command → Session → Call Command} {m : MatrixCommand} {s : Session}
  {p q r : Part}

/-- A call on a part writes nothing to a closed store if the call on a single command does not. -/
theorem stalling_onPart (h : Call.Stalling act) (p : Part) : Call.Stalling (onPart act p) := by
  intro m s hclosed
  rw [onPart_eq]
  exact h _ s hclosed

/-- A call on a part looks at the layer only if the call on a single command does. -/
theorem layerOnly_onPart (h : Call.LayerOnly act) (p : Part) : Call.LayerOnly (onPart act p) := by
  intro m s s' hlayer
  rw [onPart_eq, onPart_eq]
  obtain ⟨houtcome, hcommand, hlayer'⟩ := h (m.part p) s s' hlayer
  exact ⟨houtcome, congrArg (m.withPart · p) hcommand, hlayer'⟩

/-- A call on a part is the call on the single command that the part is. -/
theorem lifts_onPart (act : Command → Session → Call Command) (m : MatrixCommand) (p : Part) :
    Call.Lifts (m.withPart · p) act (onPart act p) := by
  intro c s
  rw [onPart_eq, part_withPart, withPart_withPart]

/-- Whether a call on a part is idle depends on the command for that part. -/
theorem idles_onPart_self_iff :
    Call.Idles (onPart act p) m m ↔ Call.Idles act (m.part p) (m.part p) := by
  refine ⟨fun h => ⟨fun s => ?_, fun s id hchanged => ?_⟩, fun h => ?_⟩
  · obtain ⟨houtcome, hcommand, hlayer⟩ := h.alike s
    rw [onPart_eq] at houtcome hcommand hlayer
    have hleft := congrArg (·.part p) hcommand
    rw [part_withPart] at hleft
    exact ⟨houtcome, hleft, hlayer⟩
  · have hquiet := h.quiet s id
    rw [onPart_eq] at hquiet
    exact hquiet hchanged
  · have hidles := (lifts_onPart act m p).idles h
    rwa [withPart_part] at hidles

/-- A call on a part halts if the call on the single command does. -/
theorem halts_onPart (h : Call.Halts act (m.part p) s) : Call.Halts (onPart act p) m s := by
  have hhalts := (lifts_onPart act m p).halts h
  rwa [withPart_part] at hhalts

/-- Three calls on different parts halt if each does. -/
theorem halts_inTurn (hhalts : ∀ (c : Command) (s : Session), s.store.readOnly = true →
      Call.Halts act c s) (hstalls : Call.Stalling act) (hlayer : Call.LayerOnly act)
    (hpq : p ≠ q) (hpr : p ≠ r) (hqr : q ≠ r) (hclosed : s.store.readOnly = true)
    (m : MatrixCommand) :
    Call.Halts (fun m s => ((onPart act p m s).andThen (onPart act q)).andThen (onPart act r)) m
      s := by
  have hassoc : (fun m s => ((onPart act p m s).andThen (onPart act q)).andThen (onPart act r)) =
      fun m s => (onPart act p m s).andThen fun m s =>
        (onPart act q m s).andThen (onPart act r) := by
    funext m s
    exact Call.andThen_assoc
  rw [hassoc]
  have hpart {p : Part} (m : MatrixCommand) {s : Session} (hclosed : s.store.readOnly = true) :
      Call.Halts (onPart act p) m s := halts_onPart (hhalts _ _ hclosed)
  have hlast : Call.LayerOnly (onPart act r) := layerOnly_onPart hlayer r
  have hmiddle := stalling_onPart hstalls p m s hclosed
  refine (hpart m hclosed).andThen (fun m' => ?_) ((layerOnly_onPart hlayer q).andThen hlast)
    fun m s hidles => ?_
  · have hend := stalling_onPart hstalls q m' _ (hmiddle.closed hclosed)
    refine (hpart m' (hmiddle.closed hclosed)).andThen
      (fun m'' => hpart m'' (hend.closed (hmiddle.closed hclosed))) hlast fun m s hidles => ?_
    rw [idles_onPart_self_iff, part_onPart hqr]
    exact idles_onPart_self_iff.1 hidles
  · have hkept : ((onPart act q m s).andThen (onPart act r)).command.part p = m.part p := by
      unfold Call.andThen
      split
      · rw [part_onPart hpr, part_onPart hpq]
      · exact part_onPart hpq
    rw [idles_onPart_self_iff, hkept]
    exact idles_onPart_self_iff.1 hidles

/-- Undoing a matrix command writes nothing to a closed store. -/
theorem stalling_undo : Call.Stalling undo := by
  have hparts := stalling_onPart Command.stalling_undo
  exact .guarded (.andThen (.andThen (hparts .scale) (hparts .rotate)) (hparts .translate))

/-- Redoing a matrix command writes nothing to a closed store. -/
theorem stalling_redo : Call.Stalling redo := by
  have hparts := stalling_onPart (Command.stalling_call .redo)
  exact .guarded (.andThen (.andThen (hparts .translate) (hparts .rotate)) (hparts .scale))

/-- Giving a matrix to a command writes nothing to a closed store. -/
theorem stalling_set (matrix : Matrix4) :
    Call.Stalling fun (m : MatrixCommand) s => m.set matrix s := by
  have hparts (value : Vector3) := stalling_onPart (Command.stalling_call (.set value))
  exact .andThen (.andThen (hparts _ .translate) (hparts _ .rotate)) (hparts _ .scale)

/-- Executing a matrix command writes nothing to a closed store. -/
theorem stalling_execute : Call.Stalling execute := by
  have hparts := stalling_onPart (Command.stalling_call .execute)
  have hback := stalling_onPart Command.stalling_undo
  exact .guarded (.andThen
    (.andThen (hparts .translate) (.orElse (hparts .rotate) (hback .translate)))
    (.orElse (hparts .scale) (.andThen (hback .rotate) (hback .translate))))

/-- On a closed store undoing a matrix command fails at the first part with something to take
back. -/
theorem halts_undo (hclosed : s.store.readOnly = true) (m : MatrixCommand) :
    Call.Halts undo m s := by
  have hlayer := layerOnly_onPart Command.layerOnly_undo
  refine .guarded (halts_inTurn (s := s.signal .hold) (p := .scale) (q := .rotate) (r := .translate)
    (fun c s hclosed => Command.halts_undo hclosed c) Command.stalling_undo Command.layerOnly_undo
    (by simp) (by simp) (by simp) hclosed m) ?_
  exact ((hlayer .scale).andThen (hlayer .rotate)).andThen (hlayer .translate)

/-- A call on a part leaves the whole as it is if the call on the single command leaves the part. -/
theorem abstains_onPart (h : Call.Abstains act (m.part p) s) :
    Call.Abstains (onPart act p) m s := by
  have habstains := (lifts_onPart act m p).abstains h
  rwa [withPart_part] at habstains

/-- On a closed store redoing a matrix command fails at the first part with a value to write. -/
theorem halts_redo (hclosed : s.store.readOnly = true) (m : MatrixCommand) :
    Call.Halts redo m s := by
  have hpart (p : Part) : Call.Abstains (onPart Command.redo p) m (s.signal .hold) :=
    abstains_onPart (Command.abstains_redo (s := s.signal .hold) hclosed _)
  exact (((hpart .translate).andThen (hpart .rotate)).andThen (hpart .scale)).guarded

end MatrixCommand

/-! ## Commands of either kind -/

namespace AnyCommand

variable {onSingle : Command → Session → Call Command}
  {onMatrix : MatrixCommand → Session → Call MatrixCommand} {s : Session}

/-- Calls on commands of either kind write nothing to a closed store if those on each kind do
not. -/
theorem stalling_call (hsingle : Call.Stalling onSingle) (hmatrix : Call.Stalling onMatrix) :
    Call.Stalling (call onSingle onMatrix) := by
  intro command s hclosed
  cases command with
  | single c => exact hsingle c s hclosed
  | matrix m => exact hmatrix m s hclosed

/-- Calls on commands of either kind halt if those on each kind do. -/
theorem halts_call (hsingle : ∀ c, Call.Halts onSingle c s)
    (hmatrix : ∀ m, Call.Halts onMatrix m s) (command : AnyCommand) :
    Call.Halts (call onSingle onMatrix) command s := by
  cases command with
  | single c =>
    have hlifts : Call.Lifts single onSingle (call onSingle onMatrix) := fun _ _ => rfl
    exact hlifts.halts (hsingle c)
  | matrix m =>
    have hlifts : Call.Lifts matrix onMatrix (call onSingle onMatrix) := fun _ _ => rfl
    exact hlifts.halts (hmatrix m)

/-- Executing a command of either kind writes nothing to a closed store. -/
theorem stalling_execute : Call.Stalling execute :=
  stalling_call (Command.stalling_call .execute) MatrixCommand.stalling_execute

/-- Undoing a command of either kind writes nothing to a closed store. -/
theorem stalling_undo : Call.Stalling undo :=
  stalling_call Command.stalling_undo MatrixCommand.stalling_undo

/-- Redoing a command of either kind writes nothing to a closed store. -/
theorem stalling_redo : Call.Stalling redo :=
  stalling_call (Command.stalling_call .redo) MatrixCommand.stalling_redo

/-- On a closed store undoing fails if there is something to take back. -/
theorem halts_undo (hclosed : s.store.readOnly = true) : ∀ command, Call.Halts undo command s :=
  halts_call (Command.halts_undo hclosed) (MatrixCommand.halts_undo hclosed)

/-- On a closed store redoing fails if there is something to write. -/
theorem halts_redo (hclosed : s.store.readOnly = true) : ∀ command, Call.Halts redo command s :=
  halts_call (fun c => (Command.abstains_redo hclosed c).halts) (MatrixCommand.halts_redo hclosed)

end AnyCommand

end TransformStack
