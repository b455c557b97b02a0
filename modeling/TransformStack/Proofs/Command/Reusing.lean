import TransformStack.Proofs.Command.Recipes
import TransformStack.Proofs.Command.Recovering

/-!
# Using a failed matrix command again

A matrix command that could not be executed leaves the store, but the parts before the one that
failed stand undone. Given another matrix, those parts ignore it, as undone commands do; the others
take it. Executed again on a layer that refuses nothing, the command writes the old values of the
parts that were executed at first, and the new values of the others.
-/

namespace TransformStack

/-- Two calls succeed or fail alike, and leave the same store. -/
def Call.Like {κ : Type} (call call' : Call κ) : Prop :=
  (call.outcome = .ok () ↔ call'.outcome = .ok ()) ∧ call.session.store = call'.session.store

namespace Command

variable {c c' : Command} {value : Vector3} {s : Session} {before after : Store}

/-! ## Executing on a layer that refuses nothing -/

/-- The store that executing the command makes of another on a layer that refuses nothing, if it can
be executed there. -/
def makes? (c : Command) (before : Store) : Option Store :=
  let done := c.execute { layer := { store := before } }
  match done.outcome with
  | .ok _ => some done.session.store
  | .error _ => none

/-- The command is ready, or undone on the store. -/
def Awaits (c : Command) (before : Store) : Prop :=
  c.Ready ∨ ∃ after, c.Undone before after

/-- A command that is ready writes its next value. -/
theorem Ready.toWrite? (h : c.Ready) : c.toWrite? = c.newValue := by
  rw [Command.toWrite?, h.state]

/-- An undone command writes the value it wrote last. -/
theorem Undone.toWrite? (h : c.Undone before after) : c.toWrite? = c.committedValue := by
  rw [Command.toWrite?, h.state]

/-- A command that is ready or undone has a value to write. -/
theorem Awaits.exists_value (h : c.Awaits before) : ∃ value, c.toWrite? = some value := by
  rcases h with hready | ⟨after, hundone⟩
  · obtain ⟨value, hvalue⟩ := hready.value
    exact ⟨value, hready.toWrite?.trans hvalue⟩
  · obtain ⟨value, -, -, hvalue, -⟩ := hundone.writes
    exact ⟨value, hundone.toWrite?.trans hvalue⟩

/-- What a command makes of a store is what it writes there. -/
theorem makes?_of_writes {op : Op} {journal : Journal} (hvalue : c.toWrite? = some value)
    (h : c.Writes value before after op journal) : c.makes? before = some after := by
  obtain ⟨hok, hlayer⟩ := apply_of_writes (s := { layer := { store := before } }) h rfl
  rw [makes?, execute_of_ok hvalue hok, hok, Session.store, hlayer]

/-- A command that can write nothing to a store makes nothing of it. -/
theorem makes?_of_not (hvalue : c.toWrite? = some value)
    (h : ∀ after op journal, ¬c.Writes value before after op journal) : c.makes? before = none := by
  cases happly : (c.apply value { layer := { store := before } }).outcome with
  | error e =>
    rw [makes?, execute_of_error hvalue happly, happly]
  | ok u =>
    obtain ⟨op, journal, hwrites, -⟩ := apply_of_ok happly
    exact absurd hwrites (h _ _ _)

/-- Where the command can be executed, whatever the layer refuses, it makes the same store. -/
theorem makes?_of_execute (h : c.Awaits s.store) (hok : (c.execute s).outcome = .ok ()) :
    c.makes? s.store = some (c.execute s).session.store := by
  obtain ⟨value, hvalue⟩ := h.exists_value
  have happly := apply_of_execute_ok hvalue hok
  obtain ⟨op, journal, hwrites, -⟩ := apply_of_ok happly
  rw [execute_of_ok hvalue happly]
  exact makes?_of_writes hvalue hwrites

/-- An undone command makes of the store what it made before. -/
theorem Undone.makes? (h : c.Undone before after) : c.makes? before = some after := by
  obtain ⟨value, op, journal, hvalue, hwrites, -⟩ := h.writes
  exact makes?_of_writes (h.toWrite?.trans hvalue) hwrites

/-- What comes of executing a command that awaits it is settled by the store. -/
theorem Awaits.execute (h : c.Awaits before) (htyped : before.WellTyped)
    (hlayer : s.layer = { store := before }) :
    (c.execute s).Meets
      (fun c' s' => ∃ after, c.makes? before = some after ∧ s'.layer = { store := after } ∧
        c'.Applied before after)
      fun _ _ => c.makes? before = none := by
  have hstore : s.store = before := Session.store_eq hlayer
  obtain ⟨value, hvalue⟩ := h.exists_value
  by_cases hwrites : ∃ after op journal, c.Writes value before after op journal
  · obtain ⟨after, op, journal, hwrites⟩ := hwrites
    obtain ⟨hok, hafter⟩ := apply_of_writes hwrites hlayer
    have hexecute := execute_of_ok hvalue hok
    have hmade : (c.execute s).session.store = after := by
      rw [hexecute, Session.store, hafter]
    have happlied : (c.execute s).command.Applied before after := by
      rcases h with hready | ⟨after', hundone⟩
      · have happlied := (hready.execute (hstore ▸ htyped)).ok (by rw [hexecute, hok])
        rwa [hmade, hstore] at happlied
      · have hredo : c.execute s = c.redo s := execute_of_undone hundone.state s
        have happlied := (hundone.redo hstore).ok (by rw [← hredo, hexecute, hok])
        rw [← hredo, hmade] at happlied
        exact happlied.2.1 ▸ happlied.1
    refine .of_ok (by rw [hexecute, hok]) ⟨after, makes?_of_writes hvalue hwrites, ?_, happlied⟩
    rw [hexecute, hafter]
  · have hnone : ∀ after op journal, ¬c.Writes value before after op journal :=
      fun after op journal h => hwrites ⟨after, op, journal, h⟩
    cases happly : (c.apply value s).outcome with
    | error e =>
      rw [execute_of_error hvalue happly]
      exact .of_error happly (makes?_of_not hvalue hnone)
    | ok u =>
      obtain ⟨op, journal, hmade, -⟩ := apply_of_ok happly
      exact absurd (hstore ▸ hmade) (hnone _ _ _)

/-- Two commands that have not been executed make the same of a store if they edit one op in one way
and write one value. -/
theorem Ready.makes?_congr (h : c.Ready) (h' : c'.Ready) (hbare : c.bare = c'.bare)
    (hvalue : c.newValue = c'.newValue) (before : Store) : c.makes? before = c'.makes? before := by
  obtain ⟨value, hnew⟩ := h.value
  have hwrite := h.toWrite?.trans hnew
  have hwrite' := h'.toWrite?.trans (hvalue.symm.trans hnew)
  by_cases hwrites : ∃ after op journal, c.Writes value before after op journal
  · obtain ⟨after, op, journal, hwrites⟩ := hwrites
    rw [makes?_of_writes hwrite hwrites,
      makes?_of_writes hwrite' (hwrites.congr hbare.symm (h'.op.trans h.op.symm))]
  · have hnone : ∀ after op journal, ¬c.Writes value before after op journal :=
      fun after op journal h => hwrites ⟨after, op, journal, h⟩
    rw [makes?_of_not hwrite hnone, makes?_of_not hwrite' fun after op journal hmade =>
      hnone after op journal (hmade.congr hbare (h.op.trans h'.op.symm))]

/-! ## Giving values to commands that do not stand applied -/

/-- The command with the value it is given, unless it is undone. -/
def taking (c : Command) (value : Vector3) : Command :=
  if c.state = .undone then c else c.withValue value

/-- A command that is not applied takes a finite value and writes nothing. -/
theorem set_of_not_applied (hnot : c.state.isApplied = false) (hfinite : value.isFinite)
    (s : Session) : c.set value s = ⟨.ok (), c.taking value, s⟩ := by
  rcases c.state_cases with hwaiting | happlied | hundone
  · have hstate : c.state ≠ .undone := by
      intro hundone
      simp [hundone] at hwaiting
    rw [set_of_waiting hfinite hwaiting, taking, if_neg hstate]
  · cases hnot.symm.trans happlied
  · rw [set_of_undone hfinite hundone, taking, if_pos hundone]

end Command

namespace MatrixCommand

variable {m m' : MatrixCommand} {s : Session} {before : Store}

/-- The store that executing the command makes of another on a layer that refuses nothing, if each
part can be executed in turn. -/
def makes? (m : MatrixCommand) (before : Store) : Option Store :=
  (m.translate.makes? before).bind fun s₁ => (m.rotate.makes? s₁).bind m.scale.makes?

/-- Each part is ready, or undone on the store that it will find. -/
structure Awaits (m : MatrixCommand) (before : Store) : Prop where
  translate : m.translate.Awaits before
  rotate : ∀ s₁, m.translate.makes? before = some s₁ → m.rotate.Awaits s₁
  scale : ∀ s₁ s₂, m.translate.makes? before = some s₁ → m.rotate.makes? s₁ = some s₂ →
    m.scale.Awaits s₂

/-- The parts of a command that is ready are ready on any store. -/
theorem Ready.awaits (h : m.Ready) (before : Store) : m.Awaits before :=
  ⟨.inl h.translate, fun _ _ => .inl h.rotate, fun _ _ _ _ => .inl h.scale⟩

/-- What comes of executing a command that awaits it is settled by the store. Where it cannot be
executed, the store is as it was. -/
theorem Awaits.execute (h : m.Awaits before) (htyped : before.WellTyped)
    (hlayer : s.layer = { store := before }) :
    (m.execute s).Meets (fun _ s' => m.makes? before = some s'.store)
      fun _ s' => m.makes? before = none ∧ s'.store = before := by
  have hstore : s.store = before := Session.store_eq hlayer
  have htyped' : s.store.WellTyped := hstore ▸ htyped
  have htranslate := h.translate.execute (s := s.signal .hold) htyped hlayer
  -- A part that was executed stands applied on the store before it, so undoing it leads back there.
  cases hfirst : (m.translated s).outcome with
  | error e =>
    have hnone := htranslate.error e hfirst
    obtain ⟨-, ⟨e', herror⟩, -, hback⟩ := execute_of_translate htyped'.orders hfirst
    refine .of_error herror ⟨?_, hback.trans hstore⟩
    rw [makes?, hnone]
    rfl
  | ok u =>
    obtain ⟨s₁, hmade₁, hlayer₁, happlied₁⟩ := htranslate.ok hfirst
    have hstore₁ : (m.translated s).session.store = s₁ := Session.store_eq hlayer₁
    have hrotate := (h.rotate s₁ hmade₁).execute happlied₁.typed_after hlayer₁
    cases hsecond : (m.rotated s).outcome with
    | error e =>
      have hnone := hrotate.error e hsecond
      obtain ⟨-, ⟨e', herror⟩, s', hs', -, hback⟩ :=
        execute_of_rotate (wellTyped_translated htyped').orders hfirst hsecond
      have hundo := happlied₁.undo (hs'.trans hstore₁)
      refine .of_error herror ⟨?_, hback.trans (Session.store_eq (hundo.ok hundo.succeeds).2)⟩
      rw [makes?, hmade₁, Option.bind_some, hnone]
      rfl
    | ok u =>
      obtain ⟨s₂, hmade₂, hlayer₂, happlied₂⟩ := hrotate.ok hsecond
      have hstore₂ : (m.rotated s).session.store = s₂ := Session.store_eq hlayer₂
      have hscale := (h.scale s₁ s₂ hmade₁ hmade₂).execute happlied₂.typed_after hlayer₂
      cases hthird : (m.scaled s).outcome with
      | error e =>
        have hnone := hscale.error e hthird
        obtain ⟨-, ⟨e', herror⟩, s', hs', hcases⟩ :=
          execute_of_scale (wellTyped_rotated htyped').orders hfirst hsecond hthird
        have hundo := happlied₂.undo (hs'.trans hstore₂)
        rcases hcases with ⟨⟨e'', hfails⟩, -⟩ | ⟨-, -, hback⟩
        · cases hfails.symm.trans hundo.succeeds
        · have hundo' := happlied₁.undo (Session.store_eq (hundo.ok hundo.succeeds).2)
          refine .of_error herror ⟨?_, hback.trans (Session.store_eq (hundo'.ok hundo'.succeeds).2)⟩
          rw [makes?, hmade₁, Option.bind_some, hmade₂, Option.bind_some, hnone]
      | ok u =>
        obtain ⟨s₃, hmade₃, hlayer₃, -⟩ := hscale.ok hthird
        rw [execute_of_ok hfirst hsecond hthird]
        refine .of_ok rfl ?_
        rw [makes?, hmade₁, Option.bind_some, hmade₂, Option.bind_some, hmade₃]
        exact congrArg some (Session.store_eq hlayer₃).symm

/-- Two commands that make the same of a store come to the same when they are executed. -/
theorem Awaits.execute_congr (h : m.Awaits before) (h' : m'.Awaits before)
    (htyped : before.WellTyped) (hlayer : s.layer = { store := before })
    (hmakes : m.makes? before = m'.makes? before) : (m.execute s).Like (m'.execute s) := by
  have hdone := h.execute htyped hlayer
  have hdone' := h'.execute htyped hlayer
  cases houtcome : (m.execute s).outcome with
  | error e =>
    obtain ⟨hnone, hstore⟩ := hdone.error e houtcome
    cases houtcome' : (m'.execute s).outcome with
    | error e' =>
      refine ⟨?_, hstore.trans (hdone'.error e' houtcome').2.symm⟩
      rw [houtcome, houtcome']
      simp
    | ok u =>
      have hsome := hdone'.ok houtcome'
      rw [← hmakes, hnone] at hsome
      cases hsome
  | ok u =>
    have hsome := hdone.ok houtcome
    cases houtcome' : (m'.execute s).outcome with
    | error e' =>
      have hnone := (hdone'.error e' houtcome').1
      rw [← hmakes, hsome] at hnone
      cases hnone
    | ok u =>
      have hsome' := hdone'.ok houtcome'
      rw [← hmakes, hsome] at hsome'
      exact ⟨iff_of_true houtcome houtcome', Option.some.inj hsome'⟩

/-! ## What a failed execution of a ready command leaves -/

/-- A ready command that could not be executed leaves the store. The parts before the one that
failed are undone, and the others are ready. -/
inductive Left (m : MatrixCommand) (before : Store) : List Part → MatrixCommand → Prop where
  | none : Left m before [] m
  | translate {c : Command} {s₁ : Store} (hundone : c.Undone before s₁)
      (hmade : m.translate.makes? before = some s₁) :
      Left m before [.translate] { m with translate := c }
  | rotate {c c' : Command} {s₁ s₂ : Store} (hundone : c.Undone before s₁)
      (hmade : m.translate.makes? before = some s₁) (hundone' : c'.Undone s₁ s₂)
      (hmade' : m.rotate.makes? s₁ = some s₂) :
      Left m before [.translate, .rotate] { m with translate := c, rotate := c' }

/-- A ready command whose execution fails leaves the store, and parts that are undone or ready. -/
theorem Ready.left (h : m.Ready) (htyped : s.store.WellTyped) {e : EditError}
    (herror : (m.execute s).outcome = .error e) :
    (m.execute s).session.store = s.store ∧
      m.Left s.store (m.executed s) (m.execute s).command := by
  refine ⟨(h.execute htyped).error e herror, ?_⟩
  have htyped₁ := wellTyped_translated (m := m) htyped
  -- By the part that fails: those before it are undone in turn, the newest first.
  rcases execute_error_cases herror with
    ⟨e, herror⟩ | ⟨hok, ⟨e, herror⟩ | ⟨hok', e, herror⟩⟩
  · obtain ⟨hexecuted, -, hcommand, -⟩ := execute_of_translate htyped.orders herror
    rw [hexecuted, hcommand]
    exact .none
  all_goals
    have hready := h.translate
    have happlied : (m.translated s).command.Applied s.store (m.translated s).session.store :=
      (hready.execute (s := s.signal .hold) htyped).ok hok
    have hmade : m.translate.makes? s.store = some (m.translated s).session.store :=
      Command.makes?_of_execute (s := s.signal .hold) (.inl hready) hok
  · obtain ⟨hexecuted, -, s₁, hs₁, hcommand, -⟩ :=
      execute_of_rotate htyped₁.orders hok herror
    have hundo := happlied.undo hs₁
    rw [hexecuted, hcommand]
    exact .translate (hundo.ok hundo.succeeds).1 hmade
  · obtain ⟨hexecuted, -, s₂, hs₂, hcases⟩ :=
      execute_of_scale (wellTyped_rotated htyped).orders hok hok' herror
    have happlied' : (m.rotated s).command.Applied (m.translated s).session.store
        (m.rotated s).session.store := (h.rotate.execute htyped₁).ok hok'
    have hmade' := Command.makes?_of_execute (.inl h.rotate) hok'
    have hundo' := happlied'.undo hs₂
    rcases hcases with ⟨⟨e', hfails⟩, -⟩ | ⟨-, hcommand, -⟩
    · cases hfails.symm.trans hundo'.succeeds
    · obtain ⟨hundone', hlayer⟩ := hundo'.ok hundo'.succeeds
      have hback := Session.store_eq hlayer
      have hundo := happlied.undo hback
      rw [hexecuted, hcommand]
      exact .rotate (hundo.ok hundo.succeeds).1 hmade hundone' hmade'

/-! ## Giving another matrix -/

/-- Parts that do not stand applied take the finite values up to the first that is not, and nothing
is written. -/
theorem inTurn_set_of_not_applied (p : Placement) {parts : List Part} (hparts : parts.Nodup)
    (hnot : ∀ q ∈ parts, (m.part q).state.isApplied = false) (s : Session) :
    let done := inTurn (fun q c => c.set (p.value q)) parts m s
    done.session = s ∧ ∀ q, done.command.part q =
      if q ∈ parts.takeWhile fun q => (p.value q).isFinite then (m.part q).taking (p.value q)
      else m.part q := by
  -- On the parts that are still to come; each is met with the parts before it changed already.
  induction parts generalizing m with
  | nil => exact ⟨rfl, fun q => rfl⟩
  | cons first others ih =>
    obtain ⟨hfirst, hothers⟩ := List.nodup_cons.1 hparts
    cases hfinite : (p.value first).isFinite with
    | false =>
      have hset := Command.set_of_not_finite hfinite (m.part first) s
      have hrefused : inTurn (fun q c => c.set (p.value q)) (first :: others) m s =
          ⟨.error (.rejected (.notFinite (p.value first))), m, s⟩ := by
        rw [inTurn_of_error (congrArg Call.outcome hset), hset, withPart_part]
      rw [hrefused]
      refine ⟨rfl, fun q => ?_⟩
      rw [List.takeWhile_cons_of_neg (by simp [hfinite])]
      rfl
    | true =>
      have hset := Command.set_of_not_applied (hnot first List.mem_cons_self) hfinite s
      have hkept : ∀ q, q ∈ others → q ≠ first := fun q hq hsame => hfirst (hsame ▸ hq)
      let m₁ := m.withPart ((m.part first).taking (p.value first)) first
      have hrest : inTurn (fun q c => c.set (p.value q)) (first :: others) m s =
          inTurn (fun q c => c.set (p.value q)) others m₁ s := by
        rw [inTurn_of_ok (congrArg Call.outcome hset), hset]
      obtain ⟨hsession, hgiven⟩ := ih (m := m₁) hothers fun q hq => by
        rw [part_withPart_of_ne (hkept q hq)]
        exact hnot q (List.mem_cons_of_mem _ hq)
      rw [hrest]
      refine ⟨hsession, fun q => ?_⟩
      have hwhile : (first :: others).takeWhile (fun q => (p.value q).isFinite) =
          first :: others.takeWhile fun q => (p.value q).isFinite :=
        List.takeWhile_cons_of_pos hfinite
      rw [hgiven, hwhile]
      by_cases hsame : q = first
      · subst hsame
        have hnew : q ∉ others.takeWhile fun q => (p.value q).isFinite :=
          fun hq => hfirst ((List.takeWhile_sublist _).subset hq)
        rw [if_neg hnew, part_withPart, if_pos List.mem_cons_self]
      · rw [part_withPart_of_ne hsame]
        simp [hsame]

/-- The parts before the first whose value is not finite. -/
def finiteParts (p : Placement) : List Part := allParts.takeWhile fun q => (p.value q).isFinite

/-- The parts with finite values before the first without are the first few of all parts. -/
theorem finiteParts_mem (p : Placement) :
    finiteParts p ∈ [[], [.translate], [.translate, .rotate], allParts] := by
  unfold finiteParts allParts
  cases htranslate : (p.value .translate).isFinite <;>
    cases hrotate : (p.value .rotate).isFinite <;>
    cases hscale : (p.value .scale).isFinite <;> simp [htranslate, hrotate, hscale]

/-- The command once some of its parts have taken the values of a placement. Those that are undone
ignore them. -/
def take (m : MatrixCommand) (p : Placement) (parts : List Part) : MatrixCommand :=
  let taken (q : Part) : Command :=
    if q ∈ parts then (m.part q).taking (p.value q) else m.part q
  { m with translate := taken .translate, rotate := taken .rotate, scale := taken .scale }

/-- The parts that take their values have them, and the others stay as they are. -/
theorem part_take (m : MatrixCommand) (p : Placement) (parts : List Part) (q : Part) :
    (m.take p parts).part q =
      if q ∈ parts then (m.part q).taking (p.value q) else m.part q := by
  cases q <;> rfl

/-- A command none of whose parts stands applied takes the values of a matrix. -/
theorem set_of_not_applied (hnot : ∀ q, (m.part q).state.isApplied = false) (matrix : Matrix4)
    (s : Session) :
    let p := Placement.ofMatrix matrix
    (m.set matrix s).session = s ∧ (m.set matrix s).command = m.take p (finiteParts p) := by
  intro p
  obtain ⟨hsession, hgiven⟩ :=
    inTurn_set_of_not_applied p (by decide) (fun q (_ : q ∈ allParts) => hnot q) s
  have hentity : (m.set matrix s).command.entity = (m.take p (finiteParts p)).entity :=
    m.entity_set matrix s
  refine ⟨by rw [set_eq, hsession], eq_of_part hentity fun q => ?_⟩
  rw [set_eq, part_take]
  exact hgiven q

/-- The parts of a ready command that take their values have them, and the others stay as they
are. -/
theorem Ready.part_take (h : m.Ready) {p : Placement} {parts : List Part} (q : Part) :
    (m.take p parts).part q =
      if q ∈ parts then (m.part q).withValue (p.value q) else m.part q := by
  have hpending : (m.part q).state ≠ .undone := by
    rw [(ready_iff.1 h q).state]
    exact CommandState.noConfusion
  rw [MatrixCommand.part_take, Command.taking, if_neg hpending]

/-- A command that is ready stays so when parts take their values. -/
theorem Ready.take (h : m.Ready) (p : Placement) (parts : List Part) :
    (m.take p parts).Ready := by
  refine ready_iff.2 fun q => ?_
  have hpart := ready_iff.1 h q
  rw [h.part_take]
  split
  · exact ⟨rfl, ⟨_, rfl⟩, hpart.op, hpart.journal, hpart.fits⟩
  · exact hpart

namespace Left

variable {executed : List Part} {left given renewed : MatrixCommand}

/-- A store that was written to is open already. -/
theorem opened (h : m.Left before executed left) :
    m.Left (before.setReadOnly false) executed left := by
  have hopen {c : Command} {after : Store} (hundone : c.Undone before after) :
      before.setReadOnly false = before := by
    obtain ⟨value, op, journal, -, hwrites, -⟩ := hundone.writes
    rw [Store.setReadOnly, ← hwrites.writable.1]
  cases h with
  | none => exact .none
  | translate hundone hmade =>
    rw [hopen hundone]
    exact .translate hundone hmade
  | rotate hundone hmade hundone' hmade' =>
    rw [hopen hundone]
    exact .rotate hundone hmade hundone' hmade'

/-- The parts that were executed are undone, and the others are as they were. -/
theorem part (h : m.Left before executed left) (q : Part) :
    if q ∈ executed then (left.part q).state = .undone else left.part q = m.part q := by
  cases h with
  | none => rfl
  | translate hundone => cases q <;> first | rfl | exact hundone.state
  | rotate hundone hmade hundone' =>
    cases q <;> first | rfl | exact hundone.state | exact hundone'.state

/-- Executed again, the parts that are undone make what they made, and the others what they are to
make now. -/
theorem makes?_eq (h : m.Left before executed left) (hready : renewed.Ready)
    (hold : ∀ q ∈ executed, renewed.part q = m.part q)
    (hgiven : ∀ q, given.part q = if q ∈ executed then left.part q else renewed.part q) :
    given.Awaits before ∧ given.makes? before = renewed.makes? before := by
  have htranslate : given.translate = _ := hgiven .translate
  have hrotate : given.rotate = _ := hgiven .rotate
  have hscale : given.scale = _ := hgiven .scale
  -- An undone part makes again what it made, and hands the next one the store it found then.
  cases h with
  | none =>
    have htranslate : given.translate = renewed.translate := htranslate
    have hrotate : given.rotate = renewed.rotate := hrotate
    have hscale : given.scale = renewed.scale := hscale
    have hsame : given.makes? before = renewed.makes? before := by
      rw [MatrixCommand.makes?, MatrixCommand.makes?, htranslate, hrotate, hscale]
    refine ⟨⟨.inl ?_, fun _ _ => .inl ?_, fun _ _ _ _ => .inl ?_⟩, hsame⟩
    · exact htranslate ▸ hready.translate
    · exact hrotate ▸ hready.rotate
    · exact hscale ▸ hready.scale
  | @translate c s₁ hundone hmade =>
    have htranslate : given.translate = c := htranslate
    have hrotate : given.rotate = renewed.rotate := hrotate
    have hscale : given.scale = renewed.scale := hscale
    have hkept : renewed.translate = m.translate := hold .translate List.mem_cons_self
    have hsame : given.makes? before = renewed.makes? before := by
      rw [MatrixCommand.makes?, MatrixCommand.makes?, htranslate, hrotate, hscale, hkept,
        hundone.makes?, hmade]
    refine ⟨⟨.inr ⟨s₁, htranslate ▸ hundone⟩, fun _ _ => .inl ?_, fun _ _ _ _ => .inl ?_⟩, hsame⟩
    · exact hrotate ▸ hready.rotate
    · exact hscale ▸ hready.scale
  | @rotate c c' s₁ s₂ hundone hmade hundone' hmade' =>
    have htranslate : given.translate = c := htranslate
    have hrotate : given.rotate = c' := hrotate
    have hscale : given.scale = renewed.scale := hscale
    have hkept : renewed.translate = m.translate := hold .translate List.mem_cons_self
    have hkept' : renewed.rotate = m.rotate := hold .rotate (by simp)
    have hsame : given.makes? before = renewed.makes? before := by
      rw [MatrixCommand.makes?, MatrixCommand.makes?, htranslate, hrotate, hscale, hkept, hkept',
        hundone.makes?, hmade, Option.bind_some, Option.bind_some, hundone'.makes?, hmade']
    refine ⟨⟨.inr ⟨s₁, htranslate ▸ hundone⟩, fun s₁' hmade₁ => ?_, fun _ _ _ _ => .inl ?_⟩, hsame⟩
    · rw [htranslate, hundone.makes?] at hmade₁
      cases hmade₁
      exact .inr ⟨s₂, hrotate ▸ hundone'⟩
    · exact hscale ▸ hready.scale

/-- Given another matrix, the parts that were executed keep their values. The others take the new
ones, up to the first that is not finite. -/
theorem part_set (h : m.Left before executed left) (hready : m.Ready) (matrix : Matrix4)
    (s : Session) :
    let p := Placement.ofMatrix matrix
    let taken := (finiteParts p).filter (· ∉ executed)
    (left.set matrix s).session = s ∧ ∀ q, (left.set matrix s).command.part q =
      if q ∈ executed then left.part q else (m.take p taken).part q := by
  intro p taken
  have hnot : ∀ q, (left.part q).state.isApplied = false := by
    intro q
    have hpart := h.part q
    split at hpart
    · rw [hpart]
      rfl
    · rw [hpart, (ready_iff.1 hready q).state]
      rfl
  obtain ⟨hsession, hgiven⟩ := set_of_not_applied hnot matrix s
  refine ⟨hsession, fun q => ?_⟩
  have hpart := h.part q
  rw [hgiven, MatrixCommand.part_take, MatrixCommand.part_take]
  by_cases hexecuted : q ∈ executed
  · rw [if_pos hexecuted] at hpart
    rw [if_pos hexecuted, Command.taking, if_pos hpart, ite_self]
  · have htaken : q ∈ taken ↔ q ∈ finiteParts p := by simp [taken, hexecuted]
    rw [if_neg hexecuted] at hpart
    rw [if_neg hexecuted, if_congr htaken rfl rfl, hpart]

end Left

/-- Two ready commands whose parts edit the same ops and write the same values make the same of a
store. -/
theorem Ready.makes?_congr (h : m.Ready) (h' : m'.Ready)
    (hparts : ∀ q, (m.part q).bare = (m'.part q).bare ∧ (m.part q).newValue = (m'.part q).newValue)
    (before : Store) : m.makes? before = m'.makes? before := by
  have hsame (q : Part) : (m.part q).makes? = (m'.part q).makes? :=
    funext ((ready_iff.1 h q).makes?_congr (ready_iff.1 h' q) (hparts q).1 (hparts q).2)
  have htranslate : m.translate.makes? = m'.translate.makes? := hsame .translate
  have hrotate : m.rotate.makes? = m'.rotate.makes? := hsame .rotate
  have hscale : m.scale.makes? = m'.scale.makes? := hsame .scale
  rw [makes?, makes?, htranslate, hrotate, hscale]

/-- The values of an offered matrix command are those of its matrix. -/
theorem newValue_of_offerMatrix {view : StackView} {st : Store} {matrix : Matrix4}
    (h : view.offerMatrix st matrix = .ok (.ok m)) (q : Part) :
    (m.part q).newValue = some ((Placement.ofMatrix matrix).value q) := by
  obtain ⟨-, htranslate, hrotate, hscale⟩ := StackView.parts_of_offerMatrix h
  cases q with
  | translate => exact (StackView.offered_of_offerAt htranslate).value
  | rotate => exact (StackView.offered_of_offerAt hrotate).value
  | scale => exact (StackView.offered_of_offerAt hscale).value

/-! ## A rotation that is refused -/

/-- The bare store in a session that refuses the second op. -/
def grudging : Session := { layer := { store := .bare, refusals := { addAfter := some 1 } } }

/-- What executing the command for a matrix comes to there. -/
def refused : Call MatrixCommand := AnyCommand.transform.execute grudging

/-- The session once the store takes writes again. -/
def healed : Session := { layer := { store := refused.session.store.setReadOnly false } }

/-- A matrix that moves. -/
def moving : Matrix4 := { (default : Matrix4) with d := ⟨.one, .one, .one, .one⟩ }

/-- The command that a view of the bare store offers for that matrix. -/
def fresh : MatrixCommand := AnyCommand.transform.take (Placement.ofMatrix moving) allParts

/-! ## Using the command again -/

/-- A command that could not be executed is given another matrix, and executed on the store it left,
which is open now and refuses nothing. It comes to what the command comes to that has the new values
in the parts that take them: those that were not executed at first, up to the first whose value is
not finite. Where all parts do, it comes to what any command for the matrix does that was never
executed. -/
theorem set_after_failed_execute {s₁ : Session} {e : EditError}
    (hfresh : (AnyCommand.matrix m).Fresh) (htyped : s.store.WellTyped)
    (herror : (m.execute s).outcome = .error e)
    (hhealed : s₁.layer = { store := (m.execute s).session.store.setReadOnly false })
    (matrix : Matrix4) :
    let p := Placement.ofMatrix matrix
    let given := (m.execute s).command.set matrix s₁
    let done := given.command.execute given.session
    let taken := (finiteParts p).filter (· ∉ m.executed s)
    done.Like ((m.take p taken).execute s₁) ∧
      ((∀ q, q ∈ taken) → ∀ (view : StackView) (st : Store) (fresh : MatrixCommand),
        view.offerMatrix st matrix = .ok (.ok fresh) →
        (∀ q, (fresh.part q).bare = (m.part q).bare) → done.Like (fresh.execute s₁)) := by
  intro p given done taken
  have hready : m.Ready := hfresh.ready
  obtain ⟨hstore, hleft⟩ := hready.left htyped herror
  have hleft := hleft.opened
  have htyped₁ : (s.store.setReadOnly false).WellTyped := ⟨htyped.values, htyped.orders⟩
  rw [hstore] at hhealed
  obtain ⟨hsession, hpart⟩ := hleft.part_set hready matrix s₁
  have hlayer : given.session.layer = { store := s.store.setReadOnly false } := by
    rw [hsession, hhealed]
  have hrenewed : (m.take p taken).Ready := hready.take p taken
  have hold : ∀ q ∈ m.executed s, (m.take p taken).part q = m.part q := by
    intro q hq
    rw [part_take, if_neg (by simp [taken, hq])]
  -- Commands that would make the same of a store execute alike on it. So it is enough to compare
  -- what the parts would make.
  obtain ⟨hawaits, hmakes⟩ := hleft.makes?_eq hrenewed hold hpart
  have hlike {m' : MatrixCommand} (hready' : m'.Ready)
      (hsame : (m.take p taken).makes? (s.store.setReadOnly false) =
        m'.makes? (s.store.setReadOnly false)) : done.Like (m'.execute s₁) := by
    have hcongr := hawaits.execute_congr (hready'.awaits _) htyped₁ hlayer (hmakes.trans hsame)
    rw [hsession] at hcongr
    have hdone : done = given.command.execute s₁ := congrArg given.command.execute hsession
    rw [← hdone] at hcongr
    exact hcongr
  refine ⟨hlike hrenewed rfl, fun hall view st fresh hoffer hbare => ?_⟩
  have hready' : fresh.Ready := (StackView.ready_of_offerMatrix hoffer).1
  refine hlike hready' (hrenewed.makes?_congr hready' (fun q => ?_) _)
  rw [hready.part_take, if_pos (hall q), hbare, newValue_of_offerMatrix hoffer]
  exact ⟨rfl, rfl⟩

/-- The scale and the rotation take the values of the other matrix, and the translation does not. -/
theorem set_after_failed_execute_refused :
    let p := Placement.ofMatrix moving
    let given := refused.command.set moving healed
    refused.outcome = .error (.structural (.addRefused .rotate .rotateXYZ default)) ∧
      (given.command.execute given.session).Like
        ((AnyCommand.transform.take p ((finiteParts p).filter (· ∉ [.translate]))).execute
          healed) := by
  intro p given
  have herror : refused.outcome =
      .error (.structural (.addRefused .rotate .rotateXYZ default)) := by decide +kernel
  have hexecuted : AnyCommand.transform.executed grudging = [.translate] := by decide +kernel
  have htyped : grudging.store.WellTyped := Store.wellTyped_bare
  have hhealed : healed.layer = { store := refused.session.store.setReadOnly false } := rfl
  have hlike :=
    (set_after_failed_execute AnyCommand.fresh_transform htyped herror hhealed moving).1
  rw [hexecuted] at hlike
  exact ⟨herror, hlike⟩

/-- Executed again, the command writes the old translation. A command for the other matrix that was
never executed writes the new one. -/
theorem reused_command_keeps_translation :
    let given := refused.command.set moving healed
    let authored (done : Call MatrixCommand) :=
      done.session.store.authored? default "xformOp:translate" .default
    StackView.offerMatrix ⟨default, .default⟩ healed.store moving = .ok (.ok fresh) ∧
      refused.outcome = .error (.structural (.addRefused .rotate .rotateXYZ default)) ∧
      authored (fresh.execute healed) = .ok (some (.double3 Vector3.one)) ∧
      authored (given.command.execute given.session) = .ok (some (.double3 Vector3.zero)) := by
  intro given authored
  refine ⟨rfl, by decide +kernel, by decide +kernel, ?_⟩
  -- How many of the values are finite is not known, and the translation does not depend on it.
  have hall : ∀ parts ∈ [[], [.translate], [.translate, .rotate], allParts],
      authored ((refused.command.take (Placement.ofMatrix moving) parts).execute healed) =
        .ok (some (.double3 Vector3.zero)) := by decide +kernel
  have hnot : ∀ q ∈ allParts, (refused.command.part q).state.isApplied = false := by
    decide +kernel
  obtain ⟨hsession, hgiven⟩ := set_of_not_applied
    (fun q => hnot q (by cases q <;> decide)) moving healed
  show authored ((refused.command.set moving healed).command.execute _) = _
  rw [hgiven, hsession]
  exact hall _ (finiteParts_mem _)

end MatrixCommand

end TransformStack
