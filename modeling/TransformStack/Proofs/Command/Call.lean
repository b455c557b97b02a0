import TransformStack.Command.Matrix

/-!
# What calls meet

A call on a command meets two conditions on the command and the session that it leaves: one where it
succeeds, one where it fails. The ways in which calls are joined carry the conditions over.
-/

namespace TransformStack

namespace Call

variable {κ : Type} {P Q E F : κ → Session → Prop} {call : Call κ} {next : κ → Session → Call κ}

/-- After a call that succeeds the next one is made on what it left. -/
theorem andThen_of_ok (h : call.outcome = .ok ()) :
    call.andThen next = next call.command call.session := by
  rw [Call.andThen, h]

/-- After a call that fails no other is made. -/
theorem andThen_of_error {e : EditError} (h : call.outcome = .error e) :
    call.andThen next = call := by
  rw [Call.andThen, h]

/-- Calls made one after the other may be grouped in any way. -/
theorem andThen_assoc {last : κ → Session → Call κ} :
    (call.andThen next).andThen last = call.andThen fun c s => (next c s).andThen last := by
  unfold Call.andThen
  cases houtcome : call.outcome with
  | ok u => rfl
  | error e =>
    dsimp only
    rw [houtcome]

/-- Going on with nothing changes nothing. -/
theorem andThen_done : (call.andThen fun c s => ⟨.ok (), c, s⟩) = call := by
  obtain ⟨_ | u, c, s⟩ := call <;> rfl

/-- There is nothing to make up for where a call succeeds. -/
theorem orElse_of_ok (h : call.outcome = .ok ()) : call.orElse next = call := by
  rw [Call.orElse, h]

/-- A call that failed is made up for, and fails all the same. -/
theorem orElse_of_error {e : EditError} (h : call.outcome = .error e)
    (next : κ → Session → Call κ) :
    (∃ e', (call.orElse next).outcome = .error e') ∧
      (call.orElse next).command = (next call.command call.session).command ∧
      (call.orElse next).session = (next call.command call.session).session := by
  rw [Call.orElse, h]
  dsimp only
  cases hrecovery : (next call.command call.session).outcome with
  | ok u => exact ⟨⟨e, rfl⟩, rfl, rfl⟩
  | error e' => exact ⟨⟨e', hrecovery⟩, rfl, rfl⟩

/-- A call leaves one condition where it succeeds, and another where it fails. -/
structure Meets (call : Call κ) (P E : κ → Session → Prop) : Prop where
  ok : call.outcome = .ok () → P call.command call.session
  error : ∀ e, call.outcome = .error e → E call.command call.session

namespace Meets

/-- What is known of a call may be weakened, for success and for failure. -/
theorem mono (h : call.Meets P E) (hP : ∀ c s, P c s → Q c s) (hE : ∀ c s, E c s → F c s) :
    call.Meets Q F :=
  ⟨fun hok => hP _ _ (h.ok hok), fun e herror => hE _ _ (h.error e herror)⟩

/-- A call that cannot fail succeeds. -/
theorem succeeds (h : call.Meets P fun _ _ => False) : call.outcome = .ok () := by
  cases houtcome : call.outcome with
  | ok u => rfl
  | error e => exact (h.error e houtcome).elim

/-- What a call leaves in any case. -/
theorem intro (h : P call.command call.session) : call.Meets P P := ⟨fun _ => h, fun _ _ => h⟩

/-- What holds of a call however it ends holds of what it leaves. -/
theorem leaves (h : call.Meets P P) : P call.command call.session := by
  cases houtcome : call.outcome with
  | ok u => exact h.ok houtcome
  | error e => exact h.error e houtcome

/-- A call that succeeds meets a condition wherever it leaves it. -/
theorem of_ok (hok : call.outcome = .ok ()) (h : P call.command call.session) : call.Meets P E :=
  ⟨fun _ => h, fun _ herror => (nomatch hok.symm.trans herror)⟩

/-- A call that fails meets a condition wherever it leaves it. -/
theorem of_error {e : EditError} (herror : call.outcome = .error e)
    (h : E call.command call.session) : call.Meets P E :=
  ⟨fun hok => (nomatch herror.symm.trans hok), fun _ _ => h⟩

/-- Where the first call succeeds, the next one goes on from what it left. -/
theorem andThen (h : call.Meets P E) (hnext : ∀ c s, P c s → (next c s).Meets Q E) :
    (call.andThen next).Meets Q E := by
  unfold Call.andThen
  cases houtcome : call.outcome with
  | ok u => exact hnext _ _ (h.ok houtcome)
  | error e =>
    refine ⟨fun hok => ?_, fun e' _ => h.error e houtcome⟩
    rw [houtcome] at hok
    cases hok

/-- Where the call fails, the recovery goes on from what it left; it fails all the same. -/
theorem orElse (h : call.Meets P E) (hnext : ∀ c s, E c s → (next c s).Meets F F) :
    (call.orElse next).Meets P F := by
  unfold Call.orElse
  cases houtcome : call.outcome with
  | ok u => exact of_ok houtcome (h.ok houtcome)
  | error e =>
    have hrecovery := hnext _ _ (h.error e houtcome)
    dsimp only
    cases hnextOutcome : (next call.command call.session).outcome with
    | ok u => exact ⟨fun hok => (by cases hok), fun _ _ => hrecovery.ok hnextOutcome⟩
    | error e' =>
      refine ⟨fun hok => ?_, hrecovery.error⟩
      rw [hnextOutcome] at hok
      cases hok

/-- Holding notices back does not touch the layer. -/
theorem guarded {act : κ → Session → Call κ} {c : κ} {s : Session}
    (h : (act c (s.signal .hold)).Meets (fun c s => P c (s.signal .release))
      fun c s => E c (s.signal .release)) :
    (Call.guarded act c s).Meets P E :=
  ⟨h.ok, h.error⟩

end Meets

end Call

/-! ## Calls on a part of a matrix command -/

/-- A part of a matrix. -/
inductive Part where
  | translate
  | rotate
  | scale
  deriving DecidableEq

/-- A property of all parts is one of each of the three. -/
theorem Part.forall_iff {P : Part → Prop} : (∀ p, P p) ↔ P .translate ∧ P .rotate ∧ P .scale := by
  constructor
  · exact fun h => ⟨h .translate, h .rotate, h .scale⟩
  · rintro ⟨htranslate, hrotate, hscale⟩ p
    cases p <;> assumption

/-- The value of a placement for a part. -/
def Placement.value (p : Placement) : Part → Vector3
  | .translate => p.translation
  | .rotate => p.rotation
  | .scale => p.scale

namespace MatrixCommand

variable {P E : MatrixCommand → Session → Prop} {act : Command → Session → Call Command}
  {m : MatrixCommand} {s : Session} {p : Part}

/-- The command for a part. -/
def part (m : MatrixCommand) : Part → Command
  | .translate => m.translate
  | .rotate => m.rotate
  | .scale => m.scale

/-- Replace the command for a part. -/
def withPart (m : MatrixCommand) (c : Command) : Part → MatrixCommand
  | .translate => { m with translate := c }
  | .rotate => { m with rotate := c }
  | .scale => { m with scale := c }

/-- A call on the command for a part. -/
def onPart (act : Command → Session → Call Command) :
    Part → MatrixCommand → Session → Call MatrixCommand
  | .translate => translating act
  | .rotate => rotating act
  | .scale => scaling act

/-- A call on a part leaves the other parts as they are. -/
theorem onPart_eq (act : Command → Session → Call Command) (p : Part) (m : MatrixCommand)
    (s : Session) :
    onPart act p m s = ⟨(act (m.part p) s).outcome, m.withPart (act (m.part p) s).command p,
      (act (m.part p) s).session⟩ := by
  cases p <;> rfl

/-- The part that was put into a command is found in it. -/
@[simp] theorem part_withPart (m : MatrixCommand) (c : Command) : (m.withPart c p).part p = c := by
  cases p <;> rfl

/-- Putting one part into a command leaves the others. -/
theorem part_withPart_of_ne {q : Part} (hne : q ≠ p) (m : MatrixCommand) (c : Command) :
    (m.withPart c p).part q = m.part q := by
  cases p <;> cases q <;> first | rfl | exact absurd rfl hne

@[simp] theorem withPart_withPart (m : MatrixCommand) (c c' : Command) :
    (m.withPart c p).withPart c' p = m.withPart c' p := by
  cases p <;> rfl

@[simp] theorem withPart_part (m : MatrixCommand) : m.withPart (m.part p) p = m := by
  cases p <;> rfl

/-- What is known of a call on a part is known of the whole command with that part put in. -/
theorem onPart_meets (p : Part) (h : (act (m.part p) s).Meets
      (fun c s => P (m.withPart c p) s) fun c s => E (m.withPart c p) s) :
    (onPart act p m s).Meets P E := by
  rw [onPart_eq]
  exact ⟨h.ok, h.error⟩

/-- A call on one part does not change another. -/
theorem part_onPart {q : Part} (hne : p ≠ q) :
    (onPart act q m s).command.part p = m.part p := by
  rw [onPart_eq, part_withPart_of_ne hne]

/-! ## What calls on parts keep -/

section

variable {R : MatrixCommand → Session → Prop}

/-- The call on any part keeps a property of matrix commands and of the sessions that they are
in. -/
def Sustains (R : MatrixCommand → Session → Prop) (act : Command → Session → Call Command) : Prop :=
  ∀ p m s, R m s → (onPart act p m s).Meets R R

/-- What no signal breaks, and no execution or undo of a part, is sustained by executing the
whole. -/
theorem Sustains.execute (hsignal : ∀ m s signal, R m s → R m (s.signal signal))
    (hexecute : Sustains R Command.execute) (hundo : Sustains R Command.undo) (h : R m s) :
    (m.execute s).Meets R R := by
  refine .guarded (.mono (.andThen (P := R)
    (.andThen (P := R) (hexecute .translate m _ (hsignal _ _ _ h)) ?_) ?_)
    (fun _ _ => hsignal _ _ _) fun _ _ => hsignal _ _ _)
  · exact fun m s h => .orElse (hexecute .rotate m s h) (hundo .translate)
  · exact fun m s h => .orElse (hexecute .scale m s h) fun m s h =>
      .andThen (hundo .rotate m s h) (hundo .translate)

/-- What no signal breaks, and no undo of a part, is sustained by undoing the whole. -/
theorem Sustains.undo (hsignal : ∀ m s signal, R m s → R m (s.signal signal))
    (hundo : Sustains R Command.undo) (h : R m s) : (m.undo s).Meets R R :=
  .guarded (.mono (.andThen (.andThen (hundo .scale m _ (hsignal _ _ _ h)) (hundo .rotate))
    (hundo .translate)) (fun _ _ => hsignal _ _ _) fun _ _ => hsignal _ _ _)

/-- What no signal breaks, and no redo of a part, is sustained by redoing the whole. -/
theorem Sustains.redo (hsignal : ∀ m s signal, R m s → R m (s.signal signal))
    (hredo : Sustains R Command.redo) (h : R m s) : (m.redo s).Meets R R :=
  .guarded (.mono (.andThen (.andThen (hredo .translate m _ (hsignal _ _ _ h)) (hredo .rotate))
    (hredo .scale)) (fun _ _ => hsignal _ _ _) fun _ _ => hsignal _ _ _)

variable {Q : MatrixCommand → Prop}

/-- The call on any part keeps a property of matrix commands. -/
def Keeps (Q : MatrixCommand → Prop) (act : Command → Session → Call Command) : Prop :=
  ∀ p m s, Q m → (onPart act p m s).Meets (fun m' _ => Q m') fun m' _ => Q m'

/-- What executing and undoing parts keep of the command is kept by executing the whole. -/
theorem Keeps.execute (hexecute : Keeps Q Command.execute) (hundo : Keeps Q Command.undo)
    (h : Q m) (s : Session) : (m.execute s).Meets (fun m' _ => Q m') fun m' _ => Q m' :=
  Sustains.execute (R := fun m _ => Q m) (fun _ _ _ h => h) hexecute hundo h

/-- What undoing parts keeps of the command is kept by undoing the whole. -/
theorem Keeps.undo (hundo : Keeps Q Command.undo) (h : Q m) (s : Session) :
    (m.undo s).Meets (fun m' _ => Q m') fun m' _ => Q m' :=
  Sustains.undo (R := fun m _ => Q m) (fun _ _ _ h => h) hundo h

/-- What redoing parts keeps of the command is kept by redoing the whole. -/
theorem Keeps.redo (hredo : Keeps Q Command.redo) (h : Q m) (s : Session) :
    (m.redo s).Meets (fun m' _ => Q m') fun m' _ => Q m' :=
  Sustains.redo (R := fun m _ => Q m) (fun _ _ _ h => h) hredo h

/-- What giving values to parts keeps of the command is kept by giving the whole a matrix. -/
theorem Keeps.set (hset : ∀ value, Keeps Q (·.set value)) (h : Q m) (matrix : Matrix4)
    (s : Session) : (m.set matrix s).Meets (fun m' _ => Q m') fun m' _ => Q m' :=
  .andThen (.andThen (hset _ .translate m s h) (hset _ .rotate)) (hset _ .scale)

end

/-! ## Parts in turn -/

/-- Calls on some parts, one after the other, up to the first that fails. -/
def inTurn (act : Part → Command → Session → Call Command) :
    List Part → MatrixCommand → Session → Call MatrixCommand
  | [], m, s => ⟨.ok (), m, s⟩
  | p :: parts, m, s => (onPart (act p) p m s).andThen (inTurn act parts)

/-- The parts before the first on which the call fails. -/
def succeeded (act : Part → Command → Session → Call Command) (m : MatrixCommand) :
    List Part → Session → List Part
  | [], _ => []
  | p :: parts, s =>
    match (act p (m.part p) s).outcome with
    | .ok _ => p :: succeeded act m parts (act p (m.part p) s).session
    | .error _ => []

/-- The parts on which the call is made: those on which it succeeds, and the first on which it
fails. -/
def tried (act : Part → Command → Session → Call Command) (m : MatrixCommand) :
    List Part → Session → List Part
  | [], _ => []
  | p :: parts, s =>
    match (act p (m.part p) s).outcome with
    | .ok _ => p :: tried act m parts (act p (m.part p) s).session
    | .error _ => [p]

section

variable {act : Part → Command → Session → Call Command} {parts : List Part}

/-- A part whose call succeeds is counted, and the calls go on. -/
theorem succeeded_of_ok (h : (act p (m.part p) s).outcome = .ok ()) :
    m.succeeded act (p :: parts) s = p :: m.succeeded act parts (act p (m.part p) s).session := by
  rw [succeeded, h]

/-- No part from the first failure on is counted. -/
theorem succeeded_of_error {e : EditError} (h : (act p (m.part p) s).outcome = .error e) :
    m.succeeded act (p :: parts) s = [] := by
  rw [succeeded, h]

/-- After a call that succeeds the next part is tried too. -/
theorem tried_of_ok (h : (act p (m.part p) s).outcome = .ok ()) :
    m.tried act (p :: parts) s = p :: m.tried act parts (act p (m.part p) s).session := by
  rw [tried, h]

/-- The part whose call fails is the last that is tried. -/
theorem tried_of_error {e : EditError} (h : (act p (m.part p) s).outcome = .error e) :
    m.tried act (p :: parts) s = [p] := by
  rw [tried, h]

/-- The call is made on each part at most once. -/
theorem tried_sublist (act : Part → Command → Session → Call Command) (m : MatrixCommand)
    (parts : List Part) (s : Session) : (m.tried act parts s).Sublist parts := by
  induction parts generalizing s with
  | nil => exact .slnil
  | cons p parts ih =>
    cases houtcome : (act p (m.part p) s).outcome with
    | ok u =>
      rw [tried_of_ok houtcome]
      exact (ih _).cons_cons p
    | error e =>
      rw [tried_of_error houtcome]
      exact (List.nil_sublist parts).cons_cons p

/-- The call of a part that is counted succeeded on some session. -/
theorem exists_ok_of_mem_succeeded {q : Part} (hq : q ∈ m.succeeded act parts s) :
    ∃ s', (act q (m.part q) s').outcome = .ok () := by
  induction parts generalizing s with
  | nil => cases hq
  | cons p parts ih =>
    cases houtcome : (act p (m.part p) s).outcome with
    | ok u =>
      rw [succeeded_of_ok houtcome] at hq
      rcases List.mem_cons.1 hq with rfl | hq
      · exact ⟨s, houtcome⟩
      · exact ih hq
    | error e =>
      rw [succeeded_of_error houtcome] at hq
      cases hq

/-- Where the call on the first part succeeds, it goes on with the others. -/
theorem inTurn_of_ok (h : (act p (m.part p) s).outcome = .ok ()) :
    inTurn act (p :: parts) m s = inTurn act parts (m.withPart (act p (m.part p) s).command p)
      (act p (m.part p) s).session := by
  have hok : (onPart (act p) p m s).outcome = .ok () := by rw [onPart_eq, h]
  rw [inTurn, Call.andThen_of_ok hok, onPart_eq]

/-- Calls on parts in turn stop at the first that fails, and keep what it left. -/
theorem inTurn_of_error {e : EditError} (h : (act p (m.part p) s).outcome = .error e) :
    inTurn act (p :: parts) m s = ⟨.error e, m.withPart (act p (m.part p) s).command p,
      (act p (m.part p) s).session⟩ := by
  have herror : (onPart (act p) p m s).outcome = .error e := by rw [onPart_eq, h]
  rw [inTurn, Call.andThen_of_error herror, onPart_eq, h]

/-- The first call changes no other part. -/
theorem part_withPart_of_mem {m₀ : MatrixCommand} (hnew : p ∉ parts)
    (hsame : ∀ q ∈ parts, m.part q = m₀.part q) (c : Command) :
    ∀ q ∈ parts, (m.withPart c p).part q = m₀.part q := by
  intro q hq
  have hne : q ≠ p := fun heq => hnew (heq ▸ hq)
  rw [part_withPart_of_ne hne]
  exact hsame q hq

/-- Each part on which the call is made becomes what the call makes of it, and the others stay. -/
theorem part_inTurn {m₀ : MatrixCommand} (hnodup : parts.Nodup)
    (hsame : ∀ q ∈ parts, m.part q = m₀.part q) (q : Part) :
    if q ∈ m₀.tried act parts s then
      ∃ s', (inTurn act parts m s).command.part q = (act q (m₀.part q) s').command
    else (inTurn act parts m s).command.part q = m.part q := by
  -- The command changes from call to call, but the parts to come are still those of `m₀`.
  induction parts generalizing m s with
  | nil => rfl
  | cons p parts ih =>
    obtain ⟨hnew, hnodup⟩ := List.nodup_cons.1 hnodup
    obtain ⟨hp, hothers⟩ := List.forall_mem_cons.1 hsame
    cases houtcome : (act p (m₀.part p) s).outcome with
    | ok u =>
      rw [tried_of_ok houtcome, inTurn_of_ok (hp ▸ houtcome), hp]
      have hrest := ih (s := (act p (m₀.part p) s).session) hnodup
        (part_withPart_of_mem hnew hothers (act p (m₀.part p) s).command)
      by_cases hq : q = p
      · subst hq
        have huntried : q ∉ m₀.tried act parts (act q (m₀.part q) s).session :=
          fun hmem => hnew ((tried_sublist ..).subset hmem)
        rw [if_neg huntried, part_withPart] at hrest
        rw [if_pos List.mem_cons_self]
        exact ⟨s, hrest⟩
      · rw [part_withPart_of_ne hq] at hrest
        simpa only [List.mem_cons, hq, false_or] using hrest
    | error e =>
      rw [tried_of_error houtcome, inTurn_of_error (hp ▸ houtcome), hp]
      by_cases hq : q = p
      · subst hq
        rw [if_pos List.mem_cons_self, part_withPart]
        exact ⟨s, rfl⟩
      · rw [if_neg (by simpa using hq), part_withPart_of_ne hq]

/-- Where no call fails, each succeeds. -/
theorem succeeded_of_inTurn_ok {m₀ : MatrixCommand} (hnodup : parts.Nodup)
    (hsame : ∀ q ∈ parts, m.part q = m₀.part q) (hok : (inTurn act parts m s).outcome = .ok ()) :
    m₀.succeeded act parts s = parts ∧ m₀.tried act parts s = parts := by
  induction parts generalizing m s with
  | nil => exact ⟨rfl, rfl⟩
  | cons p parts ih =>
    obtain ⟨hnew, hnodup⟩ := List.nodup_cons.1 hnodup
    obtain ⟨hp, hothers⟩ := List.forall_mem_cons.1 hsame
    cases houtcome : (act p (m₀.part p) s).outcome with
    | ok u =>
      rw [inTurn_of_ok (hp ▸ houtcome), hp] at hok
      obtain ⟨hsucceeded, htried⟩ := ih hnodup (part_withPart_of_mem hnew hothers _) hok
      rw [succeeded_of_ok houtcome, tried_of_ok houtcome, hsucceeded, htried]
      exact ⟨rfl, rfl⟩
    | error e =>
      rw [inTurn_of_error (hp ▸ houtcome)] at hok
      cases hok

/-- Calls on the parts leave the entity. -/
theorem entity_inTurn (act : Part → Command → Session → Call Command) (parts : List Part)
    (m : MatrixCommand) (s : Session) : (inTurn act parts m s).command.entity = m.entity := by
  induction parts generalizing m s with
  | nil => rfl
  | cons p parts ih =>
    have hsame : (m.withPart (act p (m.part p) s).command p).entity = m.entity := by
      cases p <;> rfl
    cases houtcome : (act p (m.part p) s).outcome with
    | ok u => rw [inTurn_of_ok houtcome, ih, hsame]
    | error e => rw [inTurn_of_error houtcome, hsame]

end

/-- A matrix command is its entity and its parts. -/
theorem eq_of_part {m m' : MatrixCommand} (hentity : m.entity = m'.entity)
    (hparts : ∀ q, m.part q = m'.part q) : m = m' := by
  obtain ⟨entity, translate, rotate, scale⟩ := m
  obtain ⟨htranslate, hrotate, hscale⟩ := Part.forall_iff.1 hparts
  cases hentity
  cases htranslate
  cases hrotate
  cases hscale
  rfl

/-- All parts, in the order in which they are executed. -/
def allParts : List Part := [.translate, .rotate, .scale]

/-- Giving a matrix gives each part its value, in turn. -/
theorem set_eq (m : MatrixCommand) (matrix : Matrix4) (s : Session) :
    m.set matrix s =
      inTurn (fun p c => c.set ((Placement.ofMatrix matrix).value p)) allParts m s := by
  simp only [allParts, inTurn, Call.andThen_done]
  exact Call.andThen_assoc

/-- A matrix command edits one entity, whatever matrix it is given. -/
theorem entity_set (m : MatrixCommand) (matrix : Matrix4) (s : Session) :
    (m.set matrix s).command.entity = m.entity := by
  rw [set_eq, entity_inTurn]

end MatrixCommand

end TransformStack
