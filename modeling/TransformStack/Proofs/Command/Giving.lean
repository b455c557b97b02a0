import TransformStack.Proofs.Command.Failing

/-!
# Giving a matrix command a matrix

A matrix is given to the parts in turn, up to the first that fails. Each part takes its value, and
an applied part writes it. What the parts before the failed one have taken and written stays. So a
call that fails leaves the store exactly where the values that were written were in place.
-/

namespace TransformStack

namespace Command

variable {c : Command} {value value' : Vector3} {s : Session}

/-- A call that gives a value takes it exactly if the command is applied and the value finite. -/
theorem taken?_set_eq_some_iff : c.taken? (.set value) = some value' ↔
    c.state.isApplied ∧ value.isFinite ∧ value = value' := by
  simp only [taken?, CommandCall.value?, Option.ite_none_right_eq_some, Option.filter_eq_some_iff,
    Option.some.injEq]
  constructor
  · rintro ⟨happlied, rfl, hfinite⟩
    exact ⟨happlied, hfinite, rfl⟩
  · rintro ⟨happlied, hfinite, rfl⟩
    exact ⟨happlied, rfl, hfinite⟩

/-- Giving an applied command a finite value writes it. -/
def setting (c : Command) (value : Vector3) : Writer where
  command := c
  value? := c.taken? (.set value)
  run := c.set value
  idle := by
    intro hnone s
    cases hfinite : value.isFinite with
    | false => rw [set_of_not_finite hfinite]
    | true =>
      rcases c.state_cases with hwaiting | happlied | hundone
      · rw [set_of_waiting hfinite hwaiting]
      · cases hnone.symm.trans (taken?_set happlied hfinite)
      · rw [set_of_undone hfinite hundone]
  writes := by
    intro value' hvalue s hok
    obtain ⟨happlied, hfinite, rfl⟩ := taken?_set_eq_some_iff.1 hvalue
    cases happly : (Command.apply { c with newValue := some value } value s).outcome with
    | error e =>
      rw [set_of_applied_of_error happlied hfinite happly, happly] at hok
      cases hok
    | ok u =>
      obtain ⟨op, journal, hwrites, -⟩ := apply_of_ok happly
      rw [set_of_applied happlied hfinite happly]
      exact ⟨op, journal, hwrites.congr rfl rfl⟩
  refuses := fun s e herror => ((set_remains c value s).error e herror).2

/-- A command takes every finite value unless it is undone, also where the value cannot be
written. -/
theorem newValue_set (c : Command) (value : Vector3) (s : Session) :
    (c.set value s).command.newValue =
      if value.isFinite ∧ c.state ≠ .undone then some value else c.newValue := by
  cases hfinite : value.isFinite with
  | false =>
    rw [set_of_not_finite hfinite]
    simp
  | true =>
    rcases c.state_cases with hwaiting | happlied | hundone
    · have hstate : c.state ≠ .undone := by
        rcases hwaiting with hstate | hstate <;> rw [hstate] <;> exact CommandState.noConfusion
      rw [set_of_waiting hfinite hwaiting, if_pos ⟨rfl, hstate⟩]
      rfl
    · have hstate : c.state ≠ .undone := by
        intro hundone
        rw [hundone] at happlied
        cases happlied
      rw [if_pos ⟨rfl, hstate⟩]
      -- The value is taken before it is applied, and applying leaves it, also where it fails.
      obtain ⟨op, journal, hleft⟩ := exists_apply_command { c with newValue := some value } value s
      cases happly : (Command.apply { c with newValue := some value } value s).outcome with
      | error e => rw [set_of_applied_of_error happlied hfinite happly, hleft]
      | ok u => rw [set_of_applied happlied hfinite happly, hleft]
    · rw [set_of_undone hfinite hundone]
      simp [hundone]

/-- Only a finite value is taken without an error. -/
theorem isFinite_of_set_ok (hok : (c.set value s).outcome = .ok ()) : value.isFinite := by
  cases hfinite : value.isFinite with
  | true => rfl
  | false =>
    rw [set_of_not_finite hfinite] at hok
    cases hok

end Command

namespace MatrixCommand

variable {m m₀ : MatrixCommand} {s : Session} {parts : List Part} {matrix : Matrix4}

/-- Give the command for a part the value of a matrix for it. -/
def giving (matrix : Matrix4) (q : Part) (c : Command) : Session → Call Command :=
  c.set ((Placement.ofMatrix matrix).value q)

/-- The parts that take their values, and write them if they are applied, before the first that
fails. -/
def given (m : MatrixCommand) (matrix : Matrix4) (s : Session) : List Part :=
  m.succeeded (giving matrix) allParts s

/-- The parts that are given their values. -/
def asked (m : MatrixCommand) (matrix : Matrix4) (s : Session) : List Part :=
  m.tried (giving matrix) allParts s

/-- The calls on some parts, each of which writes one value or nothing. -/
def row (m : MatrixCommand) (matrix : Matrix4) (parts : List Part) : List Writer :=
  parts.map fun q => (m.part q).setting ((Placement.ofMatrix matrix).value q)

/-- Giving the parts their values is a row of such calls. -/
theorem session_inTurn (hnodup : parts.Nodup) (hsame : ∀ q ∈ parts, m.part q = m₀.part q) :
    (inTurn (giving matrix) parts m s).session = Writer.runAll (m₀.row matrix parts) s := by
  -- On the parts that are to come, in which `m` still agrees with `m₀`.
  induction parts generalizing m s with
  | nil => rfl
  | cons p parts ih =>
    obtain ⟨hnew, hnodup⟩ := List.nodup_cons.1 hnodup
    obtain ⟨hp, hothers⟩ := List.forall_mem_cons.1 hsame
    have hrun : ((m₀.part p).setting ((Placement.ofMatrix matrix).value p)).run s =
        giving matrix p (m₀.part p) s := rfl
    rw [row, List.map_cons, Writer.runAll, hrun]
    cases houtcome : (giving matrix p (m₀.part p) s).outcome with
    | ok u =>
      rw [inTurn_of_ok (hp ▸ houtcome), hp, ih hnodup (part_withPart_of_mem hnew hothers _)]
      rfl
    | error e => rw [inTurn_of_error (hp ▸ houtcome), hp]

/-- Giving a matrix runs the row of its writers. -/
theorem session_set (m : MatrixCommand) (matrix : Matrix4) (s : Session) :
    (m.set matrix s).session = Writer.runAll (m.row matrix allParts) s := by
  rw [set_eq]
  exact session_inTurn (by decide) fun _ _ => rfl

/-- The writers that run are those of the parts before the first failure. -/
theorem ran_row (m : MatrixCommand) (matrix : Matrix4) (parts : List Part) (s : Session) :
    Writer.ran (m.row matrix parts) s = m.row matrix (m.succeeded (giving matrix) parts s) := by
  induction parts generalizing s with
  | nil => rfl
  | cons p parts ih =>
    have hrun : ((m.part p).setting ((Placement.ofMatrix matrix).value p)).run s =
        giving matrix p (m.part p) s := rfl
    rw [row, List.map_cons, Writer.ran, hrun]
    cases houtcome : (giving matrix p (m.part p) s).outcome with
    | ok u =>
      rw [succeeded_of_ok houtcome]
      exact congrArg (_ :: ·) (ih _)
    | error e =>
      rw [succeeded_of_error houtcome]
      rfl

/-- A call that succeeds gives all parts their values. -/
theorem given_of_ok (hok : (m.set matrix s).outcome = .ok ()) :
    m.given matrix s = allParts ∧ m.asked matrix s = allParts := by
  rw [set_eq] at hok
  exact succeeded_of_inTurn_ok (by decide) (fun _ _ => rfl) hok

/-- Where the rotation fails, the translation has its value, and the scale is not asked. -/
theorem set_of_rotate {e : EditError}
    (hok : (giving matrix .translate m.translate s).outcome = .ok ())
    (herror : (giving matrix .rotate m.rotate
      (giving matrix .translate m.translate s).session).outcome = .error e) :
    m.given matrix s = [.translate] ∧ (m.set matrix s).outcome = .error e ∧
      (m.set matrix s).session = (giving matrix .rotate m.rotate
        (giving matrix .translate m.translate s).session).session := by
  let moved := giving matrix .translate m.translate s
  have hset : m.set matrix s =
      inTurn (giving matrix) [.rotate, .scale] (m.withPart moved.command .translate)
        moved.session := (m.set_eq matrix s).trans (inTurn_of_ok hok)
  have hturned : (giving matrix .rotate ((m.withPart moved.command .translate).part .rotate)
      moved.session).outcome = .error e := herror
  rw [hset, inTurn_of_error hturned, given, allParts, succeeded_of_ok hok,
    succeeded_of_error herror]
  exact ⟨rfl, rfl, rfl⟩

/-- Every part that is given its value is given a finite one. -/
theorem isFinite_of_mem_given {q : Part} (hq : q ∈ m.given matrix s) :
    ((Placement.ofMatrix matrix).value q).isFinite := by
  obtain ⟨s', hok⟩ := exists_ok_of_mem_succeeded hq
  exact Command.isFinite_of_set_ok hok

/-- Giving a matrix leaves the store exactly where the values that applied parts write were in
place. -/
theorem store_set_eq_iff (hplaced : m.Placed) (hdeclared : s.store.OrdersDeclared)
    (matrix : Matrix4) : (m.set matrix s).session.store = s.store ↔
      ∀ q ∈ m.given matrix s, (m.part q).state.isApplied →
        (m.part q).ValueInPlace ((Placement.ofMatrix matrix).value q) s.store := by
  have hat : ∀ w ∈ m.row matrix allParts, w.command.At m.entity w.command.recipe.position := by
    simp only [row, allParts, List.map_cons, List.map_nil, List.forall_mem_cons, Command.setting,
      part, hplaced.translate.recipe, hplaced.rotate.recipe, hplaced.scale.recipe]
    exact ⟨hplaced.translate, hplaced.rotate, hplaced.scale, List.forall_mem_nil _⟩
  have hapart : (m.row matrix allParts).Pairwise fun w w' =>
      w.command.recipe.position ≠ w'.command.recipe.position ∧
        w.command.recipe.position.companion ≠ some w'.command.recipe.position := by
    simp [row, allParts, Command.setting, part, hplaced.translate.recipe, hplaced.rotate.recipe,
      hplaced.scale.recipe, Position.companion]
  rw [session_set, Writer.store_runAll_eq_iff hat hapart hdeclared, ran_row, row,
    List.forall_mem_map]
  refine forall₂_congr fun q hq => ?_
  have hfinite := isFinite_of_mem_given hq
  constructor
  · exact fun hplace happlied => hplace _ (Command.taken?_set happlied hfinite)
  · intro hplace value hvalue
    obtain ⟨happlied, -, rfl⟩ := Command.taken?_set_eq_some_iff.1 hvalue
    exact hplace happlied

/-- Each part that is given its value takes it if it is finite, unless the part is undone. -/
theorem newValue_set (m : MatrixCommand) (matrix : Matrix4) (s : Session) (q : Part) :
    let value := (Placement.ofMatrix matrix).value q
    ((m.set matrix s).command.part q).newValue =
      if q ∈ m.asked matrix s ∧ value.isFinite ∧ (m.part q).state ≠ .undone then some value
      else (m.part q).newValue := by
  intro value
  have hset : m.set matrix s = inTurn (giving matrix) allParts m s := m.set_eq matrix s
  have hpart : if q ∈ m.asked matrix s then
        ∃ s', (m.set matrix s).command.part q = (giving matrix q (m.part q) s').command
      else (m.set matrix s).command.part q = m.part q :=
    hset ▸ part_inTurn (by decide) (fun _ _ => rfl) q
  by_cases hasked : q ∈ m.asked matrix s
  · obtain ⟨s', hleft⟩ := (if_pos hasked).mp hpart
    rw [hleft, giving, Command.newValue_set]
    simp [hasked, value]
  · rw [(if_neg hasked).mp hpart]
    simp [hasked]

/-- The values of the parts stay exactly where each part that takes its value had it already. -/
theorem newValues_set_iff (m : MatrixCommand) (matrix : Matrix4) (s : Session) :
    (∀ q, ((m.set matrix s).command.part q).newValue = (m.part q).newValue) ↔
      ∀ q ∈ m.asked matrix s, ((Placement.ofMatrix matrix).value q).isFinite →
        (m.part q).state ≠ .undone →
        (m.part q).newValue = some ((Placement.ofMatrix matrix).value q) := by
  refine forall_congr' fun q => ?_
  rw [newValue_set]
  split
  · next htakes =>
    constructor
    · exact fun hsame _ _ _ => hsame.symm
    · exact fun htaken => (htaken htakes.1 htakes.2.1 htakes.2.2).symm
  · next hleaves =>
    exact iff_of_true rfl fun hasked hfinite hstate => absurd ⟨hasked, hfinite, hstate⟩ hleaves

end MatrixCommand

end TransformStack
