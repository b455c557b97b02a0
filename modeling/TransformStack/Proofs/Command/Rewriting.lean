import TransformStack.Proofs.Command.Recipes
import TransformStack.Proofs.Command.Redoing
import TransformStack.Proofs.Edit.Unwinding

/-!
# Values that are written through

Once a command has written a value, its op is in the order and the attribute of the op has the type
of all values of the command. So it can write any other value to the same attribute, on every layer
that is open for writing, and what comes of it is what writing the other value in the first place
would have made. Where a value cannot be applied, the store is as it was unless a write that takes
others back fails.
-/

namespace TransformStack

/-- All vectors of a precision have one type. -/
theorem Value.type?_ofVector (v v' : Vector3) (precision : Precision) :
    (ofVector v precision).type? = (ofVector v' precision).type? := by
  cases precision <;> simp only [ofVector, type?]

/-- All numbers of a precision have one type. -/
theorem Value.type?_ofScalar (x x' : Binary64) (precision : Precision) :
    (ofScalar x precision).type? = (ofScalar x' precision).type? := by
  cases precision <;> simp only [ofScalar, type?]

/-- A converter gives all vectors the same type. -/
theorem Converter.store_again {converter : Converter} {op : Op} {value : Vector3} {stored : Value}
    (h : converter.store op value = .ok stored) (value' : Vector3) :
    ∃ stored', converter.store op value' = .ok stored' ∧ stored'.type? = stored.type? := by
  cases converter with
  | vector =>
    obtain rfl := Except.ok.inj h
    exact ⟨_, rfl, Value.type?_ofVector _ _ _⟩
  | rotation =>
    obtain ⟨form, hform, rfl⟩ := map_eq_ok_iff.1 (mapError_eq_ok_iff.1 h)
    refine ⟨form.store value' op.precision,
      mapError_eq_ok_iff.2 (map_eq_ok_iff.2 ⟨form, hform, rfl⟩), ?_⟩
    cases form <;> simp only [Rotation.Form.store]
    · exact Value.type?_ofScalar _ _ _
    · exact Value.type?_ofVector _ _ _
    · exact Value.type?_ofVector _ _ _

namespace Store

variable {s s' : Store} {id : EntityId} {name : String} {value value' : Value}

/-- A store that takes a value takes every value of its type, and the one authored last stays. -/
theorem exists_setValue_setValue (hset : s.setValue id name value .default = .ok (some s'))
    (htype : value'.type? = value.type?) :
    ∃ after, s.setValue id name value' .default = .ok (some after) ∧
      s'.setValue id name value' .default = .ok (some after) := by
  obtain ⟨hopen, a, type, ha, hdeclared, htyped, htime, rfl⟩ := setValue_eq_ok_iff.1 hset
  refine ⟨_, setValue_eq_ok_iff.2
    ⟨hopen, a, type, ha, hdeclared, htype.trans htyped, htime, rfl⟩, ?_⟩
  have hfind : (s.alter id name (·.map (·.setCell (some (.value value)) .default))).find? id name =
      some (a.setCell (some (.value value)) .default) := by
    rw [find?_alter, if_pos ⟨rfl, rfl, has_of_find? ha⟩, ha, Option.map_some]
  refine setValue_eq_ok_iff.2
    ⟨hopen, _, type, hfind, ?_, htype.trans htyped, htime, ?_⟩
  · rw [Attribute.declared_setCell, hdeclared]
  · rw [alter_alter]
    refine congrArg (s.alter id name) (funext fun a => ?_)
    cases a with
    | none => rfl
    | some a => simp [Attribute.setCell_setCell]

end Store

namespace Command

variable {c c' : Command} {value : Vector3} {s : Session} {before after : Store} {op : Op}
  {journal : Journal}

/-! ## What a write depends on -/

/-- A command as it was made, whatever was done with it. -/
def bare (c : Command) : Command :=
  { entity := c.entity, recipe := c.recipe, converter := c.converter }

/-- Commands are made alike if they agree in entity, recipe and converter. -/
theorem bare_eq_iff : c.bare = c'.bare ↔
    c.entity = c'.entity ∧ c.recipe = c'.recipe ∧ c.converter = c'.converter := by
  simp [bare]

/-- Two commands edit one op in one way, and have written the same. -/
structure SameWrites (c c' : Command) : Prop where
  bare : c.bare = c'.bare
  op : c.op = c'.op
  journal : c.journal = c'.journal

/-- Commands that have written the same edit one entity. -/
theorem SameWrites.entity {c c' : Command} (h : c.SameWrites c') : c.entity = c'.entity :=
  (bare_eq_iff.1 h.bare).1

/-- Commands that have written the same have one recipe. -/
theorem SameWrites.recipe {c c' : Command} (h : c.SameWrites c') : c.recipe = c'.recipe :=
  (bare_eq_iff.1 h.bare).2.1

/-- Commands that edit one op in one way, and remember the same, write the same. -/
theorem Writes.congr (h : c.Writes value before after op journal) (hbare : c'.bare = c.bare)
    (hop : c'.op = c.op) : c'.Writes value before after op journal := by
  obtain ⟨hentity, hrecipe, hconverter⟩ := bare_eq_iff.1 hbare
  have hwrite : c'.write value = c.write value := by
    rw [write_eq, write_eq, target, target, hentity, hrecipe, hconverter, hop]
  obtain ⟨tx, hrun, hstore, hjournal⟩ := h
  exact ⟨tx, hwrite ▸ hrun, hstore, hjournal⟩

/-- Once it has made an op, a command writes to it as it did when it was new. -/
theorem Writes.of_bare (h : c.bare.Writes value before after op journal) (hop : c.op = some op)
    (hfits : c.recipe.Fits) : c.Writes value before after op journal :=
  (h.again rfl hfits).congr rfl hop

/-- The op that was written to is in the order afterwards. -/
theorem Writes.mem_order (h : c.Writes value before after op journal) (hplain : c.recipe.Plain) :
    ∃ order, after.order c.entity = .ok order ∧ op ∈ order.ops := by
  obtain ⟨order, -, ⟨hfound, hsame⟩ | ⟨-, rfl, -, hmade⟩⟩ := h.order_eq
  · exact ⟨order, hsame, mem_of_opIn? hfound⟩
  · refine ⟨_, hmade, Op.mem_byPosition.2 ⟨List.mem_append_right _ ?_, _, hplain.fits.ofOp?⟩⟩
    rw [Recipe.additions, List.map_cons, hplain.stored]
    exact List.mem_cons_self

/-! ## The way back -/

/-- What was written is unwound, whatever the attributes of the store hold. -/
theorem Writes.unwinds (h : c.Writes value before after op journal) :
    journal.Unwinds (fun _ => True) after before := by
  obtain ⟨tx, hrun, rfl, rfl⟩ := h
  obtain ⟨mid, stored, htarget, -, hset⟩ := write_eq_ok_iff.1 hrun
  have hkeeps : c.target.Keeps (·.Unwound (fun _ => True) before) :=
    target_keeps (fun _ _ htx => htx.addOp trivial fun _ _ => trivial)
      fun _ _ htx => htx.setOrder fun _ _ => trivial
  have hmid := hkeeps (.start { layer := { store := before } }) ⟨trivial, rfl⟩
  rw [htarget] at hmid
  have hlast : (mid.setValue c.entity op.attributeName stored .default).2.Unwound (fun _ => True)
      before := Transaction.Unwound.setValue hmid fun _ _ => trivial
  rw [hset] at hlast
  exact hlast.journal

/-- Where a value cannot be applied, the command stays. What finding its op keeps on the way back
holds of the store, which is the store before unless a rollback failed. -/
theorem apply_of_unwound {P : Store → Prop} (hkeeps : c.target.Keeps (·.Unwound P s.store))
    (hP : P s.store) {e : EditError} (h : (c.apply value s).outcome = .error e) :
    (c.apply value s).command = c ∧ P (c.apply value s).session.store ∧
      ((∀ e, LogEntry.rollbackFailed e ∉ (c.apply value s).session.log) →
        (c.apply value s).session.store = s.store) := by
  rcases apply_cases c value s with ⟨op, tx, -, happly⟩ | ⟨e', tx, hrun, happly⟩
  · rw [happly] at h
    cases h
  · rw [happly]
    have hstart := hkeeps (.start (s.signal .hold)) ⟨hP, rfl⟩
    rw [write_eq_error hrun] at hstart
    exact ⟨rfl, hstart.rollback⟩

/-- Where a value cannot be applied and no rollback failed, the store is as it was. -/
theorem apply_of_error_of_log {e : EditError} (h : (c.apply value s).outcome = .error e)
    (hlog : ∀ e, LogEntry.rollbackFailed e ∉ (c.apply value s).session.log) :
    (c.apply value s).command = c ∧ (c.apply value s).session.store = s.store := by
  have hkeeps : c.target.Keeps (·.Unwound (fun _ => True) s.store) :=
    target_keeps (fun _ _ htx => htx.addOp trivial fun _ _ => trivial)
      fun _ _ htx => htx.setOrder fun _ _ => trivial
  obtain ⟨hcommand, -, hstore⟩ := apply_of_unwound hkeeps trivial h
  exact ⟨hcommand, hstore hlog⟩

/-! ## Writing through -/

/-- After a write the command can write any other value to the op, whatever the layer refuses, and
the store takes that back. The store is then as if the other value had been written in the first
place. -/
theorem Writes.write_through (h : c.bare.Writes value before after op journal)
    (hop : c.op = some op) (hplain : c.recipe.Plain) (value' : Vector3) :
    ∃ after' journal' edit, c.bare.Writes value' before after' op journal' ∧
      Journal.TakesBack [edit] after' after ∧
      ∀ tx : Transaction, tx.store = after →
        (c.write value').on tx =
          (.ok op, tx.wrote c.entity { tx.layer with store := after' } [edit]) := by
  obtain ⟨order, horder, hmem⟩ := h.mem_order hplain
  obtain ⟨tx₀, hrun, hstore, -⟩ := h
  obtain ⟨mid, stored, htarget, hstored, hset⟩ := write_eq_ok_iff.1 hrun
  obtain ⟨previous, s, hprevious, hs, rfl⟩ := Transaction.setValue_eq_ok_iff.1 hset
  obtain rfl : s = after := hstore
  obtain ⟨stored', hstored', htype'⟩ := Converter.store_again hstored value'
  -- Both values go to an attribute of one type, so what takes the one takes the other.
  obtain ⟨s', hfirst, hthrough⟩ := Store.exists_setValue_setValue hs htype'
  have hset' := Transaction.setValue_eq_ok_iff.2 ⟨previous, s', hprevious, hfirst, rfl⟩
  have hbare : c.bare.Writes value' before s' op _ :=
    ⟨_, write_eq_ok_iff.2 ⟨mid, stored', htarget, hstored', hset'⟩, rfl, rfl⟩
  have hauthored : s.authored? c.entity op.attributeName .default = .ok (some stored) :=
    Store.authored?_setValue hs
  -- The first value goes back to where the second one went.
  have hback : s'.setValue c.entity op.attributeName stored .default = .ok (some s) := by
    obtain ⟨after, hagain, hback⟩ := Store.exists_setValue_setValue hfirst htype'.symm
    rwa [Option.some.inj (Except.ok.inj (hagain.symm.trans hs))] at hback
  refine ⟨s', _, .changed c.entity op.attributeName .default (some stored), hbare, ?_, ?_⟩
  · exact ⟨s, hback, rfl⟩
  · rintro tx rfl
    have horder' : tx.store.order c.entity = .ok order := horder
    have htarget' : c.target.on tx = (.ok op, tx) := by
      rw [target_on horder', opIn?_of_mem hop hmem]
    exact write_eq_ok_iff.2 ⟨tx, stored', htarget', hstored',
      Transaction.setValue_eq_ok_iff.2 ⟨some stored, s', hauthored, hthrough, rfl⟩⟩

end Command

end TransformStack
