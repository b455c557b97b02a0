import TransformStack.Proofs.Store.Order

/-!
# The grammar of op names

An op name is the mark of inverted ops or nothing, the mark of op attributes, the word of a kind,
and then nothing or a colon and any text. Each name has one reading at most, and the names that are
read as ops are the names of the grammar. Since writing an op gives the name that it was read from,
ops of one precision are told apart by their names.

An op that is made from its parts loses an empty suffix. So an op that was read is given back by its
parts unless its name ends with the colon, and then its parts make the op of the name without it.
-/

namespace TransformStack

namespace Op

/-- A name as an op name: whether it is inverted, the kind, and the text after the colon if it has
one. -/
inductive Spells : String → Bool → OpKind → Option String → Prop where
  | plain (kind : OpKind) : Spells ("xformOp:" ++ kind.token) false kind none
  | suffixed (kind : OpKind) (text : String) :
      Spells ("xformOp:" ++ kind.token ++ ":" ++ text) false kind (some text)
  | inverted {name : String} {kind : OpKind} {suffix : Option String}
      (h : Spells name false kind suffix) : Spells ("!invert!" ++ name) true kind suffix

variable {name : String} {inverse : Bool} {kind : OpKind} {suffix : Option String} {op op' : Op}

/-- Names of the grammar are those that ops have. -/
theorem spells_iff (precision : Precision) :
    Spells name inverse kind suffix ↔ name = Op.name { kind, suffix, precision, inverse } := by
  constructor
  · intro h
    induction h with
    | plain kind => simp [Op.name, attributeName, nameOf, attributeMark]
    | suffixed kind text =>
      simp [Op.name, attributeName, nameOf, attributeMark, String.append_assoc]
    | inverted h ih => simpa [Op.name, attributeName, inverseMark] using ih
  · rintro rfl
    have hattribute : Spells (nameOf kind suffix) false kind suffix := by
      cases suffix with
      | none => simpa [nameOf, attributeMark] using Spells.plain kind
      | some text =>
        simpa [nameOf, attributeMark, String.append_assoc] using Spells.suffixed kind text
    cases inverse with
    | false => simpa [Op.name, attributeName] using hattribute
    | true => simpa [Op.name, attributeName, inverseMark] using Spells.inverted hattribute

/-- Reading a name gives the op that has it, at the precision asked for. -/
theorem read_eq_ok_iff_name {precision : Precision} :
    Op.read name precision = .ok op ↔ name = op.name ∧ precision = op.precision := by
  rw [read_eq_ok_iff, parse?_eq_some_iff]

/-- Ops of one precision are told apart by their names. -/
theorem name_injective (hprecision : op.precision = op'.precision) (hname : op.name = op'.name) :
    op = op' := by
  have hread : Op.parse? op.name op.precision = some op' :=
    parse?_eq_some_iff.2 ⟨hname, hprecision⟩
  exact Option.some.inj ((parse?_eq_some_iff.2 ⟨rfl, rfl⟩).symm.trans hread)

/-- A name is read as an op if it is one of the grammar, and only then; the op has the name, and the
parts that the grammar tells, which are the only ones it tells. Ops that are made are read back from
their names, and different ops of one precision have different names. -/
theorem reads_grammar :
    (∀ name precision,
      (∃ op, Op.read name precision = .ok op) ↔
        ∃ inverse kind suffix, Spells name inverse kind suffix) ∧
    (∀ name precision op, Op.read name precision = .ok op →
      op.name = name ∧ op.precision = precision ∧
        ∀ inverse kind suffix, Spells name inverse kind suffix ↔
          inverse = op.inverse ∧ kind = op.kind ∧ suffix = op.suffix) ∧
    (∀ kind precision suffix inverse,
      Op.read (Op.make kind precision suffix inverse).name precision =
        .ok (Op.make kind precision suffix inverse)) ∧
    ∀ op op' : Op, op.precision = op'.precision → op ≠ op' → op.name ≠ op'.name := by
  refine ⟨fun name precision => ⟨?_, ?_⟩, ?_, ?_, ?_⟩
  · rintro ⟨op, hread⟩
    obtain ⟨rfl, rfl⟩ := read_eq_ok_iff_name.1 hread
    exact ⟨op.inverse, op.kind, op.suffix, (spells_iff op.precision).2 rfl⟩
  · rintro ⟨inverse, kind, suffix, hspells⟩
    exact ⟨_, read_eq_ok_iff_name.2 ⟨(spells_iff precision).1 hspells, rfl⟩⟩
  · intro name precision op hread
    obtain ⟨rfl, rfl⟩ := read_eq_ok_iff_name.1 hread
    refine ⟨rfl, rfl, fun inverse kind suffix => ⟨fun hspells => ?_, ?_⟩⟩
    · have hop : op = { kind, suffix, precision := op.precision, inverse } :=
        name_injective rfl ((spells_iff op.precision).1 hspells)
      exact ⟨(congrArg Op.inverse hop).symm, (congrArg Op.kind hop).symm,
        (congrArg Op.suffix hop).symm⟩
    · rintro ⟨rfl, rfl, rfl⟩
      exact (spells_iff op.precision).2 rfl
  · intro kind precision suffix inverse
    exact read_eq_ok_iff_name.2 ⟨rfl, rfl⟩
  · exact fun op op' hprecision hne hname => hne (name_injective hprecision hname)

/-- The colon after the kind is the only one that separates: the suffix keeps the others. And an
inverted op has another name than the op that it inverts. -/
theorem reads_grammar_of_colons :
    let name := "!invert!xformOp:rotateXYZ::a"
    let op : Op := ⟨.rotateXYZ, some ":a", .float, true⟩
    Op.read name .float = .ok op ∧ op.name = name ∧
      (∀ inverse kind suffix, Spells name inverse kind suffix ↔
        inverse = true ∧ kind = .rotateXYZ ∧ suffix = some ":a") ∧
      (make .scale .float none true).name ≠ (make .scale .float none false).name := by
  intro name op
  have hread : Op.read name .float = .ok op := read_eq_ok_iff_name.2 ⟨by decide +kernel, rfl⟩
  obtain ⟨-, hparts, -, hdistinct⟩ := reads_grammar
  obtain ⟨hname, -, hspells⟩ := hparts name .float op hread
  exact ⟨hread, hname, hspells, hdistinct _ _ rfl (by decide)⟩

/-! ## Making an op from its parts -/

/-- An empty suffix is dropped when an op is made. -/
theorem make_of_empty (kind : OpKind) (precision : Precision) (inverse : Bool) :
    make kind precision (some "") inverse = { kind, suffix := none, precision, inverse } := by
  simp [make, Option.filter_some]

/-- An op made with another suffix keeps all its parts. -/
theorem make_of_ne_empty (hsuffix : suffix ≠ some "") (kind : OpKind) (precision : Precision)
    (inverse : Bool) :
    make kind precision suffix inverse = { kind, suffix, precision, inverse } := by
  cases suffix with
  | none => rfl
  | some text =>
    have htext : text ≠ "" := fun h => hsuffix (congrArg some h)
    simp [make, Option.filter_some, htext]

/-- An empty suffix shows in the name as a colon at the end. -/
theorem name_of_empty_suffix (kind : OpKind) (precision : Precision) (inverse : Bool) :
    Op.name { kind, suffix := some "", precision, inverse } =
      Op.name { kind, suffix := none, precision, inverse } ++ ":" := by
  rw [← String.toList_inj]
  simp [Op.name, attributeName, nameOf]

/-- A name of the grammar, and what is left of it without the colon of an empty suffix. -/
inductive Trims : String → String → Prop where
  | kept {name : String} {inverse : Bool} {kind : OpKind} {suffix : Option String}
      (h : Spells name inverse kind suffix) (hsuffix : suffix ≠ some "") : Trims name name
  | trimmed {name : String} {inverse : Bool} {kind : OpKind}
      (h : Spells name inverse kind none) : Trims (name ++ ":") name

/-- Making the op of a name from its parts trims the name. -/
theorem trims_of_read {precision : Precision} (hread : Op.read name precision = .ok op)
    (precision' : Precision) :
    Trims name (make op.kind precision' op.suffix op.inverse).name := by
  obtain ⟨rfl, rfl⟩ := read_eq_ok_iff_name.1 hread
  obtain ⟨kind, suffix, precision, inverse⟩ := op
  by_cases hempty : suffix = some ""
  · subst hempty
    rw [make_of_empty]
    exact name_of_empty_suffix kind precision inverse ▸ .trimmed ((spells_iff precision').2 rfl)
  · rw [make_of_ne_empty hempty]
    exact .kept ((spells_iff precision').2 rfl) hempty

end Op

end TransformStack
