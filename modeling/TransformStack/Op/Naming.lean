import TransformStack.Op.Basic

/-!
# Op names and their readers

Reading an op name and writing it are inverse to each other. Writing joins marks and words; each
reader takes one of them off again: `rest?` a mark at the front, `cut` all before the first colon,
`splitInverse` the mark of inverted ops. For each there is a lemma that says which texts it accepts,
and `parse?_eq_some_iff` joins them: reading gives an op exactly on that op's name.
-/

namespace TransformStack

/-- A token names a kind exactly if it is the kind's own. -/
theorem OpKind.ofToken?_eq_some_iff {token : String} {kind : OpKind} :
    ofToken? token = some kind ↔ kind.token = token := by
  constructor
  · intro h
    simpa using List.find?_some h
  · rintro rfl
    cases kind <;> rfl

theorem OpKind.colon_notMem_token (kind : OpKind) : ':' ∉ kind.token.toList := by
  cases kind <;> decide

namespace Op

/-- What is left of a text after a mark is what the mark stands in front of. -/
theorem rest?_eq_some_iff {mark text rest : List Char} :
    rest? mark text = some rest ↔ text = mark ++ rest := by
  induction mark generalizing text with
  | nil => simp [rest?]
  | cons m mark ih =>
    cases text with
    | nil => simp [rest?]
    | cons c text => by_cases h : m = c <;> simp [rest?, h, ih, eq_comm]

/-- A cut gives the text back, and cuts at the first mark. -/
theorem cut_eq_iff {mark : Char} {text before : List Char} {after : Option (List Char)} :
    cut mark text = (before, after) ↔
      mark ∉ before ∧ text = before ++ after.elim [] (mark :: ·) := by
  induction text generalizing before after with
  | nil => cases after <;> cases before <;> simp [cut]
  | cons c text ih =>
    by_cases hc : c = mark
    · cases before <;> cases after <;> simp_all [cut, eq_comm]
    · rw [cut]
      cases before with
      | nil => cases after <;> simp_all
      | cons d before =>
        have := @ih before after
        simp_all [Prod.ext_iff]
        grind

theorem toList_nameOf (kind : OpKind) (suffix : Option String) :
    (nameOf kind suffix).toList = attributeMark.toList ++
      (kind.token.toList ++ (suffix.map String.toList).elim [] (':' :: ·)) := by
  cases suffix <;> simp [nameOf]

/-- The parts of an attribute name are those that give the name. -/
theorem parts?_eq_some_iff {name : String} {kind : OpKind} {suffix : Option String} :
    parts? name = some (kind, suffix) ↔ name = nameOf kind suffix := by
  rw [← String.toList_inj, toList_nameOf, ← rest?_eq_some_iff]
  simp only [parts?, Option.bind_eq_bind, Option.bind_eq_some_iff]
  refine ⟨fun ⟨body, hbody, found, hfound, h⟩ => ?_, fun h => ⟨_, h, ?_⟩⟩
  · obtain ⟨hfree, hcut⟩ := cut_eq_iff.1 (rfl : cut ':' body = (_, _))
    obtain ⟨rfl, rfl⟩ : found = kind ∧ (cut ':' body).2.map String.ofList = suffix := by
      simpa [Prod.ext_iff] using h
    rw [hbody, OpKind.ofToken?_eq_some_iff.1 hfound]
    simpa [Function.comp_def] using hcut
  · have hcut : cut ':' (kind.token.toList ++ (suffix.map String.toList).elim [] (':' :: ·)) =
        (kind.token.toList, suffix.map String.toList) :=
      cut_eq_iff.2 ⟨kind.colon_notMem_token, rfl⟩
    rw [hcut]
    exact ⟨kind, OpKind.ofToken?_eq_some_iff.2 (by simp), by simp [Function.comp_def]⟩

/-- The name of an attribute does not begin like that of an inverted op. -/
theorem rest?_inverseMark_nameOf (kind : OpKind) (suffix : Option String) :
    rest? inverseMark.toList (nameOf kind suffix).toList = none := by
  rw [toList_nameOf]
  rfl

/-- Splitting takes the mark of an inverted op off, and leaves other names of ops alone. -/
theorem splitInverse_name (op : Op) : splitInverse op.name = (op.attributeName, op.inverse) := by
  obtain ⟨kind, suffix, precision, inverse⟩ := op
  cases inverse with
  | true =>
    have h : rest? inverseMark.toList (inverseMark.toList ++ (nameOf kind suffix).toList) =
        some (nameOf kind suffix).toList := rest?_eq_some_iff.2 rfl
    simp [splitInverse, name, attributeName, h]
  | false => simp [splitInverse, name, attributeName, rest?_inverseMark_nameOf]

/-- What splitting leaves, with the mark put back, is the name. -/
theorem mark_append_splitInverse (name : String) :
    (if (splitInverse name).2 then inverseMark else "") ++ (splitInverse name).1 = name := by
  rw [splitInverse]
  split
  · next hrest =>
    rw [← String.toList_inj, rest?_eq_some_iff.1 hrest]
    simp
  · simp

/-- Reading a name gives the op of that name, and only that op. -/
theorem parse?_eq_some_iff {name : String} {precision : Precision} {op : Op} :
    parse? name precision = some op ↔ name = op.name ∧ precision = op.precision := by
  constructor
  · intro h
    simp only [parse?, Option.bind_eq_bind, Option.bind_eq_some_iff, Prod.exists,
      parts?_eq_some_iff] at h
    obtain ⟨kind, suffix, hparts, h⟩ := h
    obtain rfl := Option.some.inj h
    exact ⟨(hparts ▸ mark_append_splitInverse name).symm, rfl⟩
  · rintro ⟨rfl, rfl⟩
    simp [parse?, splitInverse_name, parts?_eq_some_iff.2 (rfl : op.attributeName = _)]

end Op
end TransformStack
