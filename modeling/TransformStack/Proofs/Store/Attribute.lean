import TransformStack.Store.Attribute

/-!
# Cells of an attribute

What is authored at one time of an attribute can be replaced and put back.
-/

namespace TransformStack

namespace Attribute

variable (a : Attribute) (c c' : Option Cell) (time : TimeCode)

@[simp] theorem declared_setCell : (a.setCell c time).declared = a.declared := by
  unfold setCell
  split
  · rfl
  · split <;> rfl

@[simp] theorem locked_setCell : (a.setCell c time).locked = a.locked := by
  unfold setCell
  split
  · rfl
  · split <;> rfl

/-- Of two cells authored at one time the second stays. -/
theorem setCell_setCell : (a.setCell c time).setCell c' time = a.setCell c' time := by
  cases time with
  | default => rfl
  | sample time =>
    simp only [setCell]
    cases SampleTime.of? time with
    | none => rfl
    | some place =>
      simp only [mk.injEq, true_and]
      apply Std.ExtTreeMap.ext_getElem?
      intro place'
      by_cases h : place = place' <;> simp [Std.ExtTreeMap.getElem?_alter, h]

/-- Authoring what is there already changes nothing. -/
theorem setCell_cell? : a.setCell (a.cell? time) time = a := by
  cases time with
  | default => rfl
  | sample time =>
    simp only [setCell, cell?]
    cases SampleTime.of? time with
    | none => rfl
    | some place =>
      obtain ⟨declared, locked, fixed, samples⟩ := a
      simp only [mk.injEq, true_and, Option.bind_some]
      apply Std.ExtTreeMap.ext_getElem?
      intro place'
      by_cases h : place = place'
      · subst h
        simp
      · simp [Std.ExtTreeMap.getElem?_alter, h]

variable {a c time}

/-- Authoring a cell brings in nothing else. -/
theorem fixed_setCell {cell : Cell} (h : (a.setCell c time).fixed = some cell) :
    a.fixed = some cell ∨ c = some cell := by
  cases time with
  | default => exact .inr h
  | sample time =>
    simp only [setCell] at h
    split at h <;> exact .inl h

/-- A sample after a write was there before it or is what was written. -/
theorem samples_setCell {place : SampleTime} {cell : Cell}
    (h : (a.setCell c time).samples[place]? = some cell) :
    a.samples[place]? = some cell ∨ c = some cell := by
  cases time with
  | default => exact .inl h
  | sample time =>
    simp only [setCell] at h
    split at h
    · rw [Std.ExtTreeMap.getElem?_alter] at h
      split at h
      · exact .inr h
      · exact .inl h
    · exact .inl h

end Attribute

end TransformStack
