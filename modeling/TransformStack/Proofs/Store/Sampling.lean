import TransformStack.Proofs.Store.Attribute

/-!
# Samples over time

Times are compared as numbers: the two zeros are one time, and a NaN is none. What is authored at a
time shows there and at no other time. A reader at a sample time is given the first row of a query,
whatever order the rows are found in. It is the latest sample that is not after the time, and the
earliest of all where there is no such sample.
-/

namespace TransformStack

/-! ## Times -/

/-- Numeric comparison: the zeros are level, and a NaN compares with nothing. -/
def Binary64.numericLe (x y : Binary64) : Bool :=
  match x.rank?, y.rank? with
  | some a, some b => a ≤ b
  | _, _ => false

/-- Two numbers are numerically equal exactly if they are the same place in time. -/
theorem Binary64.numericEq_iff {x y : Binary64} :
    x.numericEq y = true ↔
      ∃ place, SampleTime.of? x = some place ∧ SampleTime.of? y = some place := by
  unfold numericEq SampleTime.of?
  cases x.rank? <;> cases y.rank? <;> simp
  exact eq_comm

/-- A number is numerically no more than another exactly if its place is no later. -/
theorem Binary64.numericLe_iff {x y : Binary64} :
    x.numericLe y = true ↔
      ∃ p q, SampleTime.of? x = some p ∧ SampleTime.of? y = some q ∧ p ≤ q := by
  unfold numericLe SampleTime.of?
  cases x.rank? <;> cases y.rank? <;> simp

/-- Two times address the same: the value that does not vary, or samples at numerically equal
times. A NaN addresses nothing, so it is not even the same time as itself. -/
def TimeCode.Same : TimeCode → TimeCode → Prop
  | default, default => True
  | sample x, sample y => x.numericEq y = true
  | _, _ => False

instance : DecidableRel TimeCode.Same := fun t u =>
  match t, u with
  | .default, .default => inferInstanceAs (Decidable True)
  | .sample x, .sample y => inferInstanceAs (Decidable (x.numericEq y = true))
  | .default, .sample _ | .sample _, .default => inferInstanceAs (Decidable False)

/-! ## The order of the query -/

namespace SampleRow

variable {bound? : Option SampleTime} {row other third : SampleRow} {rows : List SampleRow}

/-- The sample is at a time that is not after the bound. -/
def Past (bound? : Option SampleTime) (row : SampleRow) : Prop := row.notAfter? bound? = some true

instance : Decidable (row.Past bound?) :=
  inferInstanceAs (Decidable (row.notAfter? bound? = some true))

/-- There is a bound, and the sample is not after it. -/
theorem past_iff : row.Past bound? ↔ ∃ bound, bound? = some bound ∧ row.1 ≤ bound := by
  cases bound? <;> simp [Past, notAfter?]

/-- Of two samples that are not after the bound the later one is listed first, and of two others the
earlier one; a sample that is not after the bound is listed before one that is. -/
theorem isLE_order_iff : (order bound? row other).isLE ↔
    if row.Past bound? then other.Past bound? → other.1 ≤ row.1
    else ¬other.Past bound? ∧ row.1 ≤ other.1 := by
  have hlt : compare (some false) (some true) = .lt := rfl
  have hgt : compare (some true) (some false) = .gt := rfl
  cases bound? with
  | none => simp [Past, notAfter?, order, turned, Std.isLE_compare]
  | some bound =>
    by_cases hrow : row.1 ≤ bound <;> by_cases hother : other.1 ≤ bound <;>
      simp [Past, notAfter?, order, turned, hrow, hother, hlt, hgt, Std.isLE_compare]

/-- The order leads on from row to row. -/
theorem order_trans (h : (order bound? row other).isLE) (h' : (order bound? other third).isLE) :
    (order bound? row third).isLE := by
  rw [isLE_order_iff] at h h' ⊢
  split at h <;> split at h' <;> grind

/-- Of two rows one may be listed before the other. -/
theorem order_total (bound? : Option SampleTime) (row other : SampleRow) :
    ((order bound? row other).isLE || (order bound? other row).isLE) = true := by
  rw [Bool.or_eq_true, isLE_order_iff, isLE_order_iff]
  grind

/-- The first row may be listed before every row. -/
theorem order_of_first? (h : first? bound? rows = some row) :
    row ∈ rows ∧ ∀ other ∈ rows, (order bound? row other).isLE := by
  obtain ⟨later, hlist⟩ := List.head?_eq_some_iff.1 h
  have hsorted : (rows.mergeSort fun row other => (order bound? row other).isLE).Pairwise
      fun row other => (order bound? row other).isLE := by
    refine List.pairwise_mergeSort ?_ ?_ rows
    · exact fun _ _ _ => order_trans
    · exact order_total bound?
  rw [hlist, List.pairwise_cons] at hsorted
  have hmem (other : SampleRow) : other ∈ rows ↔ other ∈ row :: later := by
    rw [← hlist, List.mem_mergeSort]
  refine ⟨(hmem row).2 List.mem_cons_self, fun other hother => ?_⟩
  rcases List.mem_cons.1 ((hmem other).1 hother) with rfl | hother
  · simpa using order_total bound? other other
  · exact hsorted.1 other hother

/-- A row that may be listed before all rows is the first one if no other row has its place. -/
theorem first?_eq_some (hrow : row ∈ rows)
    (hleast : ∀ other ∈ rows, (order bound? row other).isLE)
    (hunique : ∀ other ∈ rows, other.1 = row.1 → other = row) :
    first? bound? rows = some row := by
  cases hfirst : first? bound? rows with
  | none =>
    have hnone := List.head?_eq_none_iff.1 hfirst
    rw [← List.mem_mergeSort, hnone] at hrow
    exact absurd hrow List.not_mem_nil
  | some first =>
    obtain ⟨hmem, hbefore⟩ := order_of_first? hfirst
    have hfirst := isLE_order_iff.1 (hbefore row hrow)
    have hrow := isLE_order_iff.1 (hleast first hmem)
    have hplace : first.1 = row.1 := by grind
    rw [hunique first hmem hplace]

end SampleRow

/-! ## Cells -/

namespace Attribute

variable {a : Attribute} {c : Option Cell} {t time : TimeCode}

/-- What is authored at a time shows at the same time, and at no other. -/
theorem cell?_setCell (a : Attribute) (c : Option Cell) (t time : TimeCode) :
    (a.setCell c t).cell? time = if t.Same time then c else a.cell? time := by
  cases t with
  | default => cases time <;> rfl
  | sample x =>
    cases time with
    | default =>
      rw [if_neg (show ¬TimeCode.Same (.sample x) .default from id), setCell]
      split <;> rfl
    | sample y =>
      have hsame : TimeCode.Same (.sample x) (.sample y) ↔ _ := Binary64.numericEq_iff
      rw [setCell]
      cases hx : SampleTime.of? x with
      | none => rw [if_neg (by simp [hsame, hx])]
      | some p =>
        cases hy : SampleTime.of? y with
        | none => rw [if_neg (by simp [hsame, hy]), cell?, cell?, hy]; rfl
        | some q =>
          have heq : TimeCode.Same (.sample x) (.sample y) ↔ p = q := by
            simp [hsame, hx, hy, eq_comm]
          simp only [cell?, hy, Option.bind_some, Std.ExtTreeMap.getElem?_alter, heq,
            Std.LawfulEqOrd.compare_eq_iff_eq]

/-- Samples are listed in order of time. -/
theorem pairwise_toList (samples : Samples) : samples.toList.Pairwise (·.1 < ·.1) :=
  Std.ExtTreeMap.ordered_keys_toList.imp fun h => Std.compare_eq_lt.1 h

section

variable {samples : List SampleRow} {sample : SampleRow}

/-- The first of samples in order is at their earliest time. -/
theorem le_of_head? (hsorted : samples.Pairwise (·.1 < ·.1)) (h : samples.head? = some sample) :
    ∀ other ∈ samples, sample.1 ≤ other.1 := by
  obtain ⟨later, rfl⟩ := List.head?_eq_some_iff.1 h
  obtain ⟨hlater, -⟩ := List.pairwise_cons.1 hsorted
  intro other hother
  rcases List.mem_cons.1 hother with rfl | hother
  · exact Int.le_refl _
  · exact Int.le_of_lt (hlater other hother)

/-- The last of samples in order is at their latest time. -/
theorem le_of_getLast? (hsorted : samples.Pairwise (·.1 < ·.1))
    (h : samples.getLast? = some sample) : ∀ other ∈ samples, other.1 ≤ sample.1 := by
  obtain ⟨earlier, rfl⟩ := List.getLast?_eq_some_iff.1 h
  obtain ⟨-, -, hearlier⟩ := List.pairwise_append.1 hsorted
  intro other hother
  rcases List.mem_append.1 hother with hother | hother
  · exact Int.le_of_lt (hearlier other hother sample List.mem_cons_self)
  · obtain rfl := List.mem_singleton.1 hother
    exact Int.le_refl _

end

/-- The samples that are not after a time, in order. -/
def past (a : Attribute) (time : Binary64) : List SampleRow :=
  match SampleTime.of? time with
  | some place => a.samples.toList.filter fun sample => sample.1 ≤ place
  | none => []

/-- The latest sample that is not after a time, else the earliest of all. -/
def inForce? (a : Attribute) (time : Binary64) : Option SampleRow :=
  (a.past time).getLast?.or a.samples.toList.head?

/-- The samples in the past are those at which the query turns the order round. -/
theorem mem_past {time : Binary64} {sample : SampleRow} : sample ∈ a.past time ↔
    sample ∈ a.samples.toList ∧ sample.Past (SampleTime.of? time) := by
  rw [SampleRow.past_iff]
  unfold past
  cases SampleTime.of? time <;> simp

/-- The samples in the past are in order of time. -/
theorem pairwise_past (a : Attribute) (time : Binary64) : (a.past time).Pairwise (·.1 < ·.1) := by
  unfold past
  split
  · exact (pairwise_toList _).filter _
  · exact .nil

/-- A time has one sample. -/
theorem eq_of_place_eq {samples : Samples} {row other : SampleRow} (hrow : row ∈ samples.toList)
    (hother : other ∈ samples.toList) (h : row.1 = other.1) : row = other := by
  have hcell := Std.ExtTreeMap.mem_toList_iff_getElem?_eq_some.1 hrow
  have hcell' := Std.ExtTreeMap.mem_toList_iff_getElem?_eq_some.1 hother
  rw [h, hcell'] at hcell
  exact Prod.ext h (Option.some.inj hcell).symm

/-- The query finds the sample in force, whatever order it meets the samples in. -/
theorem first?_of_perm {a : Attribute} {rows : List SampleRow} (h : rows.Perm a.samples.toList)
    (time : Binary64) : SampleRow.first? (SampleTime.of? time) rows = a.inForce? time := by
  have hfound {sample : SampleRow} (hsample : sample ∈ a.samples.toList)
      (hleast : ∀ other ∈ a.samples.toList,
        (SampleRow.order (SampleTime.of? time) sample other).isLE) :
      SampleRow.first? (SampleTime.of? time) rows = some sample :=
    SampleRow.first?_eq_some (h.mem_iff.2 hsample)
      (fun other hother => hleast other (h.mem_iff.1 hother))
      fun other hother => eq_of_place_eq (h.mem_iff.1 hother) hsample
  -- The first row is the least of all, and no two rows have one place. So it is enough that the
  -- sample in force is no later in the order than any other.
  rw [inForce?]
  cases hlast : (a.past time).getLast? with
  | some sample =>
    obtain ⟨hsample, hpast⟩ := mem_past.1 (List.mem_of_getLast? hlast)
    refine hfound hsample fun other hother => ?_
    rw [SampleRow.isLE_order_iff, if_pos hpast]
    exact fun hpast' =>
      le_of_getLast? (pairwise_past a time) hlast other (mem_past.2 ⟨hother, hpast'⟩)
  | none =>
    have hnone := List.getLast?_eq_none_iff.1 hlast
    have hlater : ∀ other : SampleRow, other ∈ a.samples.toList →
        ¬other.Past (SampleTime.of? time) :=
      fun other hother hpast => List.not_mem_nil (hnone ▸ mem_past.2 ⟨hother, hpast⟩)
    cases hhead : a.samples.toList.head? with
    | some sample =>
      have hsample := List.mem_of_head? hhead
      refine hfound hsample fun other hother => ?_
      rw [SampleRow.isLE_order_iff, if_neg (hlater sample hsample)]
      exact ⟨hlater other hother, le_of_head? (pairwise_toList _) hhead other hother⟩
    | none =>
      rw [List.head?_eq_none_iff.1 hhead] at h
      rw [h.eq_nil, SampleRow.first?, List.mergeSort_nil]
      rfl

/-- What is held at a time is the sample in force. -/
theorem held?_eq (a : Attribute) (time : Binary64) :
    a.held? time = (a.inForce? time).map (·.2) := by
  rw [held?, first?_of_perm (.refl _)]

/-- What is held at a time is the latest sample that is not after it; if there is none, which is so
for a NaN, it is the earliest of all. -/
theorem held?_cases (a : Attribute) (time : Binary64) :
    ((∀ place : SampleTime, a.samples[place]? = none) ∧ a.held? time = none) ∨
      ∃ (place : SampleTime) (cell : Cell), a.samples[place]? = some cell ∧
        a.held? time = some cell ∧
        ((∃ p, SampleTime.of? time = some p ∧ place ≤ p ∧
            ∀ (place' : SampleTime) cell', a.samples[place']? = some cell' →
              place' ≤ p → place' ≤ place) ∨
          ∀ (place' : SampleTime) cell', a.samples[place']? = some cell' →
            (∀ p, SampleTime.of? time = some p → ¬place' ≤ p) ∧ place ≤ place') := by
  have hmem (sample : SampleRow) :
      sample ∈ a.samples.toList ↔ a.samples[sample.1]? = some sample.2 :=
    Std.ExtTreeMap.mem_toList_iff_getElem?_eq_some
  rw [held?_eq, inForce?]
  cases hlast : (a.past time).getLast? with
  | some sample =>
    obtain ⟨hsample, hpast⟩ := mem_past.1 (List.mem_of_getLast? hlast)
    obtain ⟨p, hp, hle⟩ := SampleRow.past_iff.1 hpast
    refine .inr ⟨sample.1, sample.2, (hmem sample).1 hsample, rfl, .inl ⟨p, hp, hle, ?_⟩⟩
    intro place' cell' hcell' hle'
    have hcell' := (hmem (place', cell')).2 hcell'
    have hpast' : SampleRow.Past _ (place', cell') := SampleRow.past_iff.2 ⟨p, hp, hle'⟩
    exact le_of_getLast? (pairwise_past a time) hlast _ (mem_past.2 ⟨hcell', hpast'⟩)
  | none =>
    have hnone := List.getLast?_eq_none_iff.1 hlast
    cases hhead : a.samples.toList.head? with
    | some sample =>
      have hsample := List.mem_of_head? hhead
      refine .inr ⟨sample.1, sample.2, (hmem sample).1 hsample, rfl, .inr ?_⟩
      intro place' cell' hcell'
      have hcell' := (hmem (place', cell')).2 hcell'
      refine ⟨fun p hp hle => ?_, le_of_head? (pairwise_toList _) hhead _ hcell'⟩
      have hpast := mem_past.2 ⟨hcell', SampleRow.past_iff.2 ⟨p, hp, hle⟩⟩
      rw [hnone] at hpast
      exact List.not_mem_nil hpast
    | none =>
      refine .inl ⟨fun place => ?_, rfl⟩
      rw [Option.eq_none_iff_forall_ne_some]
      intro cell hcell
      have hall := (hmem (place, cell)).2 hcell
      rw [List.head?_eq_none_iff.1 hhead] at hall
      exact List.not_mem_nil hall

end Attribute

end TransformStack
