import TransformStack.Value.Basic

/-!
# Equality of values

Values are compared by kind and, number by number, in the total order of floating-point numbers.
There every bit pattern has a place of its own, so values are equal exactly if they are the same
value, bit for bit.
-/

namespace TransformStack

/-! ## Equality in the total order -/

namespace BinaryFormat

variable {f : BinaryFormat} {bits bits' : Nat}

/-- A negative number has the sign bit above its magnitude. -/
theorem magnitude_of_isNegative (hbits : bits < 2 * f.signBit) (h : f.isNegative bits) :
    f.magnitude bits + f.signBit = bits := by
  have hsign : f.signBit ≤ bits := of_decide_eq_true h
  rw [magnitude, Nat.mod_eq_sub_mod hsign, Nat.mod_eq_of_lt (by omega)]
  omega

theorem magnitude_of_not_isNegative (h : ¬f.isNegative bits) : f.magnitude bits = bits := by
  have hsign : ¬f.signBit ≤ bits := fun hle => h (decide_eq_true hle)
  rw [magnitude, Nat.mod_eq_of_lt (by omega)]

/-- No two bit patterns share a place in the total order. -/
theorem totalRank_inj (hbits : bits < 2 * f.signBit) (hbits' : bits' < 2 * f.signBit) :
    f.totalRank bits = f.totalRank bits' ↔ bits = bits' := by
  refine ⟨fun h => ?_, fun h => h ▸ rfl⟩
  unfold totalRank at h
  by_cases hneg : f.isNegative bits <;> by_cases hneg' : f.isNegative bits'
  · have hm := magnitude_of_isNegative hbits hneg
    have hm' := magnitude_of_isNegative hbits' hneg'
    rw [if_pos hneg, if_pos hneg'] at h
    omega
  · rw [if_pos hneg, if_neg hneg'] at h
    omega
  · rw [if_neg hneg, if_pos hneg'] at h
    omega
  · have hm := magnitude_of_not_isNegative hneg
    have hm' := magnitude_of_not_isNegative hneg'
    rw [if_neg hneg, if_neg hneg'] at h
    omega

end BinaryFormat

/-- Narrow numbers are totally equal exactly if they are the same. -/
@[simp] theorem Binary32.totalEq_iff {x y : Binary32} : x.totalEq y = true ↔ x = y := by
  obtain ⟨x⟩ := x
  obtain ⟨y⟩ := y
  rw [totalEq, beq_iff_eq, BinaryFormat.totalRank_inj x.toNat_lt y.toNat_lt, UInt32.toNat_inj,
    mk.injEq]

@[simp] theorem Binary64.totalEq_iff {x y : Binary64} : x.totalEq y = true ↔ x = y := by
  obtain ⟨x⟩ := x
  obtain ⟨y⟩ := y
  rw [totalEq, beq_iff_eq, BinaryFormat.totalRank_inj x.toNat_lt y.toNat_lt, UInt64.toNat_inj,
    mk.injEq]

/-! ## Equality of values -/

namespace Value

/-- Whether components are equal one by one. -/
def allEq {α : Type} (eq : α → α → Bool) (xs ys : List α) : Bool :=
  (xs.zip ys).all fun (x, y) => eq x y

/-- Whether two values are of one kind and have equal contents. -/
def equals : Value → Value → Bool
  | empty, empty => true
  | float x, float y => x.totalEq y
  | double x, double y => x.totalEq y
  | float3 v, float3 w => allEq Binary32.totalEq v.toList w.toList
  | double3 v, double3 w => allEq Binary64.totalEq v.toList w.toList
  | quatf q, quatf r => allEq Binary32.totalEq q.toList r.toList
  | matrix4d m, matrix4d n =>
    allEq (fun row row' => allEq Binary64.totalEq row.toList row'.toList) m.toList n.toList
  | tokens names, tokens names' => names == names'
  | _, _ => false

/-- Lists of one length are equal exactly if their elements are. -/
theorem allEq_iff {α : Type} {eq : α → α → Bool} (heq : ∀ x y, eq x y = true ↔ x = y) :
    ∀ {xs ys : List α}, xs.length = ys.length → (allEq eq xs ys = true ↔ xs = ys)
  | [], [], _ => by simp [allEq]
  | x :: xs, y :: ys, h => by
    have hothers := allEq_iff heq (Nat.succ.inj h)
    rw [allEq] at hothers ⊢
    rw [List.zip_cons_cons, List.all_cons, Bool.and_eq_true, heq, hothers, List.cons.injEq]

/-- Triples are equal exactly if their elements are. -/
theorem allEq_vec3_iff {α : Type} {eq : α → α → Bool} (heq : ∀ x y, eq x y = true ↔ x = y)
    {v w : Vec3 α} : allEq eq v.toList w.toList = true ↔ v = w := by
  obtain ⟨x, y, z⟩ := v
  obtain ⟨x', y', z'⟩ := w
  refine (allEq_iff heq (by rfl)).trans ?_
  simp [Vec3.toList]

theorem allEq_vec4_iff {α : Type} {eq : α → α → Bool} (heq : ∀ x y, eq x y = true ↔ x = y)
    {v w : Vec4 α} : allEq eq v.toList w.toList = true ↔ v = w := by
  obtain ⟨a, b, c, d⟩ := v
  obtain ⟨a', b', c', d'⟩ := w
  refine (allEq_iff heq (by rfl)).trans ?_
  simp [Vec4.toList]

/-- Values are equal if they are the same, and only then. -/
theorem equals_iff {v w : Value} : v.equals w = true ↔ v = w := by
  have hsingle : ∀ x y : Binary32, x.totalEq y = true ↔ x = y := fun _ _ => Binary32.totalEq_iff
  have hdouble : ∀ x y : Binary64, x.totalEq y = true ↔ x = y := fun _ _ => Binary64.totalEq_iff
  have hrow : ∀ row row' : Vec4 Binary64,
      allEq Binary64.totalEq row.toList row'.toList = true ↔ row = row' :=
    fun _ _ => allEq_vec4_iff hdouble
  cases v <;> cases w <;>
    simp [equals, allEq_vec3_iff hsingle, allEq_vec3_iff hdouble, allEq_vec4_iff hsingle,
      allEq_vec4_iff hrow]

end Value

end TransformStack
