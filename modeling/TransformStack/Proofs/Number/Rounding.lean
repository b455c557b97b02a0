import TransformStack.Number.Binary

/-!
# Numbers that outgrow the 32-bit format

A finite number of 64 bits is rounded to 32 bits, and that makes it infinite where it is too great.
The bound lies half way between the greatest finite number of 32 bits and the next power of two, and
belongs to the numbers that become infinite.
-/

namespace TransformStack

namespace BinaryFormat

/-! ## Rounding to the nearest -/

section

variable {n d k : Nat}

/-- Rounding to the nearest goes up by one at most, and never down. -/
theorem nearestEven_bounds (n d : Nat) :
    n / d ≤ nearestEven n d ∧ nearestEven n d ≤ n / d + 1 := by
  unfold nearestEven
  dsimp only
  split
  · omega
  · split
    · omega
    · split <;> omega

/-- Numbers are rounded down to an odd one exactly below the half way to the next. -/
theorem nearestEven_le_iff (hd : 0 < d) (hk : k % 2 = 1) :
    nearestEven n (2 * d) ≤ k ↔ n < (2 * d) * k + d := by
  have hsplit := Nat.div_add_mod n (2 * d)
  have hrest := Nat.mod_lt n (Nat.mul_pos Nat.two_pos hd)
  obtain ⟨hlower, hupper⟩ := nearestEven_bounds n (2 * d)
  rcases Nat.lt_trichotomy (n / (2 * d)) k with hlt | heq | hgt
  · have hmul : (2 * d) * (n / (2 * d)) + 2 * d ≤ (2 * d) * k := by
      rw [← Nat.mul_succ]
      exact Nat.mul_le_mul_left _ hlt
    omega
  · subst heq
    unfold nearestEven
    dsimp only
    split
    · omega
    · split
      · omega
      · rw [if_neg (by omega)]
        omega
  · have hmul : (2 * d) * k + 2 * d ≤ (2 * d) * (n / (2 * d)) := by
      rw [← Nat.mul_succ]
      exact Nat.mul_le_mul_left _ hgt
    omega

end

/-! ## Magnitudes -/

/-- The sign bit does not touch the magnitude. -/
theorem magnitude_signed (f : BinaryFormat) (negative : Bool) {m : Nat} (hm : m < f.signBit) :
    f.magnitude (f.signed negative m) = m := by
  unfold magnitude signed
  cases negative
  · exact Nat.mod_eq_of_lt hm
  · rw [if_pos rfl, Nat.add_mod_left, Nat.mod_eq_of_lt hm]

/-- No number is encoded beyond infinity. -/
theorem encode_le_infinity (f : BinaryFormat) (m : Nat) (q : Int) : f.encode m q ≤ f.infinity := by
  unfold encode
  split
  · exact Nat.zero_le _
  · exact Nat.min_le_right _ _

/-! ## From 64 bits to 32 -/

/-- What is scaled down to the width of the fraction is rounded to no more than twice the number of
fractions. -/
theorem nearestEven_le_of_log2 {m k : Nat} (hm : m.log2 ≤ k + 23) :
    nearestEven m (Nat.pow 2 k) ≤ 2 * single.fractions := by
  have hlt : m < Nat.pow 2 (k + 24) :=
    Nat.lt_of_lt_of_le Nat.lt_log2_self (Nat.pow_le_pow_right Nat.two_pos (by omega))
  have hquotient : m / Nat.pow 2 k < 2 * single.fractions := by
    refine Nat.div_lt_of_lt_mul ?_
    exact Nat.lt_of_lt_of_eq hlt (Nat.pow_add 2 k 24)
  exact Nat.le_trans (nearestEven_bounds m (Nat.pow 2 k)).2 hquotient

/-- The least of the magnitudes of 64 bits that are too great for 32 bits, infinity apart: it lies
half way between the greatest finite number of 32 bits and the next power of two. -/
def singleOverflow : Nat := 0x47effffff0000000

/-- Below the first normal number all decode at the same exponent. -/
theorem decode_of_subnormal {m : Nat} (hm : m < double.fractions) :
    double.decode m = (m, -1074) := by
  unfold decode
  dsimp only
  rw [Nat.div_eq_of_lt hm, if_pos rfl, Nat.mod_eq_of_lt hm]
  rfl

/-- A normal number decodes with the leading bit that its encoding leaves out. -/
theorem decode_of_normal {m : Nat} (hm : double.fractions ≤ m) :
    double.decode m = (double.fractions + m % double.fractions,
      ((m / double.fractions : Nat) : Int) - 1075) := by
  unfold decode
  dsimp only
  have hpos : 0 < m / double.fractions := Nat.div_pos hm (by decide)
  rw [if_neg (by omega), show double.leastExponent = -1074 from rfl]
  congr 1
  omega

/-- With 32 bits, what has no more digits than the fraction at the least exponent is finite. -/
theorem encode_subnormal {m : Nat} (hm : m < double.fractions) :
    single.encode m (-1074) < single.infinity := by
  unfold encode
  split
  · decide
  next hpos =>
  have hlog : m.log2 < 52 := (Nat.log2_lt hpos).2 hm
  have hunit : max (-1074 + (m.log2 : Int) - (single.fractionWidth : Nat)) single.leastExponent =
      single.leastExponent := by
    show max (-1074 + (m.log2 : Int) - (23 : Nat)) (-149) = -149
    omega
  have hsignificand := nearestEven_le_of_log2 (m := m) (k := (single.leastExponent - -1074).toNat)
    (by rw [show (single.leastExponent - -1074).toNat = 925 from rfl]; omega)
  rw [hunit]
  dsimp only
  rw [if_neg (by decide), Int.sub_self, Int.toNat_zero, Nat.zero_mul, Nat.zero_add]
  have hfractions : single.fractions = 8388608 := rfl
  have hinfinity : single.infinity = 2139095040 := rfl
  omega

/-- With 32 bits, the exponent counts from the least one, and the significand loses 29 digits, or
more where the exponent is below the least. -/
theorem encode_normal {m e : Nat} (hm : double.fractions ≤ m) (hm' : m < 2 * double.fractions) :
    single.encode m ((e : Int) - 1075) =
      min ((e - 897) * single.fractions + nearestEven m (Nat.pow 2 (29 + (897 - e))))
        single.infinity := by
  have hpos : m ≠ 0 := by
    rintro rfl
    exact absurd hm (by decide)
  have hlog : m.log2 = 52 := (Nat.log2_eq_iff hpos).2 ⟨hm, hm'⟩
  have hunit : max ((e : Int) - 1075 + (52 : Nat) - (single.fractionWidth : Nat))
      single.leastExponent = max ((e : Int) - 1046) (-149) := by
    show max ((e : Int) - 1075 + (52 : Nat) - (23 : Nat)) (-149) = _
    omega
  have hexponent : (max ((e : Int) - 1046) (-149) - single.leastExponent).toNat = e - 897 := by
    show (max ((e : Int) - 1046) (-149) - -149).toNat = _
    omega
  have hdigits : (max ((e : Int) - 1046) (-149) - ((e : Int) - 1075)).toNat = 29 + (897 - e) := by
    omega
  unfold encode
  rw [if_neg hpos, hlog, hunit]
  dsimp only
  rw [if_neg (by omega), hexponent, hdigits]

/-- A finite number of 64 bits becomes finite with 32 bits exactly if it is below the bound. -/
theorem encode_decode_lt_iff {m : Nat} (hm : m < double.infinity) :
    single.encode (double.decode m).1 (double.decode m).2 < single.infinity ↔
      m < singleOverflow := by
  have hfractions : double.fractions = 4503599627370496 := rfl
  have hinfinity : double.infinity = 9218868437227405312 := rfl
  have hoverflow : singleOverflow = 5183643170835005440 := rfl
  have hsplit := Nat.div_add_mod m double.fractions
  have hrest := Nat.mod_lt m (show 0 < double.fractions by decide)
  rcases Nat.lt_or_ge m double.fractions with hsubnormal | hnormal
  · rw [decode_of_subnormal hsubnormal]
    exact iff_of_true (encode_subnormal hsubnormal) (by omega)
  rw [decode_of_normal hnormal]
  dsimp only
  generalize m / double.fractions = e at hsplit ⊢
  generalize m % double.fractions = fraction at hsplit hrest ⊢
  have hmin (x : Nat) : min x single.infinity < single.infinity ↔ x < single.infinity := by omega
  rw [encode_normal (Nat.le_add_right _ _) (by omega), hmin]
  have hfractions' : single.fractions = 8388608 := rfl
  have hinfinity' : single.infinity = 2139095040 := rfl
  have hhalf : Nat.pow 2 29 = 2 * 268435456 := rfl
  rw [hfractions', hinfinity']
  rw [hfractions] at hsplit hrest ⊢
  -- The exponent decides but for one value, at which the significand must not be rounded up.
  rcases Nat.lt_trichotomy e 1150 with hless | rfl | hmore
  · have hlog : (4503599627370496 + fraction).log2 ≤ 29 + (897 - e) + 23 := by
      have hlog := (Nat.log2_lt (n := 4503599627370496 + fraction) (k := 53) (by omega)).2
      omega
    have hsignificand := nearestEven_le_of_log2 hlog
    omega
  · rw [Nat.sub_eq_zero_of_le (show 897 ≤ 1150 by decide), hhalf]
    have hdown := nearestEven_le_iff (n := 4503599627370496 + fraction) (d := 268435456)
      (k := 16777215) (by decide) (by decide)
    omega
  · rw [Nat.sub_eq_zero_of_le (show 897 ≤ e by omega), hhalf]
    have hlower := (nearestEven_bounds (4503599627370496 + fraction) (2 * 268435456)).1
    omega

end BinaryFormat

/-! ## Numbers -/

/-- The sign bit of a narrow number does not touch the magnitude. -/
theorem Binary32.magnitude_signed (negative : Bool) {m : Nat}
    (hm : m < BinaryFormat.single.signBit) :
    (⟨UInt32.ofNat (BinaryFormat.single.signed negative m)⟩ : Binary32).magnitude = m := by
  have hsign : BinaryFormat.single.signBit = 2147483648 := rfl
  have hbits : BinaryFormat.single.signed negative m < 2 ^ 32 := by
    unfold BinaryFormat.signed
    split <;> omega
  rw [magnitude, UInt32.toNat_ofNat_of_lt' hbits, BinaryFormat.magnitude_signed _ _ hm]

namespace Binary64

variable {x : Binary64}

/-- A finite number is rounded. -/
theorem magnitude_toBinary32 (h : x.magnitude < BinaryFormat.double.infinity) :
    x.toBinary32.magnitude = BinaryFormat.single.encode (BinaryFormat.double.decode x.magnitude).1
      (BinaryFormat.double.decode x.magnitude).2 := by
  unfold magnitude at h ⊢
  unfold toBinary32 BinaryFormat.convert
  dsimp only
  rw [if_neg (by omega), if_neg (by omega), Binary32.magnitude_signed]
  exact Nat.lt_of_le_of_lt (BinaryFormat.single.encode_le_infinity _ _) (by decide)

/-- What is not finite stays so with 32 bits: the payload of a NaN has room above infinity. -/
theorem infinity_le_toBinary32 (h : BinaryFormat.double.infinity ≤ x.magnitude) :
    BinaryFormat.single.infinity ≤ x.toBinary32.magnitude := by
  have hsign : BinaryFormat.single.signBit = 2147483648 := rfl
  have hinfinity : BinaryFormat.single.infinity = 2139095040 := rfl
  have hquiet : BinaryFormat.single.quietBit = 4194304 := rfl
  unfold magnitude at h
  unfold toBinary32 BinaryFormat.convert
  dsimp only
  split
  · have hmoved : BinaryFormat.double.magnitude x.bits.toNat % BinaryFormat.double.fractions *
        BinaryFormat.single.fractions / BinaryFormat.double.fractions <
          BinaryFormat.single.fractions := by
      have hpos : 0 < BinaryFormat.double.fractions := by decide
      rw [Nat.div_lt_iff_lt_mul hpos, Nat.mul_comm]
      exact Nat.mul_lt_mul_of_pos_left (Nat.mod_lt _ hpos) (by decide)
    have hfractions : BinaryFormat.single.fractions = 8388608 := rfl
    rw [Binary32.magnitude_signed _ (by split <;> omega)]
    exact Nat.le_add_right _ _
  · refine Nat.le_of_eq ?_
    rw [if_pos (by omega), Binary32.magnitude_signed _ (by decide)]

/-- A number is finite with 32 bits exactly if it is below the bound. -/
theorem isFinite_toBinary32_iff :
    x.toBinary32.isFinite ↔ x.magnitude < BinaryFormat.singleOverflow := by
  rw [Binary32.isFinite, decide_eq_true_eq]
  rcases Nat.lt_or_ge x.magnitude BinaryFormat.double.infinity with hfinite | hinfinite
  · rw [magnitude_toBinary32 hfinite]
    exact BinaryFormat.encode_decode_lt_iff hfinite
  · have hoverflow : BinaryFormat.singleOverflow < BinaryFormat.double.infinity := by decide
    have hstays := infinity_le_toBinary32 hinfinite
    exact iff_of_false (by omega) (by omega)

end Binary64

end TransformStack
