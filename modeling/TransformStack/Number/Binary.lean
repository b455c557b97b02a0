/-!
# Binary floating-point numbers by their bits

Numbers of the scene are kept as the bit patterns of the two binary interchange formats, so that
every NaN payload and both zeros survive being stored. Conversions between the formats, and from
integers, are exact arithmetic on naturals with one rounding at the end.
-/

namespace TransformStack

/-- A number of the 32-bit format, by its bits. -/
structure Binary32 where
  bits : UInt32
  deriving DecidableEq, Inhabited

/-- A number of the 64-bit format, by its bits. -/
structure Binary64 where
  bits : UInt64
  deriving DecidableEq, Inhabited

/-! ## Formats -/

/-- The widths of the fraction field and of the exponent field of a binary format. -/
structure BinaryFormat where
  fractionWidth : Nat
  exponentWidth : Nat

namespace BinaryFormat

/-- The 32-bit format. -/
def single : BinaryFormat := ⟨23, 8⟩

/-- The 64-bit format. -/
def double : BinaryFormat := ⟨52, 11⟩

variable (f : BinaryFormat)

/-- The number of fractions that share one exponent. -/
def fractions : Nat := Nat.pow 2 f.fractionWidth

/-- The sign bit alone, which is also the bound of all magnitudes. -/
def signBit : Nat := Nat.pow 2 (f.fractionWidth + f.exponentWidth)

/-- The magnitude of infinity; greater magnitudes are NaNs. -/
def infinity : Nat := (Nat.pow 2 f.exponentWidth - 1) * f.fractions

/-- The bit that tells quiet NaNs from signalling ones. -/
def quietBit : Nat := Nat.pow 2 (f.fractionWidth - 1)

/-- The binary exponent of the least positive number. -/
def leastExponent : Int := 2 - Nat.pow 2 (f.exponentWidth - 1) - f.fractionWidth

/-- The magnitude field of a bit pattern. -/
def magnitude (bits : Nat) : Nat := bits % f.signBit

/-- Whether a bit pattern carries the sign. -/
def isNegative (bits : Nat) : Bool := f.signBit ≤ bits

/-- The place of a bit pattern in the total order, in which all patterns have a place of their own:
those with the sign come first, the greater magnitude before the smaller. -/
def totalRank (bits : Nat) : Int :=
  if f.isNegative bits then -(f.magnitude bits : Int) - 1 else f.magnitude bits

/-- A finite magnitude is `m * 2 ^ q`; this gives `m` and `q`. -/
def decode (magnitude : Nat) : Nat × Int :=
  let exponent := magnitude / f.fractions
  let fraction := magnitude % f.fractions
  if exponent = 0 then (fraction, f.leastExponent)
  else (f.fractions + fraction, f.leastExponent + exponent - 1)

/-- The natural number nearest to `n / d`, a half going to the even neighbour. -/
def nearestEven (n d : Nat) : Nat :=
  let quotient := n / d
  let remainder := n % d
  if 2 * remainder < d then quotient
  else if d < 2 * remainder then quotient + 1
  else if quotient % 2 = 0 then quotient else quotient + 1

/-- The magnitude nearest to `m * 2 ^ q`, a half going to the even neighbour; what lies beyond the
greatest finite number becomes infinity. -/
def encode (m : Nat) (q : Int) : Nat :=
  if m = 0 then 0 else
    let unit := max (q + Nat.log2 m - f.fractionWidth) f.leastExponent
    let significand :=
      if unit ≤ q then m * Nat.pow 2 (q - unit).toNat
      else nearestEven m (Nat.pow 2 (unit - q).toNat)
    min ((unit - f.leastExponent).toNat * f.fractions + significand) f.infinity

/-- Put the sign on a magnitude. -/
def signed (negative : Bool) (magnitude : Nat) : Nat :=
  if negative then f.signBit + magnitude else magnitude

/-- The bits of a number of format `f` in format `g`. Finite numbers are rounded to nearest, and a
NaN becomes quiet and keeps its sign and the leading bits of its payload. -/
def convert (f g : BinaryFormat) (bits : Nat) : Nat :=
  let m := f.magnitude bits
  g.signed (f.isNegative bits) <|
    if f.infinity < m then
      let payload := m % f.fractions
      let moved := payload * g.fractions / f.fractions
      g.infinity + (if moved < g.quietBit then g.quietBit + moved else moved)
    else if m = f.infinity then g.infinity
    else g.encode (f.decode m).1 (f.decode m).2

/-- The bits of the number nearest to an integer. -/
def ofInt (i : Int) : Nat := f.signed (i < 0) (f.encode i.natAbs 0)

end BinaryFormat

/-! ## Numbers of 64 bits -/

namespace Binary64

/-- The magnitude field. -/
def magnitude (x : Binary64) : Nat := BinaryFormat.double.magnitude x.bits.toNat

/-- Whether the sign bit is set. -/
def isNegative (x : Binary64) : Bool := BinaryFormat.double.isNegative x.bits.toNat

/-- Neither infinite nor NaN. -/
def isFinite (x : Binary64) : Bool := x.magnitude < BinaryFormat.double.infinity

/-- Not a number. -/
def isNaN (x : Binary64) : Bool := BinaryFormat.double.infinity < x.magnitude

/-- The place of a number in numeric order. The two zeros share one place and a NaN has none. -/
def rank? (x : Binary64) : Option Int :=
  if x.isNaN then none
  else some (if x.isNegative then -(x.magnitude : Int) else x.magnitude)

/-- The number at a place in numeric order, zero being the positive one. -/
def ofRank (rank : Int) : Binary64 :=
  ⟨UInt64.ofNat (BinaryFormat.double.signed (rank < 0) rank.natAbs)⟩

/-- Numeric equality: the zeros are equal, and a NaN equals nothing. -/
def numericEq (x y : Binary64) : Bool :=
  match x.rank?, y.rank? with
  | some a, some b => a == b
  | _, _ => false

/-- Equality in the total order. -/
def totalEq (x y : Binary64) : Bool :=
  BinaryFormat.double.totalRank x.bits.toNat == BinaryFormat.double.totalRank y.bits.toNat

/-- The number nearest to an integer. -/
def ofInt (i : Int) : Binary64 := ⟨UInt64.ofNat (BinaryFormat.double.ofInt i)⟩

/-- The nearest number of 32 bits. -/
def toBinary32 (x : Binary64) : Binary32 :=
  ⟨UInt32.ofNat (BinaryFormat.double.convert .single x.bits.toNat)⟩

/-- For arithmetic. All NaNs become one there. -/
def toFloat (x : Binary64) : Float := Float.ofBits x.bits

/-- The result of arithmetic. -/
def ofFloat (x : Float) : Binary64 := ⟨x.toBits⟩

/-- Zero, with the positive sign. -/
def zero : Binary64 := ⟨0⟩

/-- One. -/
def one : Binary64 := ⟨0x3ff0000000000000⟩

end Binary64

/-! ## Numbers of 32 bits -/

namespace Binary32

/-- The magnitude field. -/
def magnitude (x : Binary32) : Nat := BinaryFormat.single.magnitude x.bits.toNat

/-- Whether the sign bit is set. -/
def isNegative (x : Binary32) : Bool := BinaryFormat.single.isNegative x.bits.toNat

/-- Neither infinite nor NaN. -/
def isFinite (x : Binary32) : Bool := x.magnitude < BinaryFormat.single.infinity

/-- Not a number. -/
def isNaN (x : Binary32) : Bool := BinaryFormat.single.infinity < x.magnitude

/-- Equality in the total order. -/
def totalEq (x y : Binary32) : Bool :=
  BinaryFormat.single.totalRank x.bits.toNat == BinaryFormat.single.totalRank y.bits.toNat

/-- The number nearest to an integer. -/
def ofInt (i : Int) : Binary32 := ⟨UInt32.ofNat (BinaryFormat.single.ofInt i)⟩

/-- The same number with 64 bits. -/
def toBinary64 (x : Binary32) : Binary64 :=
  ⟨UInt64.ofNat (BinaryFormat.single.convert .double x.bits.toNat)⟩

end Binary32

end TransformStack
