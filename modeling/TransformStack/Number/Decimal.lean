import TransformStack.Number.Binary

/-!
# Decimal text of binary numbers

A finite number is written with the fewest digits that read back as the same number, and of those
with the digits nearest to it. How the digits are laid out is one `NumberStyle`.
-/

namespace TransformStack

/-! ## The fewest digits -/

/-- The number `digits * 10 ^ exponent`. -/
structure Decimal where
  digits : Nat
  exponent : Int
  deriving DecidableEq

/-- The number of decimal digits of `n`; zero has none. -/
def decimalLength (n : Nat) : Nat := if n = 0 then 0 else (Nat.toDigits 10 n).length

/-- A positive number with the interval of the reals that round to it. All three are numerators
over `scale`. -/
structure RoundingInterval where
  low : Nat
  value : Nat
  high : Nat
  scale : Nat
  /-- Whether the ends round to the number too. -/
  closed : Bool

namespace RoundingInterval

/-- The interval of a positive finite magnitude. Its lower half is narrower where the numbers below
lie closer together. -/
def ofMagnitude (f : BinaryFormat) (magnitude : Nat) : RoundingInterval :=
  let (m, q) := f.decode magnitude
  let narrow := magnitude % f.fractions = 0 ∧ f.fractions < magnitude
  let up := Nat.pow 2 (q - 2).toNat
  { low := (4 * m - if narrow then 1 else 2) * up
    value := 4 * m * up
    high := (4 * m + 2) * up
    scale := Nat.pow 2 (2 - q).toNat
    closed := m % 2 = 0 }

variable (i : RoundingInterval)

/-- The exponent of the leading decimal digit. -/
def leadingExponent : Int :=
  if i.scale ≤ i.value then (decimalLength (i.value / i.scale) : Int) - 1
  else -(decimalLength ((i.scale + i.value - 1) / i.value - 1) : Int)

/-- The numerator and denominator that compare `digits * 10 ^ exponent` with the interval. -/
def onGrid (exponent : Int) : Nat × Nat :=
  (i.scale * Nat.pow 10 exponent.toNat, Nat.pow 10 (-exponent).toNat)

/-- Whether `digits * 10 ^ exponent` rounds to the number. -/
def holds (exponent : Int) (digits : Nat) : Bool :=
  let (unit, factor) := i.onGrid exponent
  if i.closed then i.low * factor ≤ digits * unit && digits * unit ≤ i.high * factor
  else i.low * factor < digits * unit && digits * unit < i.high * factor

/-- The neighbour of the number on the grid of `10 ^ exponent` that rounds to it, the nearer one if
both do and the greater one if both are equally near. -/
def onGrid? (exponent : Int) : Option Nat :=
  let (unit, factor) := i.onGrid exponent
  let below := i.value * factor / unit
  match i.holds exponent below, i.holds exponent (below + 1) with
  | true, false => some below
  | false, true => some (below + 1)
  | false, false => none
  | true, true =>
    let excess := i.value * factor - below * unit
    if 2 * excess < unit then some below else some (below + 1)

/-- The first grid that holds a neighbour, trying `fuel` digit counts from `count` on. -/
def search (leading : Int) : Nat → Nat → Option Decimal
  | 0, _ => none
  | fuel + 1, count =>
    let exponent := leading - count + 1
    match i.onGrid? exponent with
    | some digits => some ⟨digits, exponent⟩
    | none => search leading fuel (count + 1)

end RoundingInterval

/-- The fewest digits that round to a positive finite magnitude; seventeen always do. -/
def Decimal.shortest (f : BinaryFormat) (magnitude : Nat) : Decimal :=
  let i := RoundingInterval.ofMagnitude f magnitude
  (i.search i.leadingExponent 17 1).getD ⟨0, 0⟩

/-! ## Layout -/

/-- How digits are laid out as text. -/
structure NumberStyle where
  /-- The least exponent of the leading digit that is written without an exponent. -/
  positionalFrom : Int
  /-- The least exponent from which on an exponent is written. -/
  positionalBelow : Int
  /-- What follows a whole number that is written without an exponent. -/
  wholeTail : String
  /-- What stands between the digits and the exponent. -/
  exponentMark : String
  nan : String
  infinity : String
  zero : String

namespace NumberStyle

variable (style : NumberStyle)

/-- A text of `n` zeros. -/
def zeros (n : Nat) : List Char := List.replicate n '0'

/-- The digits of a number without the zeros at its end. -/
def significant (digits : Nat) : List Char :=
  ((Nat.toDigits 10 digits).reverse.dropWhile (· == '0')).reverse

/-- Lay out digits whose leading one has the given exponent. -/
def layOut (digits : List Char) (leading : Int) : String :=
  if leading < style.positionalFrom ∨ style.positionalBelow ≤ leading then
    String.ofList (digits.take 1)
      ++ (if digits.length ≤ 1 then "" else "." ++ String.ofList (digits.drop 1))
      ++ style.exponentMark ++ toString leading
  else if leading < 0 then
    "0." ++ String.ofList (zeros (-leading - 1).toNat ++ digits)
  else
    let whole := leading.toNat + 1
    if digits.length ≤ whole then
      String.ofList (digits ++ zeros (whole - digits.length)) ++ style.wholeTail
    else String.ofList (digits.take whole) ++ "." ++ String.ofList (digits.drop whole)

/-- The text of a number of format `f` by its bits. -/
def text (f : BinaryFormat) (bits : Nat) : String :=
  let m := f.magnitude bits
  let sign := if f.isNegative bits then "-" else ""
  if f.infinity < m then style.nan
  else if m = f.infinity then sign ++ style.infinity
  else if m = 0 then sign ++ style.zero
  else
    let d := Decimal.shortest f m
    let leading := d.exponent + (Nat.toDigits 10 d.digits).length - 1
    sign ++ style.layOut (significant d.digits) leading

end NumberStyle

/-- Messages write numbers below `10 ^ 16` and from `10 ^ -4` on with a point, and others with an
exponent that has no plus sign. -/
def NumberStyle.message : NumberStyle where
  positionalFrom := -4
  positionalBelow := 16
  wholeTail := ".0"
  exponentMark := "e"
  nan := "NaN"
  infinity := "inf"
  zero := "0.0"

/-- The text of a number of 64 bits in messages. -/
def Binary64.text (x : Binary64) : String := NumberStyle.message.text .double x.bits.toNat

/-- The text of a number of 32 bits in messages. -/
def Binary32.text (x : Binary32) : String := NumberStyle.message.text .single x.bits.toNat

example : (⟨0x3fb999999999999a⟩ : Binary64).text = "0.1" := by decide +kernel
example : (⟨0x3dcccccd⟩ : Binary32).text = "0.1" := by decide +kernel
example : (⟨0x4341c37937e08000⟩ : Binary64).text = "1e16" := by decide +kernel
example : (⟨0x8000000000000000⟩ : Binary64).text = "-0.0" := by decide +kernel
example : (⟨1⟩ : Binary64).text = "5e-324" := by decide +kernel

end TransformStack
