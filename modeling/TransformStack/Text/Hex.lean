/-!
# Hexadecimal text

Numbers in lower-case hexadecimal digits, the highest first.
-/

namespace TransformStack.Text

/-- A natural number in lower-case hexadecimal. -/
def hex (n : Nat) : List Char := Nat.toDigits 16 n

/-- A number in hexadecimal with at least `width` digits. -/
def hexPadded (width n : Nat) : List Char :=
  List.replicate (width - (hex n).length) '0' ++ hex n

end TransformStack.Text
