/-!
# The format of MessagePack

An item opens with a header, which tells what follows and how much of it. Strings and arrays have
headers of several widths. Readers take bytes off the front.
-/

namespace TransformStack.MessagePack

/-! ## Headers -/

/-- The bytes of `n` in `width` bytes, the highest first. -/
def bigEndian : Nat → Nat → List UInt8
  | 0, _ => []
  | width + 1, n => bigEndian width (n / 256) ++ [UInt8.ofNat n]

/-- The shortest header of a string of `n` bytes. -/
def stringHeader (n : Nat) : List UInt8 :=
  if n < 32 then [UInt8.ofNat (0xa0 + n)]
  else if n < 0x100 then 0xd9 :: bigEndian 1 n
  else if n < 0x10000 then 0xda :: bigEndian 2 n
  else 0xdb :: bigEndian 4 n

/-- The shortest header of an array of `n` items. -/
def arrayHeader (n : Nat) : List UInt8 :=
  if n < 16 then [UInt8.ofNat (0x90 + n)]
  else if n < 0x10000 then 0xdc :: bigEndian 2 n
  else 0xdd :: bigEndian 4 n

/-- The headers that open a string of `n` bytes, of any width that holds `n`. -/
inductive StringHeader : List UInt8 → Nat → Prop where
  | fixed {n : Nat} (h : n < 32) : StringHeader [UInt8.ofNat (0xa0 + n)] n
  | byte {n : Nat} (h : n < 0x100) : StringHeader (0xd9 :: bigEndian 1 n) n
  | twoBytes {n : Nat} (h : n < 0x10000) : StringHeader (0xda :: bigEndian 2 n) n
  | fourBytes {n : Nat} (h : n < 0x100000000) : StringHeader (0xdb :: bigEndian 4 n) n

/-- The headers that open an array of `n` items, of any width that holds `n`. -/
inductive ArrayHeader : List UInt8 → Nat → Prop where
  | fixed {n : Nat} (h : n < 16) : ArrayHeader [UInt8.ofNat (0x90 + n)] n
  | twoBytes {n : Nat} (h : n < 0x10000) : ArrayHeader (0xdc :: bigEndian 2 n) n
  | fourBytes {n : Nat} (h : n < 0x100000000) : ArrayHeader (0xdd :: bigEndian 4 n) n

/-- The bytes of a string. -/
def utf8 (s : String) : List UInt8 := s.toUTF8.data.toList

/-! ## Readers -/

/-- Reads something off the front of the bytes. -/
abbrev Reader := StateT (List UInt8) Option

/-- A reader takes bytes off the front and gives what they stand for, whatever follows them. -/
def Reads {α : Type} (reader : Reader α) (bytes : List UInt8) (a : α) : Prop :=
  ∀ rest, reader (bytes ++ rest) = some (a, rest)

/-- So many items. -/
def readItems {α : Type} (item : Reader α) : Nat → Reader (List α)
  | 0 => return []
  | n + 1 => do
    let first ← item
    let others ← readItems item n
    return first :: others

end TransformStack.MessagePack
