import TransformStack.Value.MessagePack.Encoding

/-!
# A library for MessagePack

Every length takes the shortest header. More is read than is written: a header may have any width,
and an integer or a float of any width stands for a number. A kind may be given by its place, a
binary string stands for a string or for an array of bytes, and a kind that nothing goes with may be
an entry too.
-/

namespace TransformStack.MessagePack

/-! ## Writing -/

/-- A string after its header. -/
def writeString (s : String) : Written := some (stringHeader s.utf8ByteSize ++ utf8 s)

/-- The items of an array after its header. -/
def writeArray {α : Type} (item : α → Written) (items : List α) : Written :=
  (items.mapM item).map fun written => arrayHeader items.length ++ written.flatten

/-- A map of one entry. -/
def writeEntry (name : String) (content : Written) : Written := do
  return 0x81 :: (← writeString name) ++ (← content)

/-! ## Reading -/

/-- The next byte. -/
def readByte : Reader UInt8
  | [] => none
  | byte :: rest => some (byte, rest)

/-- The next `n` bytes. -/
def readBytes (n : Nat) : Reader (List UInt8) := fun bytes =>
  if n ≤ bytes.length then some (bytes.take n, bytes.drop n) else none

/-- The number in the next `width` bytes, the highest first. -/
def readNat (width : Nat) : Reader Nat := do
  let bytes ← readBytes width
  return bytes.foldl (fun n byte => n * 256 + byte.toNat) 0

/-- The number in two's complement in the next `width` bytes, the highest first. -/
def readInt (width : Nat) : Reader Int := do
  let n ← readNat width
  let limit := Nat.pow 256 width
  return if 2 * n < limit then (n : Int) else (n : Int) - limit

/-- A number as it is written, before it takes the format that is wanted. -/
inductive Numeral where
  | unsigned (n : Nat)
  | signed (i : Int)
  | single (x : Binary32)
  | double (x : Binary64)

/-- The number in the 32-bit format, rounded at most once. -/
def Numeral.toBinary32 : Numeral → Binary32
  | unsigned n => .ofInt n
  | signed i => .ofInt i
  | single x => x
  | double x => x.toBinary32

/-- The number in the 64-bit format, rounded at most once. -/
def Numeral.toBinary64 : Numeral → Binary64
  | unsigned n => .ofInt n
  | signed i => .ofInt i
  | single x => x.toBinary64
  | double x => x

/-- What opens an item: the whole of a small one, or the length of what follows. -/
inductive Header where
  | nil
  | number (n : Numeral)
  | text (length : Nat)
  | binary (length : Nat)
  | array (length : Nat)
  | map (length : Nat)

/-- The next header; none opens with a truth value, an extension or the reserved byte. -/
def readHeader : Reader Header := do
  let byte := (← readByte).toNat
  if byte < 0x80 then return .number (.unsigned byte)
  else if byte < 0x90 then return .map (byte - 0x80)
  else if byte < 0xa0 then return .array (byte - 0x90)
  else if byte < 0xc0 then return .text (byte - 0xa0)
  else if 0xe0 ≤ byte then return .number (.signed ((byte : Int) - 0x100))
  else match byte with
    | 0xc0 => return .nil
    | 0xc4 => return .binary (← readNat 1)
    | 0xc5 => return .binary (← readNat 2)
    | 0xc6 => return .binary (← readNat 4)
    | 0xca => return .number (.single ⟨UInt32.ofNat (← readNat 4)⟩)
    | 0xcb => return .number (.double ⟨UInt64.ofNat (← readNat 8)⟩)
    | 0xcc => return .number (.unsigned (← readNat 1))
    | 0xcd => return .number (.unsigned (← readNat 2))
    | 0xce => return .number (.unsigned (← readNat 4))
    | 0xcf => return .number (.unsigned (← readNat 8))
    | 0xd0 => return .number (.signed (← readInt 1))
    | 0xd1 => return .number (.signed (← readInt 2))
    | 0xd2 => return .number (.signed (← readInt 4))
    | 0xd3 => return .number (.signed (← readInt 8))
    | 0xd9 => return .text (← readNat 1)
    | 0xda => return .text (← readNat 2)
    | 0xdb => return .text (← readNat 4)
    | 0xdc => return .array (← readNat 2)
    | 0xdd => return .array (← readNat 4)
    | 0xde => return .map (← readNat 2)
    | 0xdf => return .map (← readNat 4)
    | _ => failure

/-- The mark of no content. -/
def readNil : Reader Unit := do
  match ← readHeader with
  | .nil => return ()
  | _ => failure

/-- A number of any width. -/
def readNumeral : Reader Numeral := do
  match ← readHeader with
  | .number n => return n
  | _ => failure

/-- The text that the next `length` bytes encode. -/
def readText (length : Nat) : Reader String := do
  let bytes ← readBytes length
  String.fromUTF8? ⟨bytes.toArray⟩

/-- A string, which may also be written as binary. -/
def readString : Reader String := do
  match ← readHeader with
  | .text length | .binary length => readText length
  | _ => failure

/-- The items that the bytes of a binary string stand for. -/
def Item.ofBytes? {α : Type} (item : Item α) (bytes : List UInt8) : Option (List α) :=
  bytes.mapM item.ofByte?

/-- An array of any length. -/
def readArray {α : Type} (item : Item α) : Reader (List α) := do
  match ← readHeader with
  | .array length => readItems item.read length
  | .binary length => item.ofBytes? (← readBytes length)
  | _ => failure

/-- An array of `n` items. A binary string in its place may be longer: its first `n` bytes count. -/
def readExactly {α : Type} (n : Nat) (item : Item α) : Reader (List α) := do
  match ← readHeader with
  | .array length => if length = n then readItems item.read n else failure
  | .binary length => item.ofBytes? ((← readBytes length).take n)
  | _ => failure

section

variable {κ α : Type} (ofName? : String → Option κ) (ofPlace? : Nat → Option κ)

/-- The kind that a header opens: by its name, or by its place as a number without a sign. -/
def Header.kind : Header → Reader κ
  | .text length | .binary length => do ofName? (← readText length)
  | .number (.unsigned place) => ofPlace? place
  | _ => failure

/-- A map of one entry, from a kind to what goes with it, or a bare kind that nothing goes with. -/
def readKind (content : κ → Content α) : Reader α := do
  match ← readHeader with
  | .map 1 =>
    match content (← (← readHeader).kind ofName? ofPlace?) with
    | .nothing a => do readNil; return a
    | .item read => read
  | header =>
    match content (← header.kind ofName? ofPlace?) with
    | .nothing a => return a
    | .item _ => failure

end

/-! ## The library -/

/-- The library that the program runs with. -/
def codec : Library where
  writeSingle x := some (0xca :: bigEndian 4 x.bits.toNat)
  writeDouble x := some (0xcb :: bigEndian 8 x.bits.toNat)
  writeString := writeString
  writeArray := writeArray
  writeBare := writeString
  writeEntry := writeEntry
  readSingle := do return (← readNumeral).toBinary32
  readDouble := do return (← readNumeral).toBinary64
  readString := readString
  readArray := readArray
  readExactly := readExactly
  readKind := readKind
  run reader bytes := (reader bytes).map Prod.fst

example : Value.write codec (.float ⟨0x3f800000⟩) =
    some [0x81, 0xa5, 0x46, 0x6c, 0x6f, 0x61, 0x74, 0xca, 0x3f, 0x80, 0, 0] := by decide +kernel

-- An integer where a number is wanted
example : Value.read? codec [0x81, 0xa5, 0x46, 0x6c, 0x6f, 0x61, 0x74, 5] =
    some (.float ⟨0x40a00000⟩) := by decide +kernel

-- The place of a kind, and a binary string for an array
example : Value.read? codec [0x81, 7, 0x91, 0xc4, 1, 0x61] = some (.tokens ["a"]) := by
  decide +kernel

end TransformStack.MessagePack
