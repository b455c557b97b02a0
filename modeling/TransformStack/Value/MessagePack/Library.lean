import TransformStack.Number.Binary
import TransformStack.Value.MessagePack.Format

/-!
# Libraries for MessagePack

A library writes and reads the items that values are made of. Here it is any such library: what is
relied on of its writing and reading is what the format says of the items, and that bytes after the
item that is asked for are left alone. What else a library reads is its own affair.
-/

namespace TransformStack.MessagePack

/-- The bytes of an item, if it can be written. -/
abbrev Written := Option (List UInt8)

/-- How an item is read: by its own header, or, in an array that a binary string stands for, from a
byte. -/
structure Item (α : Type) where
  read : Reader α
  ofByte? : UInt8 → Option α

/-- What goes with a kind: nothing, or an item. -/
inductive Content (α : Type) where
  | nothing (a : α)
  | item (read : Reader α)

/-- What a library for MessagePack offers. -/
structure Library where
  /-- Write a number of 32 bits. -/
  writeSingle : Binary32 → Written
  /-- Write a number of 64 bits. -/
  writeDouble : Binary64 → Written
  writeString : String → Written
  /-- Write an array, given how its items are written. -/
  writeArray : {α : Type} → (α → Written) → List α → Written
  /-- Write the name of a kind that nothing goes with. -/
  writeBare : String → Written
  /-- Write the name of a kind with the item that goes with it. -/
  writeEntry : String → Written → Written
  /-- Read a number that is wanted in 32 bits. -/
  readSingle : Reader Binary32
  /-- Read a number that is wanted in 64 bits. -/
  readDouble : Reader Binary64
  readString : Reader String
  /-- Read an array of any length. -/
  readArray : {α : Type} → Item α → Reader (List α)
  /-- Read an array of so many items. -/
  readExactly : {α : Type} → Nat → Item α → Reader (List α)
  /-- Read a kind, known by its name or by its place, and what goes with it. -/
  readKind : {κ α : Type} → (String → Option κ) → (Nat → Option κ) → (κ → Content α) → Reader α
  /-- Read what is at the front of the bytes. -/
  run : {α : Type} → Reader α → List UInt8 → Option α

/-- What is relied on of a library. -/
structure Library.Conforms (library : Library) : Prop where
  writeSingle : ∀ x, library.writeSingle x = some (0xca :: bigEndian 4 x.bits.toNat)
  writeDouble : ∀ x, library.writeDouble x = some (0xcb :: bigEndian 8 x.bits.toNat)
  /-- A string takes the shortest header. -/
  writeString : ∀ s : String, s.utf8ByteSize < 0x100000000 →
    library.writeString s = some (stringHeader s.utf8ByteSize ++ utf8 s)
  /-- An array takes the shortest header, and its items follow. -/
  writeArray : ∀ {α : Type} (item : α → Written) (items : List α), items.length < 0x100000000 →
    library.writeArray item items =
      (items.mapM item).map fun written => arrayHeader items.length ++ written.flatten
  /-- A bare kind is written as a string. -/
  writeBare : ∀ name, library.writeBare name = library.writeString name
  /-- A kind with an item is a map of one entry, from the name to the item. -/
  writeEntry : ∀ name content, library.writeEntry name content = do
    return 0x81 :: (← library.writeString name) ++ (← content)
  readSingle : ∀ x, Reads library.readSingle (0xca :: bigEndian 4 x.bits.toNat) x
  readDouble : ∀ x, Reads library.readDouble (0xcb :: bigEndian 8 x.bits.toNat) x
  readString : ∀ {header : List UInt8} {s : String}, StringHeader header s.utf8ByteSize →
    Reads library.readString (header ++ utf8 s) s
  /-- The items of an array are read one after the other. -/
  readArray : ∀ {α : Type} {item : Item α} {header bytes : List UInt8} {n : Nat} {items : List α},
    ArrayHeader header n → Reads (readItems item.read n) bytes items →
      Reads (library.readArray item) (header ++ bytes) items
  readExactly : ∀ {α : Type} {item : Item α} {header bytes : List UInt8} {n : Nat}
    {items : List α}, ArrayHeader header n → Reads (readItems item.read n) bytes items →
      Reads (library.readExactly n item) (header ++ bytes) items
  /-- A bare string names a kind that nothing goes with. -/
  readBare : ∀ {κ α : Type} {ofName? : String → Option κ} {ofPlace? : Nat → Option κ}
    {content : κ → Content α} {header : List UInt8} {name : String} {kind : κ} {a : α},
    StringHeader header name.utf8ByteSize → ofName? name = some kind →
      content kind = .nothing a →
        Reads (library.readKind ofName? ofPlace? content) (header ++ utf8 name) a
  /-- A map of one entry leads from the name of a kind to the item that goes with it. -/
  readEntry : ∀ {κ α : Type} {ofName? : String → Option κ} {ofPlace? : Nat → Option κ}
    {content : κ → Content α} {header bytes : List UInt8} {name : String} {kind : κ}
    {read : Reader α} {a : α},
    StringHeader header name.utf8ByteSize → ofName? name = some kind →
      content kind = .item read → Reads read bytes a →
        Reads (library.readKind ofName? ofPlace? content)
          (0x81 :: header ++ utf8 name ++ bytes) a
  /-- The bytes after the item are left alone. -/
  run : ∀ {α : Type} (reader : Reader α) (bytes : List UInt8),
    library.run reader bytes = (reader bytes).map Prod.fst

end TransformStack.MessagePack
