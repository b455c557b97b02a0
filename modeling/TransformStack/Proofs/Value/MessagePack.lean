import Mathlib.Algebra.Group.Nat.Defs
import TransformStack.Value.Equality
import TransformStack.Value.MessagePack.Codec

/-!
# Written values are read back

What a library writes of a value it reads as that value, whatever bytes follow, though readers
accept much that is never written. So values with the same bytes are the same. Only what the format
says of numbers, strings, arrays and kinds is relied on, which is nothing for a length that no
header can hold. One library that can be relied on is the one the program runs with.
-/

namespace TransformStack

/-- Every string and the list of tokens have lengths for which there is a header. -/
def Value.HasHeaders : Value → Prop
  | .tokens names => names.length < 2 ^ 32 ∧ ∀ name ∈ names, name.utf8ByteSize < 2 ^ 32
  | _ => True

namespace MessagePack

variable {α β : Type}

/-! ## Readers on bytes -/

namespace Reads

variable {reader : Reader α} {next : α → Reader β} {bytes bytes' : List UInt8} {a : α} {b : β}

/-- Reading nothing takes no bytes. -/
theorem pure (a : α) : Reads (Pure.pure a) [] a := fun _ => rfl

/-- Two readers one after the other take the bytes of both. -/
theorem bind (h : Reads reader bytes a) (hnext : Reads (next a) bytes' b) :
    Reads (reader >>= next) (bytes ++ bytes') b := by
  intro rest
  rw [List.append_assoc]
  show (reader (bytes ++ (bytes' ++ rest))).bind _ = _
  rw [h]
  exact hnext rest

/-- What comes of the last item needs no more bytes. -/
theorem bind_pure (h : Reads reader bytes a) (hnext : next a = Pure.pure b) :
    Reads (reader >>= next) bytes b := by
  have hread := h.bind (hnext ▸ Reads.pure b)
  rwa [List.append_nil] at hread

/-- A reader may go over what it has read. -/
theorem map (f : α → β) (h : Reads reader bytes a) : Reads (f <$> reader) bytes (f a) := by
  intro rest
  show (reader (bytes ++ rest)).bind _ = _
  rw [h]
  rfl

end Reads

/-! ## Headers -/

/-- The shortest header of a string is one of its headers. -/
theorem stringHeader_opens {n : Nat} (h : n < 2 ^ 32) : StringHeader (stringHeader n) n := by
  unfold stringHeader
  split
  · next hn => exact .fixed hn
  · split
    · next hn => exact .byte hn
    · split
      · next hn => exact .twoBytes hn
      · exact .fourBytes h

/-- The shortest header of an array is one of its headers. -/
theorem arrayHeader_opens {n : Nat} (h : n < 2 ^ 32) : ArrayHeader (arrayHeader n) n := by
  unfold arrayHeader
  split
  · next hn => exact .fixed hn
  · split
    · next hn => exact .twoBytes hn
    · exact .fourBytes h

/-! ## Items that are read back -/

/-- What is written is read as the item it was written for, whatever follows it. -/
def ReadBack (written : Written) (reader : Reader α) (a : α) : Prop :=
  ∃ bytes, written = some bytes ∧ Reads reader bytes a

namespace ReadBack

variable {written : Written} {reader : Reader α} {a : α}

/-- What is read back may be gone over. -/
theorem map (f : α → β) : ReadBack written reader a → ReadBack written (f <$> reader) (f a)
  | ⟨bytes, hwritten, hread⟩ => ⟨bytes, hwritten, hread.map f⟩

/-- What is read back may be taken apart and put together again. -/
theorem bind_pure {next : α → Reader β} {b : β} (hnext : next a = Pure.pure b) :
    ReadBack written reader a → ReadBack written (reader >>= next) b
  | ⟨bytes, hwritten, hread⟩ => ⟨bytes, hwritten, hread.bind_pure hnext⟩

/-- If every item is read back, so are all of them one after the other. -/
theorem items {item : α → Written} {items : List α} (h : ∀ a ∈ items, ReadBack (item a) reader a) :
    ∃ written, items.mapM item = some written ∧
      Reads (readItems reader items.length) written.flatten items := by
  induction items with
  | nil => exact ⟨[], rfl, .pure []⟩
  | cons a items ih =>
    obtain ⟨⟨bytes, hbytes, hfirst⟩, hothers⟩ := List.forall_mem_cons.1 h
    obtain ⟨written, hwritten, hread⟩ := ih hothers
    refine ⟨bytes :: written, ?_, hfirst.bind (hread.bind_pure rfl)⟩
    rw [List.mapM_cons, hbytes, hwritten]
    rfl

end ReadBack

namespace Library.Conforms

variable {library : Library} (hlibrary : library.Conforms)

include hlibrary

/-- A number of 32 bits keeps all its bits. -/
theorem readBack_single (x : Binary32) :
    ReadBack (library.writeSingle x) library.readSingle x :=
  ⟨_, hlibrary.writeSingle x, hlibrary.readSingle x⟩

/-- A number of 64 bits keeps all its bits. -/
theorem readBack_double (x : Binary64) :
    ReadBack (library.writeDouble x) library.readDouble x :=
  ⟨_, hlibrary.writeDouble x, hlibrary.readDouble x⟩

/-- A string is read back at every width of its header. -/
theorem readBack_string {s : String} (h : s.utf8ByteSize < 2 ^ 32) :
    ReadBack (library.writeString s) library.readString s :=
  ⟨_, hlibrary.writeString s h, hlibrary.readString (stringHeader_opens h)⟩

/-- An array is read back if its items are. -/
theorem readBack_array {reader : Item α} {item : α → Written} {items : List α}
    (hlength : items.length < 2 ^ 32) (h : ∀ a ∈ items, ReadBack (item a) reader.read a) :
    ReadBack (library.writeArray item items) (library.readArray reader) items := by
  obtain ⟨written, hwritten, hread⟩ := ReadBack.items h
  refine ⟨_, ?_, hlibrary.readArray (arrayHeader_opens hlength) hread⟩
  rw [hlibrary.writeArray item items hlength, hwritten]
  rfl

/-- An array is read back as one of so many items as it has. -/
theorem readBack_exactly {reader : Item α} {item : α → Written} {items : List α}
    (hlength : items.length < 2 ^ 32) (h : ∀ a ∈ items, ReadBack (item a) reader.read a) :
    ReadBack (library.writeArray item items) (library.readExactly items.length reader) items := by
  obtain ⟨written, hwritten, hread⟩ := ReadBack.items h
  refine ⟨_, ?_, hlibrary.readExactly (arrayHeader_opens hlength) hread⟩
  rw [hlibrary.writeArray item items hlength, hwritten]
  rfl

/-- A vector of three is read back if its components are. -/
theorem readBack_vec3 (reader : Item α) {item : α → Written}
    (h : ∀ a, ReadBack (item a) reader.read a) (v : Vec3 α) :
    ReadBack (library.writeArray item v.toList) (readVec3 library reader) v :=
  have hlength : v.toList.length < 2 ^ 32 := (by decide : 3 < 2 ^ 32)
  (hlibrary.readBack_exactly hlength fun a _ => h a).bind_pure rfl

/-- A vector of four is read back if its components are. -/
theorem readBack_vec4 (reader : Item α) {item : α → Written}
    (h : ∀ a, ReadBack (item a) reader.read a) (v : Vec4 α) :
    ReadBack (library.writeArray item v.toList) (readVec4 library reader) v :=
  have hlength : v.toList.length < 2 ^ 32 := (by decide : 4 < 2 ^ 32)
  (hlibrary.readBack_exactly hlength fun a _ => h a).bind_pure rfl

/-! ## Values that are read back -/

/-- A value is read back if what goes with its kind is. -/
theorem readBack_entry {kind : Kind} {content : Written} {read : Reader Value} {v : Value}
    (hkind : kind.content library = .item read) (h : ReadBack content read v) :
    ReadBack (library.writeEntry kind.name content) (Value.reader library) v := by
  obtain ⟨bytes, rfl, hread⟩ := h
  have hname : kind.name.utf8ByteSize < 2 ^ 32 := by cases kind <;> decide
  have hknown : Kind.ofName? kind.name = some kind := by cases kind <;> rfl
  refine ⟨_, ?_, hlibrary.readEntry (stringHeader_opens hname) hknown hkind hread⟩
  rw [hlibrary.writeEntry, hlibrary.writeString _ hname]
  simp

/-- Every value whose lengths have headers is read back. -/
theorem readBack_value {v : Value} (h : v.HasHeaders) :
    ReadBack (v.write library) (Value.reader library) v := by
  cases v with
  | empty =>
    have hname : Kind.empty.name.utf8ByteSize < 2 ^ 32 := by decide
    refine ⟨_, ?_, hlibrary.readBare (stringHeader_opens hname) (by rfl) (by rfl)⟩
    rw [Value.write, hlibrary.writeBare, hlibrary.writeString _ hname]
  | float x => exact hlibrary.readBack_entry rfl ((hlibrary.readBack_single x).map Value.float)
  | double x => exact hlibrary.readBack_entry rfl ((hlibrary.readBack_double x).map Value.double)
  | float3 v =>
    have hvec := hlibrary.readBack_vec3 (.single library) hlibrary.readBack_single v
    exact hlibrary.readBack_entry rfl (hvec.map Value.float3)
  | double3 v =>
    have hvec := hlibrary.readBack_vec3 (.double library) hlibrary.readBack_double v
    exact hlibrary.readBack_entry rfl (hvec.map Value.double3)
  | quatf q =>
    have hvec := hlibrary.readBack_vec4 (.single library) hlibrary.readBack_single q
    exact hlibrary.readBack_entry rfl (hvec.map Value.quatf)
  | matrix4d m =>
    have hrow := hlibrary.readBack_vec4 (.double library) hlibrary.readBack_double
    have hrows := hlibrary.readBack_vec4 (.row library) hrow m
    exact hlibrary.readBack_entry rfl (hrows.map Value.matrix4d)
  | tokens names =>
    obtain ⟨hlength, hnames⟩ := h
    have hitems : ∀ name ∈ names,
        ReadBack (library.writeString name) (Item.string library).read name :=
      fun name hname => hlibrary.readBack_string (hnames name hname)
    exact hlibrary.readBack_entry rfl ((hlibrary.readBack_array hlength hitems).map Value.tokens)

/-- The bytes of a value give the value, whatever follows them. -/
theorem read?_of_write {v : Value} (h : v.HasHeaders) :
    ∃ bytes, v.write library = some bytes ∧
      ∀ rest, Value.read? library (bytes ++ rest) = some v := by
  obtain ⟨bytes, hwritten, hread⟩ := hlibrary.readBack_value h
  refine ⟨bytes, hwritten, fun rest => ?_⟩
  rw [Value.read?, hlibrary.run, hread rest]
  rfl

end Library.Conforms

/-- One byte is read. -/
theorem reads_readByte (byte : UInt8) : Reads readByte [byte] byte := fun _ => rfl

/-- As many bytes are read as there are. -/
theorem reads_readBytes {n : Nat} {bytes : List UInt8} (h : bytes.length = n) :
    Reads (readBytes n) bytes bytes := by
  intro rest
  subst h
  simp [readBytes]

/-- A number takes as many bytes as it is wide. -/
theorem length_bigEndian (width n : Nat) : (bigEndian width n).length = width := by
  induction width generalizing n with
  | zero => rfl
  | succ width ih => simp [bigEndian, ih]

/-- The bytes of a number, taken as digits, are the number up to its width. -/
theorem foldl_bigEndian (width n start : Nat) :
    (bigEndian width n).foldl (fun n byte => n * 256 + byte.toNat) start =
      start * 256 ^ width + n % 256 ^ width := by
  induction width generalizing n with
  | zero => simp [bigEndian, Nat.mod_one]
  | succ width ih =>
    have hbyte : (UInt8.ofNat n).toNat = n % 256 := UInt8.toNat_ofNat'
    have hdigits : n % 256 ^ (width + 1) = n % 256 + 256 * (n / 256 % 256 ^ width) := by
      rw [Nat.pow_succ', Nat.mod_mul]
    rw [bigEndian, List.foldl_append, ih, List.foldl_cons, List.foldl_nil, hbyte, hdigits,
      Nat.pow_succ, Nat.add_mul, Nat.mul_assoc]
    omega

/-- A number is read from its bytes. -/
theorem reads_readNat {width n : Nat} (h : n < 256 ^ width) :
    Reads (readNat width) (bigEndian width n) n := by
  refine (reads_readBytes (length_bigEndian width n)).bind_pure ?_
  rw [foldl_bigEndian, Nat.zero_mul, Nat.zero_add, Nat.mod_eq_of_lt h]

/-- Every header of a string is read as one. -/
theorem StringHeader.reads {header : List UInt8} {n : Nat} (h : StringHeader header n) :
    Reads readHeader header (.text n) := by
  cases h with
  | fixed h =>
    refine (reads_readByte _).bind_pure ?_
    have hbyte : (UInt8.ofNat (0xa0 + n)).toNat = 0xa0 + n := by
      rw [UInt8.toNat_ofNat']; omega
    rw [hbyte, if_neg (by omega), if_neg (by omega), if_neg (by omega), if_pos (by omega),
      Nat.add_sub_cancel_left]
  | byte h => exact (reads_readByte 0xd9).bind ((reads_readNat (by omega)).bind_pure rfl)
  | twoBytes h => exact (reads_readByte 0xda).bind ((reads_readNat (by omega)).bind_pure rfl)
  | fourBytes h => exact (reads_readByte 0xdb).bind ((reads_readNat (by omega)).bind_pure rfl)

/-- Every header of an array is read as one. -/
theorem ArrayHeader.reads {header : List UInt8} {n : Nat} (h : ArrayHeader header n) :
    Reads readHeader header (.array n) := by
  cases h with
  | fixed h =>
    refine (reads_readByte _).bind_pure ?_
    have hbyte : (UInt8.ofNat (0x90 + n)).toNat = 0x90 + n := by
      rw [UInt8.toNat_ofNat']; omega
    rw [hbyte, if_neg (by omega), if_neg (by omega), if_pos (by omega), Nat.add_sub_cancel_left]
  | twoBytes h => exact (reads_readByte 0xdc).bind ((reads_readNat (by omega)).bind_pure rfl)
  | fourBytes h => exact (reads_readByte 0xdd).bind ((reads_readNat (by omega)).bind_pure rfl)

/-- A number of 32 bits is read as it was written. -/
theorem reads_single (x : Binary32) :
    Reads readNumeral (0xca :: bigEndian 4 x.bits.toNat) (.single x) := by
  have hheader : Reads readHeader (0xca :: bigEndian 4 x.bits.toNat) (.number (.single x)) :=
    (reads_readByte 0xca).bind ((reads_readNat x.bits.toNat_lt).bind_pure (by simp))
  exact hheader.bind_pure rfl

/-- A number of 64 bits is read as it was written. -/
theorem reads_double (x : Binary64) :
    Reads readNumeral (0xcb :: bigEndian 8 x.bits.toNat) (.double x) := by
  have hheader : Reads readHeader (0xcb :: bigEndian 8 x.bits.toNat) (.number (.double x)) :=
    (reads_readByte 0xcb).bind ((reads_readNat x.bits.toNat_lt).bind_pure (by simp))
  exact hheader.bind_pure rfl

/-- The bytes of a string are valid text. -/
theorem reads_readText (s : String) : Reads (readText s.utf8ByteSize) (utf8 s) s := by
  have hbytes : Reads (readBytes s.utf8ByteSize) (utf8 s) (utf8 s) := reads_readBytes rfl
  refine hbytes.bind_pure ?_
  have htext : String.fromUTF8? ⟨(utf8 s).toArray⟩ = some s := dif_pos s.isValidUTF8
  rw [htext]
  rfl

section

variable {κ : Type} {ofName? : String → Option κ} {ofPlace? : Nat → Option κ}
  {content : κ → Content α} {header : List UInt8} {name : String} {kind : κ} {a : α}

/-- A kind is read by its name. -/
theorem reads_kind (hname : ofName? name = some kind) :
    Reads (Header.kind ofName? ofPlace? (.text name.utf8ByteSize)) (utf8 name) kind := by
  refine (reads_readText name).bind_pure ?_
  rw [hname]
  rfl

/-- A bare string is read as the kind it names. -/
theorem reads_bare (hheader : StringHeader header name.utf8ByteSize)
    (hname : ofName? name = some kind) (hcontent : content kind = .nothing a) :
    Reads (readKind ofName? ofPlace? content) (header ++ utf8 name) a := by
  refine hheader.reads.bind ((reads_kind hname).bind_pure ?_)
  rw [hcontent]

/-- A map of one entry is read as the kind it names with what goes with it. -/
theorem reads_entry {bytes : List UInt8} {read : Reader α}
    (hheader : StringHeader header name.utf8ByteSize) (hname : ofName? name = some kind)
    (hcontent : content kind = .item read) (hread : Reads read bytes a) :
    Reads (readKind ofName? ofPlace? content) (0x81 :: header ++ utf8 name ++ bytes) a := by
  have hmap : Reads readHeader [0x81] (.map 1) := (reads_readByte 0x81).bind_pure rfl
  rw [List.append_assoc]
  refine hmap.bind (hheader.reads.bind ((reads_kind hname).bind ?_))
  rw [hcontent]
  exact hread

end

/-- The library the program runs with can be relied on. -/
theorem codec_conforms : codec.Conforms where
  writeSingle _ := rfl
  writeDouble _ := rfl
  writeString _ _ := rfl
  writeArray _ _ _ := rfl
  writeBare _ := rfl
  writeEntry _ _ := rfl
  readSingle x := (reads_single x).bind_pure rfl
  readDouble x := (reads_double x).bind_pure rfl
  readString {_ s} hheader := hheader.reads.bind (reads_readText s)
  readArray hheader hitems := hheader.reads.bind hitems
  readExactly hheader hitems := by
    refine hheader.reads.bind ?_
    dsimp only
    rw [if_pos rfl]
    exact hitems
  readBare := reads_bare
  readEntry := reads_entry
  run _ _ := rfl

end MessagePack

end TransformStack
