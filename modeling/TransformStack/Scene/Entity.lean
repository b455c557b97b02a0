import Std.Data.ExtTreeMap.Lemmas
import TransformStack.Text.Hex

/-!
# Entities by their identifiers

An entity is known by sixteen bytes, read as one number of 128 bits.
-/

namespace TransformStack

/-- The identifier of an entity. -/
structure EntityId where
  code : BitVec 128
  deriving DecidableEq, Inhabited

namespace EntityId

instance : Ord EntityId := ⟨fun a b => compare a.code b.code⟩

instance : Std.TransOrd EntityId where
  eq_swap {a b} := Std.OrientedOrd.eq_swap (a := a.code) (b := b.code)
  isLE_trans {a b c} := Std.TransOrd.isLE_trans (a := a.code) (b := b.code) (c := c.code)

instance : Std.LawfulEqOrd EntityId where
  compare_self {a} := Std.ReflOrd.compare_self (a := a.code)
  eq_of_compare {a b} h :=
    congrArg EntityId.mk (Std.LawfulEqOrd.eq_of_compare (a := a.code) (b := b.code) h)

/-- The identifier of sixteen bytes, the highest first. -/
def ofBytes (bytes : List UInt8) : EntityId :=
  ⟨BitVec.ofNat 128 (bytes.foldl (fun n byte => n * 256 + byte.toNat) 0)⟩

/-- The bytes of the identifier, the highest first. -/
def toBytes (id : EntityId) : List UInt8 :=
  (List.range 16).map fun i => UInt8.ofNat (id.code.toNat / Nat.pow 256 (15 - i))

/-- The text of an identifier: its hexadecimal digits in groups of 8, 4, 4, 4 and 12. -/
def text (id : EntityId) : String :=
  let digits := Text.hexPadded 32 id.code.toNat
  let group (first size : Nat) : String := String.ofList ((digits.drop first).take size)
  "-".intercalate [group 0 8, group 8 4, group 12 4, group 16 4, group 20 12]

/-- The identifier cut down to the first group of its text. -/
def shortText (id : EntityId) : String :=
  "EntityId(" ++ String.ofList ((Text.hexPadded 32 id.code.toNat).take 8) ++ ")"

end EntityId

end TransformStack
