import TransformStack.Op.Reading
import TransformStack.Scene.Time
import TransformStack.Value.MessagePack.Encoding

/-!
# Attributes

An attribute declares a type, can be locked against editing, and holds a value that does not vary
and samples over time. The sample in force at a time is the first row of a query, which orders the
samples by two keys. What a store finds where a type or a value should be may be unreadable; then
reading fails, and only then.
-/

namespace TransformStack

/-- The type that an attribute declares: a type, or a name that is none. -/
inductive DeclaredType where
  | known (type : ValueType)
  | unknown (name : String)
  deriving DecidableEq

/-- The type declared under a name. -/
def DeclaredType.ofName (name : String) : DeclaredType :=
  match ValueType.ofName? name with
  | some type => known type
  | none => unknown name

/-- The declared type, if it is one. -/
def DeclaredType.read : DeclaredType → Except StoreError ValueType
  | known type => .ok type
  | unknown name => .error (.data (.unknownType name))

/-- What is stored where a value should be: a value, or bytes that are none. -/
inductive Cell where
  | value (value : Value)
  | unreadable
  deriving DecidableEq

/-- What bytes hold, as a library for MessagePack reads them. -/
def Cell.ofBytes (library : MessagePack.Library) (bytes : List UInt8) : Cell :=
  match Value.read? library bytes with
  | some v => value v
  | none => unreadable

/-- The stored value, if it is one. -/
def Cell.read : Cell → Except StoreError Value
  | value v => .ok v
  | unreadable => .error .unreadable

/-- The stored value of a place that may hold nothing. -/
def Cell.read? : Option Cell → Except StoreError (Option Value)
  | none => .ok none
  | some cell => some <$> cell.read

/-- A sample as a query finds it. -/
abbrev SampleRow := SampleTime × Cell

namespace SampleRow

/-- Whether the sample is not after a time. There is no answer if the time has no place. -/
def notAfter? (bound? : Option SampleTime) (row : SampleRow) : Option Bool :=
  bound?.map fun bound => row.1 ≤ bound

/-- The place of the sample's time, or the place of the opposite number if the sample is not after
the time. -/
def turned (bound? : Option SampleTime) (row : SampleRow) : SampleTime :=
  match row.notAfter? bound? with
  | some true => -row.1
  | _ => row.1

/-- How rows are ordered for a time: whether they are not after it is the first key, in descending
order and with no answer below both, and their turned place is the second key. -/
def order (bound? : Option SampleTime) (row other : SampleRow) : Ordering :=
  (compare (other.notAfter? bound?) (row.notAfter? bound?)).then
    (compare (row.turned bound?) (other.turned bound?))

/-- The first of the rows when they are ordered for a time. -/
def first? (bound? : Option SampleTime) (rows : List SampleRow) : Option SampleRow :=
  (rows.mergeSort fun row other => (order bound? row other).isLE).head?

end SampleRow

/-- What an attribute holds at each of its sample times. -/
abbrev Samples := Std.ExtTreeMap SampleTime Cell compare

/-- An attribute of an entity. -/
structure Attribute where
  declared : DeclaredType
  locked : Bool := false
  /-- The value that does not vary with time. -/
  fixed : Option Cell := none
  samples : Samples := ∅

namespace Attribute

/-- A new attribute of a type: unlocked, and without any value. -/
def ofType (type : ValueType) : Attribute := { declared := .known type }

/-- What is authored exactly at a time. -/
def cell? (a : Attribute) : TimeCode → Option Cell
  | .default => a.fixed
  | .sample time => (SampleTime.of? time).bind fun place => a.samples[place]?

/-- Author something, or nothing, at a time. A time without a place holds nothing. -/
def setCell (a : Attribute) (cell : Option Cell) : TimeCode → Attribute
  | .default => { a with fixed := cell }
  | .sample time =>
    match SampleTime.of? time with
    | some place => { a with samples := a.samples.alter place fun _ => cell }
    | none => a

/-- The sample in force at a time. -/
def held? (a : Attribute) (time : Binary64) : Option Cell :=
  let rows : List SampleRow := a.samples.toList
  (SampleRow.first? (SampleTime.of? time) rows).map (·.2)

/-- What a reader sees at a time: samples hide the value that does not vary. -/
def resolved? (a : Attribute) : TimeCode → Option Cell
  | .default => a.fixed
  | .sample time => (a.held? time).or a.fixed

end Attribute

end TransformStack
