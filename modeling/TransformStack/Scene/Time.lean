import TransformStack.Number.Binary

/-!
# Times at which attributes are read and written

An attribute has one value that does not vary with time, and any number of samples. Samples are
kept under the place of their time in numeric order, so the two zeros are one time and a time that
is not a number has no place.
-/

namespace TransformStack

/-- The time of a read or a write: the value that does not vary, or a sample. -/
inductive TimeCode where
  | default
  | sample (time : Binary64)
  deriving DecidableEq, Inhabited

/-- Whether the time addresses the value that does not vary. -/
def TimeCode.isDefault : TimeCode → Bool
  | default => true
  | sample _ => false

/-- The time of the sample, if it is one. -/
def TimeCode.time? : TimeCode → Option Binary64
  | default => none
  | sample time => some time

/-- The place of a sample's time in numeric order. -/
abbrev SampleTime := Int

/-- The place of a number in time; what is not a number has none. -/
def SampleTime.of? (time : Binary64) : Option SampleTime := time.rank?

/-- The time at a place. -/
def SampleTime.time (place : SampleTime) : Binary64 := Binary64.ofRank place

end TransformStack
