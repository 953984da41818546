/-!
# Floating-point numbers

Floating-point values are kept as their IEEE 754 bit patterns. Two of them compare as numbers do: no
NaN equals anything, and the two zeros are equal to each other.
-/

namespace TypeDictionary

/-- A number of format binary32. -/
structure Binary32 where
  bits : UInt32
deriving DecidableEq, Repr

namespace Binary32

def magnitude (x : Binary32) : UInt32 := x.bits &&& 0x7FFFFFFF

def isNaN (x : Binary32) : Bool := 0x7F800000 < x.magnitude

def isZero (x : Binary32) : Bool := x.magnitude = 0

/-- Equality of the numbers, not of the bits. -/
def equals (x y : Binary32) : Bool :=
  !x.isNaN && !y.isNaN && (x.bits == y.bits || (x.isZero && y.isZero))

def zero : Binary32 := ⟨0⟩

end Binary32

/-- A number of format binary64. -/
structure Binary64 where
  bits : UInt64
deriving DecidableEq, Repr

namespace Binary64

def magnitude (x : Binary64) : UInt64 := x.bits &&& 0x7FFFFFFFFFFFFFFF

def isNaN (x : Binary64) : Bool := 0x7FF0000000000000 < x.magnitude

def isZero (x : Binary64) : Bool := x.magnitude = 0

/-- Equality of the numbers, not of the bits. -/
def equals (x y : Binary64) : Bool :=
  !x.isNaN && !y.isNaN && (x.bits == y.bits || (x.isZero && y.isZero))

def zero : Binary64 := ⟨0⟩

end Binary64

end TypeDictionary
