/-! Floating-point numbers of 64 bits, by their bits. -/
namespace Lifecycle

structure Binary64 where
  bits : UInt64
  deriving DecidableEq

namespace Binary64

def isNegative (x : Binary64) : Bool :=
  x.bits >>> 63 = 1

def exponentBits (x : Binary64) : Nat :=
  (x.bits >>> 52 &&& 0x7ff).toNat

def fractionBits (x : Binary64) : Nat :=
  (x.bits &&& 0xfffffffffffff).toNat

def isFinite (x : Binary64) : Bool :=
  x.exponentBits ≠ 2047

def isNaN (x : Binary64) : Bool :=
  x.exponentBits = 2047 && x.fractionBits ≠ 0

def isZero (x : Binary64) : Bool :=
  x.exponentBits = 0 && x.fractionBits = 0

/-- A finite number is `significand * 2 ^ scale` up to its sign. All but the smallest have a leading
bit that is not written. -/
def significand (x : Binary64) : Nat :=
  if x.exponentBits = 0 then x.fractionBits else 0x10000000000000 + x.fractionBits

def scale (x : Binary64) : Int :=
  (max x.exponentBits 1 : Nat) - 1075

/-- Equality of numbers: nothing equals a NaN, and the two zeros are equal. -/
def same (x y : Binary64) : Bool :=
  !x.isNaN && !y.isNaN && (x.bits == y.bits || (x.isZero && y.isZero))

def ofParts (negative : Bool) (exponentBits fractionBits : Nat) : Binary64 :=
  ⟨UInt64.ofNat
    ((if negative then 0x8000000000000000 else 0) + exponentBits * 0x10000000000000
      + fractionBits)⟩

end Binary64

end Lifecycle
