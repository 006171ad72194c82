import Mathlib

/-! IEEE 754 single-precision values by their bit patterns. Only the orders are
needed: the partial numeric order and the total order over every pattern. -/

namespace Retonr

structure Binary32 where
  bits : UInt32

namespace Binary32

def negative (value : Binary32) : Bool := 2 ^ 31 ≤ value.bits.toNat

def magnitude (value : Binary32) : Nat := value.bits.toNat % 2 ^ 31

def exponent (value : Binary32) : Nat := value.magnitude / 2 ^ 23

def isFinite (value : Binary32) : Bool := value.exponent != 255

def isNan (value : Binary32) : Bool := value.exponent == 255 && value.magnitude % 2 ^ 23 != 0

/-- The two zeros share one rank; every other pattern keeps its own. -/
def rank (value : Binary32) : Int := if value.negative then -value.magnitude else value.magnitude

def le (left right : Binary32) : Bool := !left.isNan && !right.isNan && decide (left.rank ≤ right.rank)

def within (low high value : Binary32) : Bool := low.le value && value.le high

/-- Sign first, then magnitude, with negative magnitudes reversed. -/
def totalRank (value : Binary32) : Int := if value.negative then -value.magnitude - 1 else value.magnitude

def totalCmp (left right : Binary32) : Ordering := compare left.totalRank right.totalRank

def zero : Binary32 := ⟨0⟩

def one : Binary32 := ⟨0x3F800000⟩

def two : Binary32 := ⟨0x40000000⟩

end Binary32

end Retonr
