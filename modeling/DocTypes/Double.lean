/-!
# Binary floating-point numbers

A double is kept as its 64 bits: a sign, eleven bits of exponent and 52 bits of fraction. All that is
needed of it is equality as numbers: a NaN equals nothing, and the two zeros equal each other.
-/

namespace DocTypes

/-- The bits of a binary floating-point number. -/
structure Double where
  bits : UInt64
deriving DecidableEq, Repr

namespace Double

/-- The bits other than the sign. -/
def magnitude (x : Double) : UInt64 :=
  x.bits &&& 0x7fffffffffffffff

/-- The exponent is all ones and the fraction is not zero. -/
def isNaN (x : Double) : Bool :=
  0x7ff0000000000000 < x.magnitude

/-- The one NaN that stands for all. -/
def nan : Double := ⟨0x7ff8000000000000⟩

/-- The number with the given bits. -/
def ofBits (bits : UInt64) : Double :=
  if (Double.mk bits).isNaN then nan else ⟨bits⟩

/-- Equality as numbers. -/
def equal (x y : Double) : Bool :=
  !x.isNaN && !y.isNaN && (x.bits == y.bits || (x.magnitude == 0 && y.magnitude == 0))

theorem equal_comm (x y : Double) : x.equal y = y.equal x := by
  have bits : (x.bits == y.bits) = (y.bits == x.bits) := Bool.beq_comm
  simp only [equal, bits]
  cases x.isNaN <;> cases y.isNaN <;> simp [Bool.and_comm]

theorem equal_trans {x y z : Double} (first : x.equal y = true) (second : y.equal z = true) :
    x.equal z = true := by
  simp only [equal, magnitude, Bool.and_eq_true, Bool.or_eq_true, beq_iff_eq] at first second ⊢
  obtain ⟨⟨number, -⟩, same⟩ := first
  obtain ⟨⟨-, number'⟩, same'⟩ := second
  refine ⟨⟨number, number'⟩, ?_⟩
  rcases same with same | ⟨zero, zero'⟩
  · rw [same]
    exact same'
  · rcases same' with same' | ⟨-, zero''⟩
    · exact .inr ⟨zero, same' ▸ zero'⟩
    · exact .inr ⟨zero, zero''⟩

example : nan.equal nan = false := by decide
example : Double.equal ⟨0⟩ ⟨0x8000000000000000⟩ = true := by decide

end Double

end DocTypes
