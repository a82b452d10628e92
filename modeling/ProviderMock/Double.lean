/-!
# Doubles

Numbers in the binary interchange format of 64 bits, as plain data: a sign, eleven bits of exponent
and fifty-two bits of fraction.

* **classes** — `Double.isFinite`, `Double.isNaN`, `Double.isZero`.
* **equality** — `Double.same` is the comparison of numbers: it identifies the two zeros and keeps
  not-a-number apart from everything, itself included.
* **magnitude** — a finite double stands for `significand * 2 ^ scale` with its sign.
-/

namespace ProviderMock

/-- A number in the binary format of 64 bits. -/
structure Double where
  /-- sign, exponent and fraction, from the highest bit down -/
  bits : UInt64
  deriving DecidableEq, Repr

namespace Double

/-! ## Powers -/

/-- `2 ^ k`, or one where `k` is negative: a power of any exponent is `twoPow k / twoPow (-k)`. -/
def twoPow (k : Int) : Nat := Nat.pow 2 k.toNat

/-- `10 ^ k`, or one where `k` is negative: a power of any exponent is `tenPow k / tenPow (-k)`. -/
def tenPow (k : Int) : Nat := Nat.pow 10 k.toNat

/-! ## Parts and classes -/

/-- Whether the sign bit is set. -/
def isNegative (x : Double) : Bool := 0x8000000000000000 ≤ x.bits.toNat

/-- The bits below the sign. -/
def magnitude (x : Double) : Nat := x.bits.toNat % 0x8000000000000000

/-- The biased exponent. -/
def exponent (x : Double) : Nat := x.magnitude / 0x10000000000000

/-- The bits of the fraction. -/
def fraction (x : Double) : Nat := x.magnitude % 0x10000000000000

/-- Whether a double stands for a number. -/
def isFinite (x : Double) : Bool := x.magnitude < 0x7FF0000000000000

/-- Whether a double is not a number. -/
def isNaN (x : Double) : Bool := 0x7FF0000000000000 < x.magnitude

/-- Whether a double is one of the two zeros. -/
def isZero (x : Double) : Bool := x.magnitude = 0

/-- The whole number whose multiple by `2 ^ scale` a finite double is, up to its sign. -/
def significand (x : Double) : Nat :=
  if x.exponent = 0 then x.fraction else x.fraction + 0x10000000000000

/-- The power of two that the significand counts. -/
def scale (x : Double) : Int := max x.exponent 1 - 1075

/-! ## Equality -/

/-- Equality of numbers: zeros are equal whatever their sign, and not-a-number equals nothing. -/
def same (x y : Double) : Bool :=
  !x.isNaN && !y.isNaN && (x.bits == y.bits || (x.isZero && y.isZero))

theorem same_self_iff (x : Double) : x.same x = true ↔ x.isNaN = false := by
  simp [same]

theorem same_comm (x y : Double) : x.same y = y.same x := by
  rw [Bool.eq_iff_iff]
  simp only [same, Bool.and_eq_true, Bool.or_eq_true, beq_iff_eq]
  constructor <;> rintro ⟨⟨hx, hy⟩, h | ⟨h, h'⟩⟩ <;> simp_all

theorem same_trans {x y z : Double} (hxy : x.same y = true) (hyz : y.same z = true) :
    x.same z = true := by
  simp only [same, Bool.and_eq_true, Bool.or_eq_true, beq_iff_eq] at hxy hyz ⊢
  obtain ⟨⟨hx, -⟩, hxy⟩ := hxy
  obtain ⟨⟨-, hz⟩, hyz⟩ := hyz
  refine ⟨⟨hx, hz⟩, ?_⟩
  -- a zero has the bits of no other number
  have hzero : ∀ {a b : Double}, a.bits = b.bits → a.isZero = b.isZero :=
    fun h => congrArg isZero (congrArg mk h)
  rcases hxy with hxy | hxy
  · rcases hyz with hyz | hyz
    · exact .inl (hxy.trans hyz)
    · exact .inr ⟨(hzero hxy).trans hyz.1, hyz.2⟩
  · rcases hyz with hyz | hyz
    · exact .inr ⟨hxy.1, (hzero hyz).symm.trans hxy.2⟩
    · exact .inr ⟨hxy.1, hyz.2⟩

/-! ## Construction -/

/-- The double with a sign and the bits below it. -/
def ofMagnitude (negative : Bool) (magnitude : Nat) : Double :=
  ⟨UInt64.ofNat (magnitude + if negative then 0x8000000000000000 else 0)⟩

/-- A zero. -/
def zero (negative : Bool) : Double := ofMagnitude negative 0

/-- An infinity. -/
def infinity (negative : Bool) : Double := ofMagnitude negative 0x7FF0000000000000

/-- Not a number. -/
def nan : Double := ofMagnitude false 0x7FF8000000000000

end Double

end ProviderMock
