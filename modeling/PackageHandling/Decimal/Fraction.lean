/-!
# Fractions of a job

Progress is a double, kept by its bits so that signed zeros and NaN stay what they are.
-/

namespace PackageHandling

structure Fraction where
  bits : UInt64
  deriving DecidableEq, Inhabited

namespace Fraction

def zero : Fraction := ⟨0⟩

def half : Fraction := ⟨0x3FE0000000000000⟩

def one : Fraction := ⟨0x3FF0000000000000⟩

def nan : Fraction := ⟨0x7FF8000000000000⟩

def infinity : Fraction := ⟨0x7FF0000000000000⟩

def negInfinity : Fraction := ⟨0xFFF0000000000000⟩

/-- The double nearest to a whole number of 64 bits. -/
def ofInt (n : Int) : Fraction :=
  let magnitude := n.natAbs.toUInt64.toFloat
  ⟨(if n < 0 then -magnitude else magnitude).toBits⟩

/-- The value without its sign, as a whole number that grows with it. -/
def magnitude (f : Fraction) : Nat := f.bits.toNat % 0x8000000000000000

def isNegative (f : Fraction) : Bool := 0x8000000000000000 ≤ f.bits.toNat

def isNaN (f : Fraction) : Bool := 0x7FF0000000000000 < f.magnitude

/-- The bits as sixteen hexadecimal digits; every NaN is `nan`. -/
def hex (f : Fraction) : String :=
  if f.isNaN then "nan"
  else
    String.ofList ((List.range 16).map fun i =>
      Nat.digitChar (f.bits.toNat / Nat.pow 16 (15 - i) % 16))

/-- Between 0 and 1.  NaN and the negative zero stay. -/
def clamp (f : Fraction) : Fraction :=
  if f.isNaN then f
  else if f.isNegative then if f.magnitude = 0 then f else zero
  else if one.magnitude < f.magnitude then one
  else f

/-- An exponent of all ones over a mantissa that is not zero. -/
def NotANumber (f : Fraction) : Prop :=
  (0x7FF0000000000000 < f.bits ∧ f.bits < 0x8000000000000000) ∨ 0xFFF0000000000000 < f.bits

/-- From 0 to 1, the negative zero included. -/
def InUnit (f : Fraction) : Prop :=
  f.bits ≤ 0x3FF0000000000000 ∨ f.bits = 0x8000000000000000

/-- What holding a double between 0 and 1 makes of it. -/
inductive Clamped (f : Fraction) : Fraction → Prop
  | nan (notANumber : f.NotANumber) : Clamped f f
  | kept (inUnit : f.InUnit) : Clamped f f
  | below (negative : 0x8000000000000000 < f.bits) (atLeast : f.bits ≤ 0xFFF0000000000000) :
    Clamped f ⟨0⟩
  | above (overOne : 0x3FF0000000000000 < f.bits) (atMost : f.bits ≤ 0x7FF0000000000000) :
    Clamped f ⟨0x3FF0000000000000⟩

variable {f g : Fraction}

theorem isNaN_iff : f.isNaN = true ↔ f.NotANumber := by
  have hsize := f.bits.toNat_lt
  rw [isNaN, decide_eq_true_iff, magnitude]
  simp only [NotANumber, UInt64.lt_iff_toNat_lt, UInt64.reduceToNat]
  omega

theorem isNegative_iff : f.isNegative = true ↔ 0x8000000000000000 ≤ f.bits.toNat := by
  rw [isNegative, decide_eq_true_iff]

theorem clamped_clamp (f : Fraction) : f.Clamped f.clamp := by
  have hsize := f.bits.toNat_lt
  have hmagnitude : f.magnitude = f.bits.toNat % 0x8000000000000000 := rfl
  have hone : one.magnitude = 0x3FF0000000000000 := rfl
  unfold clamp
  split
  next hnan => exact .nan (isNaN_iff.1 hnan)
  next hnan =>
    simp only [isNaN_iff, NotANumber, UInt64.lt_iff_toNat_lt, UInt64.reduceToNat] at hnan
    -- What is no NaN stands on one side of the sign, in one of two ranges of the bits.
    split
    next hnegative =>
      rw [isNegative_iff] at hnegative
      split
      next hzero =>
        have hbits : f.bits.toNat = 0x8000000000000000 := by omega
        exact .kept (.inr (UInt64.toNat_inj.1 hbits))
      next hzero =>
        have hbelow : 0x8000000000000000 < f.bits.toNat := by omega
        have hatLeast : f.bits.toNat ≤ 0xFFF0000000000000 := by omega
        exact .below (UInt64.lt_iff_toNat_lt.2 hbelow) (UInt64.le_iff_toNat_le.2 hatLeast)
    next hpositive =>
      rw [isNegative_iff] at hpositive
      split
      next hover =>
        have hatMost : f.bits.toNat ≤ 0x7FF0000000000000 := by omega
        have habove : 0x3FF0000000000000 < f.bits.toNat := by omega
        exact .above (UInt64.lt_iff_toNat_lt.2 habove) (UInt64.le_iff_toNat_le.2 hatMost)
      next hover =>
        have hupTo : f.bits.toNat ≤ 0x3FF0000000000000 := by omega
        exact .kept (.inl (UInt64.le_iff_toNat_le.2 hupTo))

example : infinity.clamp = one ∧ negInfinity.clamp = zero ∧ nan.clamp = nan := by decide

end Fraction
end PackageHandling
