/-!
# Doubles from decimals

A decimal is read in two roundings: its leading digits, as many as fit in 64 bits, to a double,
and then that double times or over a power of ten.  The result can be off by one place from
the nearest double.
-/

namespace PackageHandling
namespace Decimal

/-- The most a run of leading digits may count. -/
def digitsLimit : Nat := 0xFFFFFFFFFFFFFFFF

/-- One more digit, if the count still fits. -/
def pushDigit (significand digit : Nat) : Option Nat :=
  let next := significand * 10 + digit
  if next ≤ digitsLimit then some next else none

def powerOfTen (n : Nat) : Float := Float.ofScientific 1 false n

/-- Division by ten to a power of any size, in strides of 308. -/
def divideByPower (f : Float) (n : Nat) : Float :=
  if n ≤ 308 then f / powerOfTen n
  else if f == 0 then f
  else divideByPower (f / powerOfTen 308) (n - 308)
termination_by n

/-- The bits of `significand * 10 ^ exponent`; nothing if that is beyond the doubles. -/
def scaled? (negative : Bool) (significand : Nat) (exponent : Int) : Option UInt64 :=
  let f := significand.toUInt64.toFloat
  let signed (f : Float) := (if negative then -f else f).toBits
  match exponent with
  | .ofNat n =>
    if n ≤ 308 then
      let g := f * powerOfTen n
      if g.isInf then none else some (signed g)
    else if f == 0 then some (signed f) else none
  | .negSucc n => some (signed (divideByPower f (n + 1)))

end Decimal
end PackageHandling
