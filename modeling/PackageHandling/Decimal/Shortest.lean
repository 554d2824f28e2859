/-!
# The shortest decimal of a double

`shortest` gives the fewest decimal digits that read back as the same double, and among those
the nearest to it; `Layout.render` places the point or an exponent.
-/

namespace PackageHandling
namespace Decimal

/-- A finite positive double is `mantissa * 2 ^ exponent`. -/
structure Parts where
  mantissa : Nat
  exponent : Int

/-- The bit of the mantissa that is not written. -/
def hidden : Nat := 0x10000000000000

def partsOf (bits : UInt64) : Parts :=
  let fraction : Nat := bits.toNat % hidden
  let field : Nat := bits.toNat / hidden % 0x800
  if field = 0 then ⟨fraction, -1074⟩ else ⟨fraction + hidden, field - 1075⟩

/-- Twice the bounds of the reals that round to the double, and twice the double itself, as
numerators over one denominator. -/
structure Interval where
  low : Nat
  mid : Nat
  high : Nat
  den : Nat
  closed : Bool

def intervalOf (p : Parts) : Interval :=
  let atBinade := p.mantissa = hidden ∧ p.exponent > -1074
  let scale (n : Nat) : Nat := n * Nat.pow 2 p.exponent.toNat
  let den := 4 * Nat.pow 2 (-p.exponent).toNat
  ⟨scale (4 * p.mantissa - if atBinade then 1 else 2), scale (4 * p.mantissa),
    scale (4 * p.mantissa + 2), den, p.mantissa % 2 = 0⟩

/-- `digits * 10 ^ exponent` -/
structure Expansion where
  digits : Nat
  exponent : Int
  deriving DecidableEq, Inhabited

namespace Interval

/-- Whether `n * 10 ^ e` rounds to the double. -/
def holds (i : Interval) (n : Nat) (e : Int) : Bool :=
  let num := n * Nat.pow 10 e.toNat * i.den
  let unit := Nat.pow 10 (-e).toNat
  if i.closed then i.low * unit ≤ num && num ≤ i.high * unit
  else i.low * unit < num && num < i.high * unit

/-- The better of the two neighbours of the double among the multiples of `10 ^ e`; of two
equally near ones the even one. -/
def nearest? (i : Interval) (e : Int) : Option Expansion :=
  let num := i.mid * Nat.pow 10 (-e).toNat
  let unit := i.den * Nat.pow 10 e.toNat
  let below := num / unit
  let twice := 2 * (num % unit)
  let down := i.holds below e && below ≠ 0
  let up := i.holds (below + 1) e
  let preferUp := twice > unit || (twice == unit && below % 2 == 1)
  if down && up then some ⟨if preferUp then below + 1 else below, e⟩
  else if down then some ⟨below, e⟩
  else if up then some ⟨below + 1, e⟩
  else none

end Interval

/-- The decimal exponent of the leading digit, at most one too large. -/
def leading (p : Parts) : Int :=
  ((p.mantissa.log2 + p.exponent) * 30103).fdiv 100000 + 1

/-- Seventeen digits always suffice; the loop starts with one. -/
def search (i : Interval) (top : Int) : Nat → Nat → Expansion
  | 0, _ => default
  | tries + 1, digits =>
    match i.nearest? (top - digits) with
    | some d => d
    | none => search i top tries (digits + 1)

def trimZeros (d : Expansion) : Nat → Expansion
  | 0 => d
  | fuel + 1 =>
    if d.digits % 10 = 0 ∧ d.digits ≠ 0 then trimZeros ⟨d.digits / 10, d.exponent + 1⟩ fuel
    else d

/-- The shortest decimal of a finite double other than zero, its sign aside. -/
def shortest (bits : UInt64) : Expansion :=
  let p := partsOf bits
  trimZeros (search (intervalOf p) (leading p) 20 0) 20

/-- Where the point may stand before an exponent is written instead. -/
structure Layout where
  positionalBelow : Int
  positionalAbove : Int

/-- A positional form always has a fraction. -/
def Layout.render (layout : Layout) (bits : UInt64) : String :=
  let sign := if bits.toNat ≥ 0x8000000000000000 then "-" else ""
  if bits.toNat % 0x8000000000000000 = 0 then sign ++ "0.0" else
  let d := shortest bits
  let digits := toString d.digits
  let count : Int := digits.length
  let point := count + d.exponent
  let zeros (n : Int) := String.ofList (List.replicate n.toNat '0')
  let first (n : Int) := String.ofList (digits.toList.take n.toNat)
  let after (n : Int) := String.ofList (digits.toList.drop n.toNat)
  sign ++
    if 0 ≤ d.exponent ∧ point ≤ layout.positionalBelow then digits ++ zeros d.exponent ++ ".0"
    else if 0 < point ∧ point ≤ layout.positionalBelow then first point ++ "." ++ after point
    else if layout.positionalAbove < point ∧ point ≤ 0 then "0." ++ zeros (-point) ++ digits
    else
      let power := point - 1
      let mark := if power < 0 then "e-" else "e+"
      let leading := if digits.length = 1 then digits else first 1 ++ "." ++ after 1
      leading ++ mark ++ toString power.natAbs

end Decimal
end PackageHandling
