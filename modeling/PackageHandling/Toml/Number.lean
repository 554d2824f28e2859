import PackageHandling.Json.Reader

/-!
# TOML numbers

Whole numbers in four bases that fit in 64 bits with a sign, and numbers with a fraction or an
exponent that do not round to infinity.
-/

namespace PackageHandling
namespace Toml

/-- Digits with single underscores between them. -/
def groupedDigits? (isDigit : Char → Bool) : List Char → Option (List Char)
  | [] => none
  | [c] => if isDigit c then some [c] else none
  | c :: '_' :: rest => if isDigit c then (groupedDigits? isDigit rest).map (c :: ·) else none
  | c :: rest => if isDigit c then (groupedDigits? isDigit rest).map (c :: ·) else none

def decimalDigits? (s : List Char) : Option (List Char) :=
  match groupedDigits? Char.isDigit s with
  | some ('0' :: _ :: _) => none
  | d => d

def intLimit : Nat := 0x8000000000000000

def signed? (negative : Bool) (n : Nat) : Option Int :=
  if negative then if n ≤ intLimit then some (-n) else none
  else if n < intLimit then some n else none

def radix? (base : Nat) (digits : List Char) : Option Int := do
  let isDigit (c : Char) : Bool := (Json.hexDigit? c).any (· < base)
  let digits ← groupedDigits? isDigit digits
  signed? false (digits.foldl (fun n c => n * base + (Json.hexDigit? c).getD 0) 0)

def whole? : List Char → Option Int
  | '0' :: 'x' :: digits => radix? 16 digits
  | '0' :: 'o' :: digits => radix? 8 digits
  | '0' :: 'b' :: digits => radix? 2 digits
  | '+' :: digits => do signed? false (Json.digitsValue (← decimalDigits? digits))
  | '-' :: digits => do signed? true (Json.digitsValue (← decimalDigits? digits))
  | digits => do signed? false (Json.digitsValue (← decimalDigits? digits))

def dropSign : List Char → List Char
  | '+' :: rest => rest
  | '-' :: rest => rest
  | s => s

/-- From here on a number is nearer to infinity than to any double: half a place above the largest
double. -/
def overflowBound : Nat := Nat.pow 2 1024 - Nat.pow 2 970

/-- Whether these digits times a power of ten round to infinity.  The first comparisons settle
all numbers that have not exactly as many digits as the bound. -/
def overflows (digits : List Char) (exponent : Int) : Bool :=
  let digits := digits.dropWhile (· = '0')
  let size := digits.length + exponent
  if digits.isEmpty || size < 309 then false
  else if 309 < size then true
  else
    match exponent with
    | .ofNat n => overflowBound ≤ Json.digitsValue digits * Nat.pow 10 n
    | .negSucc n => overflowBound * Nat.pow 10 (n + 1) ≤ Json.digitsValue digits

/-- The digits after a point, if there is one. -/
def fractionDigits? : List Char → Option (List Char)
  | [] => some []
  | _ :: digits => groupedDigits? Char.isDigit digits

/-- The value of an exponent after its mark, if there is one. -/
def exponent? : List Char → Option Int
  | [] => some 0
  | _ :: '+' :: digits => do return Json.digitsValue (← groupedDigits? Char.isDigit digits)
  | _ :: '-' :: digits => do return -Json.digitsValue (← groupedDigits? Char.isDigit digits)
  | _ :: digits => do return Json.digitsValue (← groupedDigits? Char.isDigit digits)

/-- A number with a fraction, an exponent or both.  Below zero it may be of any size. -/
def isDecimal (negative : Bool) (s : List Char) : Bool :=
  let mantissa := s.takeWhile fun c => c ≠ 'e' && c ≠ 'E'
  let power := s.drop mantissa.length
  let wholePart := mantissa.takeWhile (· ≠ '.')
  let fraction := mantissa.drop wholePart.length
  match decimalDigits? wholePart, fractionDigits? fraction, exponent? power with
  | some whole, some places, some exponent =>
    !(fraction.isEmpty && power.isEmpty) &&
      (negative || !overflows (whole ++ places) (exponent - places.length))
  | _, _, _ => false

/-- A decimal, infinity or no number, each with a sign perhaps. -/
def isFloat (s : List Char) : Bool :=
  let body := dropSign s
  body = ['i', 'n', 'f'] || body = ['n', 'a', 'n'] || isDecimal (s.head? = some '-') body

end Toml
end PackageHandling
