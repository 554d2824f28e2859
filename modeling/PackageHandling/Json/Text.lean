import PackageHandling.Json.Value
import PackageHandling.Decimal.Shortest

/-!
# JSON text

The compact written form.  Text is escaped as little as JSON allows, so two different values
never share one written form.
-/

namespace PackageHandling
namespace Json

def hexDigit (n : Nat) : Char := if n < 10 then Char.ofNat (48 + n) else Char.ofNat (87 + n)

/-- Quote, backslash and the characters below the blank are escaped, nothing else. -/
def escape (c : Char) : List Char :=
  if c = '\x22' then ['\x5c', '\x22']
  else if c = '\x5c' then ['\x5c', '\x5c']
  else if c = '\x08' then ['\x5c', 'b']
  else if c = '\x09' then ['\x5c', 't']
  else if c = '\x0a' then ['\x5c', 'n']
  else if c = '\x0c' then ['\x5c', 'f']
  else if c = '\x0d' then ['\x5c', 'r']
  else if c.toNat < 32 then
    ['\x5c', 'u', '0', '0', hexDigit (c.toNat / 16), hexDigit (c.toNat % 16)]
  else [c]

def quoted (s : String) : List Char := '\x22' :: s.toList.flatMap escape ++ ['\x22']

/-- Doubles are written positionally when the point falls within the first sixteen digits or
at most five places before them, and with an exponent and its sign otherwise. -/
def doubleText : Decimal.Layout where
  positionalBelow := 16
  positionalAbove := -5

def numberText : Number → List Char
  | .int value => (toString value).toList
  | .double bits => (doubleText.render bits).toList

mutual

def chars : Json → List Char
  | .null => ['n', 'u', 'l', 'l']
  | .bool true => ['t', 'r', 'u', 'e']
  | .bool false => ['f', 'a', 'l', 's', 'e']
  | .num n => numberText n
  | .str s => quoted s
  | .arr items => '[' :: itemChars items ++ [']']
  | .obj members => '\x7b' :: memberChars members ++ ['\x7d']
  | .unreadable => []

def itemChars : List Json → List Char
  | [] => []
  | [v] => v.chars
  | v :: rest => v.chars ++ ',' :: itemChars rest

def memberChars : List (String × Json) → List Char
  | [] => []
  | [(k, v)] => quoted k ++ ':' :: v.chars
  | (k, v) :: rest => quoted k ++ ':' :: v.chars ++ ',' :: memberChars rest

end

def text (v : Json) : String := String.ofList v.chars

end Json
end PackageHandling
