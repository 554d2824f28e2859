import PackageHandling.Json.Value
import PackageHandling.Decimal.Scaled

/-!
# Reading JSON text

`Json.read?` accepts exactly one document between blanks.  Every step returns what is left of
the text; the fuel of the recursive steps is the length of the text, and each value takes at
least one character off it.
-/

namespace PackageHandling
namespace Json

/-- So many containers may be nested in a document; one inside them has no readable value. -/
def nestingLimit : Nat := 127

def isBlank (c : Char) : Bool := c = ' ' || c = '\n' || c = '\t' || c = '\x0d'

def skipBlanks (s : List Char) : List Char := s.dropWhile isBlank

def digit? (c : Char) : Option Nat := if '0' ≤ c ∧ c ≤ '9' then some (c.toNat - 48) else none

def hexDigit? (c : Char) : Option Nat :=
  if '0' ≤ c ∧ c ≤ '9' then some (c.toNat - 48)
  else if 'a' ≤ c ∧ c ≤ 'f' then some (c.toNat - 87)
  else if 'A' ≤ c ∧ c ≤ 'F' then some (c.toNat - 55)
  else none

def hex4? (a b c d : Char) : Option Nat := do
  return (((← hexDigit? a) * 16 + (← hexDigit? b)) * 16 + (← hexDigit? c)) * 16 + (← hexDigit? d)

/-- The letter after a backslash, other than `u`. -/
def unescape? (c : Char) : Option Char :=
  if c = '\x22' ∨ c = '\x5c' ∨ c = '/' then some c
  else if c = 'b' then some '\x08'
  else if c = 'f' then some '\x0c'
  else if c = 'n' then some '\x0a'
  else if c = 'r' then some '\x0d'
  else if c = 't' then some '\x09'
  else none

def isHighHalf (n : Nat) : Bool := 0xD800 ≤ n && n < 0xDC00

def isLowHalf (n : Nat) : Bool := 0xDC00 ≤ n && n < 0xE000

def joinHalves (high low : Nat) : Char :=
  Char.ofNat ((high - 0xD800) * 0x400 + (low - 0xDC00) + 0x10000)

/-- A code unit of an escape and what it starts: a character of its own, the first half of one,
or nothing. -/
inductive Unit16
  | char (c : Char) | high (n : Nat) | stray

def Unit16.ofNat (n : Nat) : Unit16 :=
  if isHighHalf n then .high n else if isLowHalf n then .stray else .char (Char.ofNat n)

/-- A text after its opening quote: its characters, or `none` in their place when an escape
names half a surrogate pair; and what follows the closing quote.  `pending` is a first half
that waits for its second. -/
def stringBody (acc : List Char) (sound : Bool) (pending : Option Nat) :
    List Char → Option (Option String × List Char)
  | [] => none
  | '\x22' :: rest =>
    some (if sound && pending.isNone then some (String.ofList acc.reverse) else none, rest)
  | '\x5c' :: 'u' :: a :: b :: c :: d :: rest =>
    match hex4? a b c d with
    | none => none
    | some n =>
      match pending with
      | some high =>
        if isLowHalf n then stringBody (joinHalves high n :: acc) sound none rest
        else stringBody acc false none rest
      | none =>
        match Unit16.ofNat n with
        | .char x => stringBody (x :: acc) sound none rest
        | .high h => stringBody acc sound (some h) rest
        | .stray => stringBody acc false none rest
  | '\x5c' :: c :: rest =>
    match unescape? c with
    | none => none
    | some x => stringBody (x :: acc) (sound && pending.isNone) none rest
  | c :: rest =>
    if c.toNat < 32 then none
    else stringBody (c :: acc) (sound && pending.isNone) none rest

/-- Digits while their count fits in 64 bits; the number of digits taken. -/
def takeDigits (significand taken : Nat) : List Char → Nat × Nat × List Char
  | [] => (significand, taken, [])
  | c :: rest =>
    match digit? c with
    | none => (significand, taken, c :: rest)
    | some d =>
      match Decimal.pushDigit significand d with
      | none => (significand, taken, c :: rest)
      | some next => takeDigits next (taken + 1) rest

/-- The number of leading digits, and what follows them. -/
def countDigits (count : Nat) : List Char → Nat × List Char
  | [] => (count, [])
  | c :: rest => if (digit? c).isSome then countDigits (count + 1) rest else (count, c :: rest)

def digitsValue (digits : List Char) : Nat := digits.foldl (fun n c => n * 10 + (digit? c).getD 0) 0

def number (b : Option UInt64) : Json :=
  (b.map fun bits => Json.num (.double bits)).getD .unreadable

/-- An exponent, after its `e`. -/
def exponentPart (negative : Bool) (significand : Nat) (exponent : Int) (s : List Char) :
    Option (Json × List Char) :=
  let (down, s) := match s with
    | '+' :: rest => (false, rest)
    | '-' :: rest => (true, rest)
    | _ => (false, s)
  let (count, rest) := countDigits 0 s
  if count = 0 then none
  else
    let power := digitsValue (s.take count)
    let tooLong := power ≥ 0x80000000
    if tooLong && !down && significand ≠ 0 then some (.unreadable, rest)
    else if tooLong then some (number (Decimal.scaled? negative 0 0), rest)
    else
      let final := if down then exponent - power else exponent + power
      some (number (Decimal.scaled? negative significand final), rest)

def exponentOrEnd (negative : Bool) (significand : Nat) (exponent : Int) :
    List Char → Option (Json × List Char)
  | 'e' :: rest => exponentPart negative significand exponent rest
  | 'E' :: rest => exponentPart negative significand exponent rest
  | rest => some (number (Decimal.scaled? negative significand exponent), rest)

/-- A fraction, after its point.  Digits that no longer fit are dropped. -/
def fractionPart (negative : Bool) (significand : Nat) (exponent : Int) (s : List Char) :
    Option (Json × List Char) :=
  let (significand, taken, rest) := takeDigits significand 0 s
  let (dropped, rest) := countDigits 0 rest
  if taken + dropped = 0 then none
  else exponentOrEnd negative significand (exponent - taken) rest

/-- What may follow the digits of a whole number, `dropped` of which no longer fit. -/
def afterWhole (negative : Bool) (significand dropped : Nat) :
    List Char → Option (Json × List Char)
  | '.' :: rest => fractionPart negative significand dropped rest
  | 'e' :: rest => exponentPart negative significand dropped rest
  | 'E' :: rest => exponentPart negative significand dropped rest
  | rest =>
    if dropped ≠ 0 then some (number (Decimal.scaled? negative significand dropped), rest)
    else if !negative then some (.nat significand, rest)
    else if significand = 0 ∨ significand > 0x8000000000000000 then
      some (number (Decimal.scaled? true significand 0), rest)
    else some (.int (-significand), rest)

/-- A number, its sign taken off: no leading zeros. -/
def unsignedNumber (negative : Bool) : List Char → Option (Json × List Char)
  | '0' :: rest =>
    match rest with
    | c :: _ => if (digit? c).isSome then none else afterWhole negative 0 0 rest
    | [] => afterWhole negative 0 0 []
  | s =>
    let (significand, taken, rest) := takeDigits 0 0 s
    let (dropped, rest) := countDigits 0 rest
    if taken = 0 then none else afterWhole negative significand dropped rest

def literal? (word : String) (value : Json) (s : List Char) : Option (Json × List Char) :=
  if word.toList.isPrefixOf s then some (value, s.drop word.length) else none

/-- A container where there is room for so many nested ones, or what stands for one too deep. -/
def inRoom (room : Nat) (v : Json) : Json := if room = 0 then .unreadable else v

mutual

/-- A value that starts the text, where there is room for so many nested containers. -/
def value (room : Nat) : Nat → List Char → Option (Json × List Char)
  | 0, _ => none
  | fuel + 1, s =>
    match s with
    | 'n' :: _ => literal? "null" .null s
    | 't' :: _ => literal? "true" (.bool true) s
    | 'f' :: _ => literal? "false" (.bool false) s
    | '-' :: rest => unsignedNumber true rest
    | '\x22' :: rest =>
      (stringBody [] true none rest).map fun (text, rest) =>
        ((text.map Json.str).getD .unreadable, rest)
    | '[' :: rest =>
      match skipBlanks rest with
      | ']' :: rest => some (inRoom room (.arr []), rest)
      | rest => do
        let (items, rest) ← elements (room - 1) fuel rest
        return (inRoom room (.arr items), rest)
    | '\x7b' :: rest =>
      match skipBlanks rest with
      | '\x7d' :: rest => some (inRoom room (.obj []), rest)
      | rest => do
        let (found, rest) ← memberList (room - 1) fuel rest
        return (inRoom room ((found.map Json.obj).getD .unreadable), rest)
    | _ => unsignedNumber false s

/-- At least one element, up to the closing bracket. -/
def elements (room : Nat) : Nat → List Char → Option (List Json × List Char)
  | 0, _ => none
  | fuel + 1, s => do
    let (head, rest) ← value room fuel s
    match skipBlanks rest with
    | ']' :: rest => return ([head], rest)
    | ',' :: rest => do
      let (tail, rest) ← elements room fuel (skipBlanks rest)
      return (head :: tail, rest)
    | _ => none

/-- At least one member, up to the closing brace; no list if a key cannot be read. -/
def memberList (room : Nat) : Nat → List Char → Option (Option (List (String × Json)) × List Char)
  | 0, _ => none
  | fuel + 1, s =>
    match s with
    | '\x22' :: rest => do
      let (key, rest) ← stringBody [] true none rest
      match skipBlanks rest with
      | ':' :: rest => do
        let (head, rest) ← value room fuel (skipBlanks rest)
        let entry := key.map fun k => (k, head)
        match skipBlanks rest with
        | '\x7d' :: rest => return (entry.map fun e => [e], rest)
        | ',' :: rest => do
          let (tail, rest) ← memberList room fuel (skipBlanks rest)
          return ((do return (← entry) :: (← tail)), rest)
        | _ => none
      | _ => none
    | _ => none

end

/-- The document that makes up the whole text, with room for so many nested containers. -/
def readNested? (room : Nat) (text : String) : Option Json :=
  let s := text.toList
  match value room (s.length + 1) (skipBlanks s) with
  | some (v, rest) => if skipBlanks rest = [] then some v else none
  | none => none

def read? (text : String) : Option Json := readNested? nestingLimit text

/-- An object whose members are documents of their own. -/
def readEnvelope? (text : String) : Option Json := readNested? (nestingLimit + 1) text

end Json
end PackageHandling
