import PackageHandling.Toml.Number

/-!
# TOML scalars

Keys, strings, dates and times.  Only whole numbers and texts keep their value; of the
other scalars it matters only that they are well formed.
-/

namespace PackageHandling
namespace Toml

abbrev Scan (α : Type) := List Char → Option (α × List Char)

inductive Scalar
  | int (value : Int) | text (value : String) | other
  deriving DecidableEq, Inhabited

def isBlank (c : Char) : Bool := c = ' ' || c = '\x09'

def skipBlanks (s : List Char) : List Char := s.dropWhile isBlank

/-- Controls other than the tab may stand nowhere in a line. -/
def isPlain (c : Char) : Bool := c = '\x09' || (32 ≤ c.toNat && c.toNat ≠ 127)

def newline? : List Char → Option (List Char)
  | '\n' :: rest => some rest
  | '\x0d' :: '\n' :: rest => some rest
  | _ => none

/-- The end of a line: blanks, a comment perhaps, and a newline or the end of the text. -/
def lineEnd? (s : List Char) : Option (List Char) :=
  let after := match skipBlanks s with
    | '#' :: rest => rest.dropWhile isPlain
    | rest => rest
  if after = [] then some [] else newline? after

/-- Blanks, comments and newlines, as they may stand between the elements of an array. -/
def skipLines : Nat → List Char → List Char
  | 0, s => s
  | fuel + 1, s =>
    match skipBlanks s with
    | [] => []
    | '#' :: rest =>
      match newline? (rest.dropWhile isPlain) with
      | some rest => skipLines fuel rest
      | none => '#' :: rest
    | rest =>
      match newline? rest with
      | some rest => skipLines fuel rest
      | none => rest

def isSurrogate (n : Nat) : Bool := 0xD800 ≤ n && n < 0xE000

def charOf? (n : Nat) : Option Char :=
  if n < 0x110000 && !isSurrogate n then some (Char.ofNat n) else none

def hexValue? (digits : List Char) : Option Nat :=
  digits.foldlM (fun n c => do return n * 16 + (← Json.hexDigit? c)) 0

/-- What follows a backslash. -/
def escape? : Scan Char
  | 'u' :: rest => do
    if rest.length < 4 then none
    else return (← charOf? (← hexValue? (rest.take 4)), rest.drop 4)
  | 'U' :: rest => do
    if rest.length < 8 then none
    else return (← charOf? (← hexValue? (rest.take 8)), rest.drop 8)
  | '/' :: _ => none
  | c :: rest => (Json.unescape? c).map (·, rest)
  | [] => none

/-- A quoted text on one line, after its opening quote. -/
def basicText : Nat → List Char → List Char → Option (String × List Char)
  | 0, _, _ => none
  | fuel + 1, acc, s =>
    match s with
    | [] => none
    | '\x22' :: rest => some (String.ofList acc.reverse, rest)
    | '\x5c' :: rest => do
      let (c, rest) ← escape? rest
      basicText fuel (c :: acc) rest
    | c :: rest => if isPlain c then basicText fuel (c :: acc) rest else none

/-- A text between apostrophes, without escapes. -/
def literalText (s : List Char) : Option (String × List Char) :=
  let body := s.takeWhile fun c => isPlain c && c ≠ '\x27'
  match s.drop body.length with
  | '\x27' :: rest => some (String.ofList body, rest)
  | _ => none

/-- What follows the blanks and newlines after a line that ends in a backslash. -/
def afterBreak : List Char → List Char
  | [] => []
  | '\x0d' :: '\n' :: rest => afterBreak rest
  | c :: rest => if isBlank c || c = '\n' then afterBreak rest else c :: rest

/-- A text over several lines, after its three opening quotes: up to two quotes more than the
closing three belong to it, and a backslash at the end of a line skips to the next text. -/
def longText (quote : Char) (escapes : Bool) :
    Nat → List Char → List Char → Option (String × List Char)
  | 0, _, _ => none
  | fuel + 1, acc, s =>
    match s with
    | [] => none
    | c :: rest =>
      if c = quote then
        let run := s.takeWhile (· = quote)
        if run.length < 3 then longText quote escapes fuel (run ++ acc) (s.drop run.length)
        else if run.length > 5 then none
        else some (String.ofList ((run.drop 3) ++ acc).reverse, s.drop run.length)
      else if c = '\x5c' && escapes then
        match newline? (skipBlanks rest) with
        | some rest => longText quote escapes fuel acc (afterBreak rest)
        | none => do
          let (x, rest) ← escape? rest
          longText quote escapes fuel (x :: acc) rest
      else
        match newline? s with
        | some rest => longText quote escapes fuel ('\n' :: acc) rest
        | none => if isPlain c then longText quote escapes fuel (c :: acc) rest else none

def afterFirstNewline (s : List Char) : List Char := (newline? s).getD s

/-- A text in any of the four forms. -/
def text : Scan String
  | '\x22' :: '\x22' :: '\x22' :: rest =>
    longText '\x22' true (rest.length + 1) [] (afterFirstNewline rest)
  | '\x22' :: rest => basicText (rest.length + 1) [] rest
  | '\x27' :: '\x27' :: '\x27' :: rest =>
    longText '\x27' false (rest.length + 1) [] (afterFirstNewline rest)
  | '\x27' :: rest => literalText rest
  | _ => none

def isKeyChar (c : Char) : Bool := c.isAlphanum || c = '-' || c = '_'

/-- One part of a key: bare, or a text on one line. -/
def keyPart : Scan String
  | '\x22' :: rest => basicText (rest.length + 1) [] rest
  | '\x27' :: rest => literalText rest
  | s =>
    let word := s.takeWhile isKeyChar
    if word.isEmpty then none else some (String.ofList word, s.drop word.length)

/-- The parts of a key, with points between them; at most so many. -/
def keyParts : Nat → List Char → Option (List String × List Char)
  | 0, _ => none
  | fuel + 1, s => do
    let (head, rest) ← keyPart (skipBlanks s)
    match skipBlanks rest with
    | '.' :: rest => do
      let (tail, rest) ← keyParts fuel rest
      return (head :: tail, rest)
    | rest => return ([head], rest)

/-- A key has fewer parts, and a value fewer containers around it, than this. -/
def nestingLimit : Nat := 80

def key : Scan (List String) := keyParts (nestingLimit - 1)

def twoDigits? : Scan Nat
  | a :: b :: rest => if a.isDigit && b.isDigit then some (Json.digitsValue [a, b], rest) else none
  | _ => none

def expectChar (ok : Char → Bool) : Scan Unit
  | c :: rest => if ok c then some ((), rest) else none
  | [] => none

def daysIn (year month : Nat) : Nat :=
  if month = 2 then
    if (year % 4 = 0 ∧ year % 100 ≠ 0) ∨ year % 400 = 0 then 29 else 28
  else if month = 4 ∨ month = 6 ∨ month = 9 ∨ month = 11 then 30 else 31

def date : Scan Unit := fun s => do
  let (century, s) ← twoDigits? s
  let (year, s) ← twoDigits? s
  let (_, s) ← expectChar (· = '-') s
  let (month, s) ← twoDigits? s
  let (_, s) ← expectChar (· = '-') s
  let (day, s) ← twoDigits? s
  if 1 ≤ month ∧ month ≤ 12 ∧ 1 ≤ day ∧ day ≤ daysIn (century * 100 + year) month then some ((), s)
  else none

def time : Scan Unit := fun s => do
  let (hour, s) ← twoDigits? s
  let (_, s) ← expectChar (· = ':') s
  let (minute, s) ← twoDigits? s
  let (_, s) ← expectChar (· = ':') s
  let (second, s) ← twoDigits? s
  if hour > 23 ∨ minute > 59 ∨ second > 60 then none
  else
    match s with
    | '.' :: rest =>
      let digits := rest.takeWhile Char.isDigit
      if digits.isEmpty then none else some ((), rest.drop digits.length)
    | s => some ((), s)

def offset : Scan Unit
  | 'Z' :: rest => some ((), rest)
  | 'z' :: rest => some ((), rest)
  | c :: rest => do
    if c ≠ '+' ∧ c ≠ '-' then none
    let (hour, s) ← twoDigits? rest
    let (_, s) ← expectChar (· = ':') s
    let (minute, s) ← twoDigits? s
    if hour ≤ 23 ∧ minute ≤ 59 then some ((), s) else none
  | [] => none

/-- A date, a time, or both with or without an offset from Greenwich. -/
def moment : Scan Unit := fun s =>
  match date s with
  | none => time s
  | some (_, rest) =>
    match expectChar (fun c => c = 'T' || c = 't' || c = ' ') rest with
    | none => some ((), rest)
    | some (_, afterMark) =>
      match time afterMark with
      | none => if rest.head? = some ' ' then some ((), rest) else none
      | some (_, rest) => some ((offset rest).getD ((), rest))

def isScalarChar (c : Char) : Bool := c.isAlphanum || c = '_' || c = '+' || c = '-' || c = '.'

/-- A scalar value. -/
def scalar : Scan Scalar := fun s =>
  match text s with
  | some (t, rest) => some (.text t, rest)
  | none =>
    match moment s with
    | some (_, rest) => some (.other, rest)
    | none =>
      let word := s.takeWhile isScalarChar
      let rest := s.drop word.length
      match whole? word with
      | some n => some (.int n, rest)
      | none =>
        if isFloat word || word = "true".toList || word = "false".toList then some (.other, rest)
        else none

end Toml
end PackageHandling
