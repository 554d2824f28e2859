import PackageHandling.Text.Hidden

/-!
# Inspection texts

How values show themselves to a developer: quoted text with every character visible, options
and lists spelled out, records with their field names.
-/

namespace PackageHandling
namespace Text

def hex (n : Nat) : String := String.ofList (Nat.toDigits 16 n)

def inspectChar (c : Char) : String :=
  if c = '\x22' then "\\\""
  else if c = '\x5c' then "\\\\"
  else if c = '\x09' then "\\t"
  else if c = '\x0a' then "\\n"
  else if c = '\x0d' then "\\r"
  else if c = '\x00' then "\\0"
  else if isHidden c then "\\u\x7b" ++ hex c.toNat ++ "\x7d"
  else String.singleton c

def inspect (s : String) : String := "\"" ++ String.join (s.toList.map inspectChar) ++ "\""

def inspectOption {α : Type} (f : α → String) : Option α → String
  | none => "None"
  | some a => "Some(" ++ f a ++ ")"

def inspectList {α : Type} (f : α → String) (xs : List α) : String :=
  "[" ++ ", ".intercalate (xs.map f) ++ "]"

/-- The fields of a record, each with its text; a record without fields is its name alone. -/
def inspectRecord (name : String) (fields : List (String × String)) : String :=
  if fields.isEmpty then name
  else name ++ " \x7b " ++ ", ".intercalate (fields.map fun f => f.1 ++ ": " ++ f.2) ++ " \x7d"

/-- A record some of whose fields are left out. -/
def inspectPart (name : String) (fields : List (String × String)) : String :=
  name ++ " \x7b " ++ String.join (fields.map fun f => f.1 ++ ": " ++ f.2 ++ ", ") ++ ".. \x7d"

end Text
end PackageHandling
