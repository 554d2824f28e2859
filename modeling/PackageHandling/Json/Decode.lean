import PackageHandling.Json.Text
import PackageHandling.Text.Inspect

/-!
# Decoding records from JSON

A record is written as an object, whose unknown members do not matter, or as an array of its
members in declared order.  `Members` is what is left of either form: the known members that
are there, and how a missing one is to be judged.
-/

namespace PackageHandling

/-- Why a value does not have the expected shape. -/
inductive Mismatch
  | missing (field : String) | duplicate (field : String)
  | type (found expected : String) | length (found : Nat) (expected : String)
  | variant (name : String) (known : List String) | range (found expected : String)
  | choices (name : String)
  deriving DecidableEq, Inhabited

/-- Names as a message offers them. -/
def Mismatch.offer (names : List String) : String :=
  match names.map fun n => s!"`{n}`" with
  | [] => "there are no variants"
  | [a] => s!"expected {a}"
  | [a, b] => s!"expected {a} or {b}"
  | all => "expected one of " ++ ", ".intercalate all

def Mismatch.message : Mismatch → String
  | .missing field => s!"missing field `{field}`"
  | .duplicate field => s!"duplicate field `{field}`"
  | .type found expected => s!"invalid type: {found}, expected {expected}"
  | .length found expected => s!"invalid length {found}, expected {expected}"
  | .variant name known => s!"unknown variant `{name}`, {offer known}"
  | .range found expected => s!"invalid value: {found}, expected {expected}"
  | .choices name => s!"data did not match any variant of untagged enum {name}"

abbrev Decoded (α : Type) := Except Mismatch α

namespace Json

/-- What a message calls a value of the wrong type. -/
def describe : Json → String
  | .null => "null"
  | .bool b => s!"boolean `{b}`"
  | .num (.int n) => s!"integer `{n}`"
  | .num (.double bits) => "floating point `" ++ doubleText.render bits ++ "`"
  | .str s => "string " ++ Text.inspect s
  | .arr _ => "sequence"
  | .obj _ => "map"
  | .unreadable => "nothing readable"

def mismatch {α : Type} (v : Json) (expected : String) : Decoded α :=
  .error (.type v.describe expected)

def asText : Json → Decoded String
  | .str s => .ok s
  | v => v.mismatch "a string"

def asBool : Json → Decoded Bool
  | .bool b => .ok b
  | v => v.mismatch "a boolean"

/-- A whole number in a range; `expected` names the range. -/
def asInt (low high : Int) (expected : String) : Json → Decoded Int
  | .num (.int n) =>
    if low ≤ n ∧ n ≤ high then .ok n else .error (.range s!"integer `{n}`" expected)
  | v => v.mismatch expected

def asInt32 (v : Json) : Decoded Int := asInt (-0x80000000) 0x7FFFFFFF "i32" v

def asInt64 (v : Json) : Decoded Int := asInt (-0x8000000000000000) 0x7FFFFFFFFFFFFFFF "i64" v

def asNat32 (v : Json) : Decoded Nat := Int.toNat <$> asInt 0 0xFFFFFFFF "u32" v

def asNat64 (v : Json) : Decoded Nat := Int.toNat <$> asInt 0 0xFFFFFFFFFFFFFFFF "u64" v

/-- Null stands for an absent value. -/
def asOption {α : Type} (f : Json → Decoded α) : Json → Decoded (Option α)
  | .null => .ok none
  | v => some <$> f v

def asList {α : Type} (f : Json → Decoded α) : Json → Decoded (List α)
  | .arr items => items.mapM f
  | v => v.mismatch "a sequence"

/-- Any value, in its stored form. -/
def asFree (v : Json) : Decoded Json :=
  match v.free? with
  | some stored => .ok stored
  | none => .error (.type "nothing readable" "a value")

/-- The known members of a record; `missing` is the judgement on one that is not there, and
`positional` says that the record was written as an array. -/
structure Members where
  found : List (String × Json)
  positional : Bool
  missing : String → Mismatch

namespace Members

/-- The known members of an object, none twice. -/
def ofObject (known : List String) (members : List (String × Json)) : Decoded Members := do
  let rec scan : List (String × Json) → List String → Decoded Unit
    | [], _ => .ok ()
    | (k, _) :: rest, seen =>
      if k ∈ seen then .error (.duplicate k)
      else scan rest (if k ∈ known then k :: seen else seen)
  scan members []
  return ⟨members.filter (·.1 ∈ known), false, .missing⟩

/-- The members of an array, in declared order; `expected` describes the record. -/
def ofArray (known : List String) (expected : String) (items : List Json) : Members :=
  ⟨known.zip items, true, fun _ => .length items.length expected⟩

def get? {α : Type} (m : Members) (field : String) (f : Json → Decoded α) : Decoded (Option α) :=
  match m.found.lookup field with
  | none => .ok none
  | some v => some <$> f v

/-- A member without a default. -/
def get {α : Type} (m : Members) (field : String) (f : Json → Decoded α) : Decoded α := do
  match ← m.get? field f with
  | some a => return a
  | none => throw (m.missing field)

def getD {α : Type} (m : Members) (field : String) (default : α) (f : Json → Decoded α) :
    Decoded α := do
  return (← m.get? field f).getD default

/-- Judge a member that is there before those that are asked for later.  An object is judged in
the order of its keys, an array in the order of its elements. -/
def early {α : Type} (m : Members) (field : String) (f : Json → Decoded α) : Decoded Unit :=
  if m.positional then .ok () else (fun _ => ()) <$> m.get? field f

/-- An optional member: absent or null. -/
def option {α : Type} (m : Members) (field : String) (f : Json → Decoded α) :
    Decoded (Option α) :=
  m.getD field none (asOption f)

/-- An optional member that only an object may leave out. -/
def strictOption {α : Type} (m : Members) (field : String) (f : Json → Decoded α) :
    Decoded (Option α) :=
  if m.positional then m.get field (asOption f) else m.option field f

end Members

/-- `a struct with 3 elements` and the like. -/
def elementCount (what : String) (n : Nat) : String :=
  if n = 1 then s!"{what} with 1 element" else s!"{what} with {n} elements"

/-- A record in either of its forms, made from its members; only a record that could be made is
refused for further elements. -/
def record {α : Type} (known : List String) (what : String) (v : Json)
    (make : Members → Decoded α) : Decoded α :=
  match v with
  | .obj found => do make (← Members.ofObject known found)
  | .arr items => do
    let a ← make (Members.ofArray known (elementCount what known.length) items)
    if known.length < items.length then throw (.length items.length "fewer elements in array")
    return a
  | v => v.mismatch what

def named {α : Type} (names : List (String × α)) (name : String) : Decoded α :=
  match names.lookup name with
  | some a => .ok a
  | none => .error (.variant name (names.map (·.1)))

/-- One of a fixed set of names, alone or as the only key of an object around null. -/
def asName {α : Type} (names : List (String × α)) : Json → Decoded α
  | .str s => named names s
  | .obj [(s, .null)] => named names s
  | v => v.mismatch "a name"

/-- A value all of which can be read. -/
def readable (v : Json) : Decoded Unit := (fun _ => ()) <$> v.asFree

def asTag : Json → Decoded String
  | .str s => .ok s
  | v => v.mismatch "variant identifier"

/-- A record with a tag: the tag's text, and the rest of the record in its own form.  The tag
comes first in an array. -/
def tagged (tag what : String) (v : Json) : Decoded (String × Json) := do
  v.readable
  match v with
  | .obj found =>
    match found.filter (·.1 = tag) with
    | [] => throw (.missing tag)
    | [(_, t)] => return (← t.asTag, .obj (found.filter (·.1 ≠ tag)))
    | _ => throw (.duplicate tag)
  | .arr [] => throw (.missing tag)
  | .arr (t :: rest) => return (← t.asTag, .arr rest)
  | v => v.mismatch what

end Json
end PackageHandling
