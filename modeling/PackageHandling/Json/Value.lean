import PackageHandling.Keyed

/-!
# JSON values

A document as it was read, members in written order and repeated keys kept.  `Json.free?` is
the form a value takes once it is stored: readable throughout, objects sorted by key, the last
of two equal keys kept.
-/

namespace PackageHandling

/-- Whole numbers from -2^63 to 2^64-1 are kept exactly, all others as a double. -/
inductive Number
  | int (value : Int) | double (bits : UInt64)
  deriving DecidableEq, Inhabited

/-- `unreadable` stands for a part that is well formed and may be skipped, but has no value:
a number beyond the doubles, half a surrogate pair, a container nested too deeply. -/
inductive Json
  | null | bool (value : Bool) | num (value : Number) | str (value : String)
  | arr (items : List Json) | obj (members : List (String × Json)) | unreadable
  deriving Inhabited, BEq

namespace Json

def int (value : Int) : Json := .num (.int value)

def nat (value : Nat) : Json := .num (.int value)

mutual

/-- The stored form of a value, if all of it can be read. -/
def free? : Json → Option Json
  | .arr items => (freeItems? items).map .arr
  | .obj members => (freeMembers? members).map fun m => .obj (Sorted.ofList m).entries
  | .unreadable => none
  | v => some v

def freeItems? : List Json → Option (List Json)
  | [] => some []
  | v :: rest => do return (← v.free?) :: (← freeItems? rest)

def freeMembers? : List (String × Json) → Option (List (String × Json))
  | [] => some []
  | (k, v) :: rest => do return (k, ← v.free?) :: (← freeMembers? rest)

end

/-- The member of a key; the last one counts. -/
def member? (key : String) : Json → Option Json
  | .obj members => members.reverse.lookup key
  | _ => none

def ofOption {α : Type} (f : α → Json) : Option α → Json
  | none => .null
  | some a => f a

end Json
end PackageHandling
