import PackageHandling.Toml.Scalar

/-!
# TOML documents

A document is a tree of tables.  A key may be given once, a table may be opened by one header,
and a table that a dotted key or an inline form made is closed to all other forms.
-/

namespace PackageHandling
namespace Toml

/-- How a table came to be: by its own header, by the header of a table inside it, or by a
dotted key. -/
inductive Origin
  | header | implied | dotted
  deriving DecidableEq, Inhabited

/-- Arrays and inline tables are `closed`.  Of an array of tables only the last is open. -/
inductive Node
  | scalar (value : Scalar) | closed
  | table (origin : Origin) (members : List (String × Node))
  | tables (last : List (String × Node))
  deriving Inhabited

abbrev Table := List (String × Node)

namespace Table

def put (key : String) (n : Node) : Table → Table
  | [] => [(key, n)]
  | (k, v) :: rest => if k = key then (key, n) :: rest else (k, v) :: put key n rest

/-- Change the table at a path of headers; tables on the way are made as needed. -/
def atHeader (f : Table → Option Table) : List String → Table → Option Table
  | [], t => f t
  | key :: path, t =>
    match t.lookup key with
    | none => do return t.put key (.table .implied (← atHeader f path []))
    | some (.table origin members) => do
      return t.put key (.table origin (← atHeader f path members))
    | some (.tables last) => do return t.put key (.tables (← atHeader f path last))
    | some _ => none

/-- Open a table by its header. -/
def openTable (key : String) (t : Table) : Option Table :=
  match t.lookup key with
  | none => some (t.put key (.table .header []))
  | some (.table .implied members) => some (t.put key (.table .header members))
  | some _ => none

/-- Open one more table of an array. -/
def openNext (key : String) (t : Table) : Option Table :=
  match t.lookup key with
  | none => some (t.put key (.tables []))
  | some (.tables _) => some (t.put key (.tables []))
  | some _ => none

/-- Give a key its value.  A dotted key makes the tables on its way, and may pass through those
that have no header of their own; the table that gets the value must be one of dotted keys. -/
def define (value : Node) : List String → Table → Option Table
  | [], _ => none
  | [key], t => if (t.lookup key).isSome then none else some (t.put key value)
  | key :: path, t =>
    match t.lookup key with
    | none => do return t.put key (.table .dotted (← define value path []))
    | some (.table .dotted members) => do
      return t.put key (.table .dotted (← define value path members))
    | some (.table .implied members) =>
      if path.length = 1 then none
      else do return t.put key (.table .implied (← define value path members))
    | some (.tables last) =>
      if path.length = 1 then none else do return t.put key (.tables (← define value path last))
    | some _ => none

end Table

mutual

/-- A value where there is room for so many nested containers. -/
def node (room : Nat) : Nat → List Char → Option (Node × List Char)
  | 0, _ => none
  | fuel + 1, s =>
    match s with
    | '[' :: rest =>
      if room = 0 then none
      else (items (room - 1) fuel (skipLines fuel rest)).map (.closed, ·)
    | '\x7b' :: rest =>
      if room = 0 then none
      else
        match skipBlanks rest with
        | '\x7d' :: rest => some (.closed, rest)
        | rest => (inlineMembers (room - 1) fuel [] rest).map (.closed, ·)
    | s => (scalar s).map fun (v, rest) => (.scalar v, rest)

/-- The elements of an array, up to its closing bracket. -/
def items (room : Nat) : Nat → List Char → Option (List Char)
  | 0, _ => none
  | fuel + 1, s =>
    match s with
    | ']' :: rest => some rest
    | s => do
      let (_, rest) ← node room fuel s
      match skipLines fuel rest with
      | ',' :: rest => items room fuel (skipLines fuel rest)
      | ']' :: rest => some rest
      | _ => none

/-- The members of an inline table, up to its closing brace. -/
def inlineMembers (room : Nat) : Nat → Table → List Char → Option (List Char)
  | 0, _, _ => none
  | fuel + 1, t, s => do
    let (path, rest) ← key s
    let (_, rest) ← expectChar (· = '=') rest
    let (value, rest) ← node room fuel (skipBlanks rest)
    let t ← t.define value path
    match skipBlanks rest with
    | ',' :: rest => inlineMembers room fuel t rest
    | '\x7d' :: rest => some rest
    | _ => none

end

/-- A header: the path of its table, and whether it opens one more table of an array. -/
def header : Scan (List String × Bool)
  | '[' :: '[' :: rest => do
    let (path, rest) ← key rest
    match rest with
    | ']' :: ']' :: rest => some ((path, true), rest)
    | _ => none
  | '[' :: rest => do
    let (path, rest) ← key rest
    match rest with
    | ']' :: rest => some ((path, false), rest)
    | _ => none
  | _ => none

/-- The lines of a document; `current` is the path of the open table. -/
def lines : Nat → List String → Table → List Char → Option Table
  | 0, _, _, _ => none
  | fuel + 1, current, t, s =>
    match skipBlanks s with
    | [] => some t
    | '[' :: rest => do
      let ((path, another), rest) ← header ('[' :: rest)
      let rest ← lineEnd? rest
      let key ← path.getLast?
      let t ← t.atHeader (if another then Table.openNext key else Table.openTable key) path.dropLast
      lines fuel path t rest
    | s =>
      match lineEnd? s with
      | some rest => lines fuel current t rest
      | none => do
        let (path, rest) ← key s
        let (_, rest) ← expectChar (· = '=') rest
        let (value, rest) ← node (nestingLimit - 1) fuel (skipBlanks rest)
        let rest ← lineEnd? rest
        let t ← t.atHeader (Table.define value path) current
        lines fuel current t rest

/-- The top table of a document. -/
def read? (source : String) : Option Table :=
  let s := source.toList
  let s := if s.head? = some (Char.ofNat 0xFEFF) then s.tail else s
  lines (s.length + 2) [] [] s

end Toml
end PackageHandling
