import PackageHandling.Text.Order

/-!
# Keyed collections

`Sorted α` is a table in strictly increasing key order, whatever the order of insertions.
`Ordered α` keeps the order in which keys were first inserted.  In both a later value for a
key replaces the earlier one.
-/

namespace PackageHandling

namespace Sorted

variable {α : Type}

/-- Keys increase strictly, in the order of texts. -/
def Increasing (entries : List (String × α)) : Prop :=
  entries.Pairwise fun a b => Text.precedes a.1 b.1

def insertEntry (key : String) (value : α) : List (String × α) → List (String × α)
  | [] => [(key, value)]
  | (k, v) :: rest =>
    if Text.precedes key k then (key, value) :: (k, v) :: rest
    else if Text.precedes k key then (k, v) :: insertEntry key value rest
    else (key, value) :: rest

theorem mem_insertEntry {key : String} {value : α} {entries : List (String × α)} {e : String × α}
    (h : e ∈ insertEntry key value entries) : e.1 = key ∨ e ∈ entries := by
  induction entries with
  | nil => simp_all [insertEntry]
  | cons head rest ih =>
    obtain ⟨k, v⟩ := head
    rw [insertEntry] at h
    split at h
    · rcases List.mem_cons.1 h with rfl | h <;> simp_all
    · split at h
      · rcases List.mem_cons.1 h with rfl | h
        · simp
        · rcases ih h with h | h <;> simp_all
      · rcases List.mem_cons.1 h with rfl | h <;> simp_all

theorem insertEntry_increasing {key : String} {value : α} {entries : List (String × α)}
    (h : Increasing entries) : Increasing (insertEntry key value entries) := by
  induction entries with
  | nil => simp [insertEntry, Increasing]
  | cons head rest ih =>
    obtain ⟨k, v⟩ := head
    obtain ⟨hk, hrest⟩ := List.pairwise_cons.1 h
    rw [insertEntry]
    split
    · next hlt =>
      refine List.pairwise_cons.2 ⟨fun e he => ?_, h⟩
      rcases List.mem_cons.1 he with rfl | he
      · exact hlt
      · exact Text.precedes_trans hlt (hk e he)
    · split
      · next hlt =>
        refine List.pairwise_cons.2 ⟨fun e he => ?_, ih hrest⟩
        rcases mem_insertEntry he with h' | h'
        · exact h' ▸ hlt
        · exact hk e h'
      · next h1 h2 =>
        have : key = k := Text.eq_of_not_precedes (by simpa using h1) (by simpa using h2)
        exact List.pairwise_cons.2 ⟨fun e he => this ▸ hk e he, hrest⟩

end Sorted

/-- A table in strictly increasing key order. -/
structure Sorted (α : Type) where
  entries : List (String × α)
  increasing : Sorted.Increasing entries

namespace Sorted

variable {α : Type}

def empty : Sorted α := ⟨[], List.Pairwise.nil⟩

instance : Inhabited (Sorted α) := ⟨empty⟩

instance [DecidableEq α] : DecidableEq (Sorted α) := fun a b =>
  decidable_of_iff (a.entries = b.entries)
    ⟨fun h => by cases a; cases b; simp_all, fun h => h ▸ rfl⟩

theorem ext {a b : Sorted α} (h : a.entries = b.entries) : a = b := by
  cases a; cases b; simp_all

def insert (t : Sorted α) (key : String) (value : α) : Sorted α :=
  ⟨insertEntry key value t.entries, insertEntry_increasing t.increasing⟩

def get? (t : Sorted α) (key : String) : Option α := t.entries.lookup key

def contains (t : Sorted α) (key : String) : Bool := (t.get? key).isSome

def keys (t : Sorted α) : List String := t.entries.map (·.1)

def size (t : Sorted α) : Nat := t.entries.length

def isEmpty (t : Sorted α) : Bool := t.entries.isEmpty

/-- Later entries replace earlier ones of the same key. -/
def ofList (entries : List (String × α)) : Sorted α :=
  entries.foldl (fun t e => t.insert e.1 e.2) empty

theorem lookup_cons_eq (k k' : String) (v : α) (rest : List (String × α)) :
    ((k', v) :: rest).lookup k = if k = k' then some v else rest.lookup k := by
  by_cases h : k = k'
  · simp [h]
  · simp [List.lookup_cons, h, beq_eq_false_iff_ne.2 h]

theorem lookup_insertEntry (key k : String) (value : α) (entries : List (String × α)) :
    (insertEntry key value entries).lookup k =
      if k = key then some value else entries.lookup k := by
  induction entries with
  | nil => simp [insertEntry, lookup_cons_eq]
  | cons head rest ih =>
    obtain ⟨k', v⟩ := head
    rw [insertEntry]
    split
    · simp only [lookup_cons_eq]
    · split
      · next hlt =>
        have hne : k' ≠ key := fun h => by simp [h, Text.precedes_self] at hlt
        simp only [lookup_cons_eq, ih]
        by_cases h : k = k' <;> simp_all
      · next h1 h2 =>
        have : key = k' := Text.eq_of_not_precedes (by simpa using h1) (by simpa using h2)
        subst this
        simp only [lookup_cons_eq]
        by_cases h : k = key <;> simp [h]

theorem get?_insert (t : Sorted α) (key k : String) (value : α) :
    (t.insert key value).get? k = if k = key then some value else t.get? k :=
  lookup_insertEntry key k value t.entries

@[simp] theorem get?_empty (k : String) : (empty : Sorted α).get? k = none := rfl

def erase (t : Sorted α) (key : String) : Sorted α :=
  ⟨t.entries.filter (·.1 ≠ key), t.increasing.filter _⟩

end Sorted

/-- A table in the order of first insertion, each key once. -/
structure Ordered (α : Type) where
  entries : List (String × α)
  distinct : (entries.map (·.1)).Nodup

namespace Ordered

variable {α : Type}

def put (key : String) (value : α) : List (String × α) → List (String × α)
  | [] => [(key, value)]
  | (k, v) :: rest => if k = key then (key, value) :: rest else (k, v) :: put key value rest

theorem put_keys (key : String) (value : α) (entries : List (String × α)) :
    (put key value entries).map (·.1) =
      if key ∈ entries.map (·.1) then entries.map (·.1) else entries.map (·.1) ++ [key] := by
  induction entries with
  | nil => simp [put]
  | cons head rest ih =>
    obtain ⟨k, v⟩ := head
    rw [put]
    split
    · next h => subst h; simp
    · next h =>
      have h' : key ≠ k := fun e => h e.symm
      rw [List.map_cons, ih]
      by_cases hm : key ∈ rest.map (·.1) <;> simp_all

def empty : Ordered α := ⟨[], List.Pairwise.nil⟩

instance : Inhabited (Ordered α) := ⟨empty⟩

instance [DecidableEq α] : DecidableEq (Ordered α) := fun a b =>
  decidable_of_iff (a.entries = b.entries)
    ⟨fun h => by cases a; cases b; simp_all, fun h => h ▸ rfl⟩

theorem ext {a b : Ordered α} (h : a.entries = b.entries) : a = b := by
  cases a; cases b; simp_all

/-- A key that is already there keeps its place. -/
def insert (t : Ordered α) (key : String) (value : α) : Ordered α where
  entries := put key value t.entries
  distinct := by
    rw [put_keys]
    split
    · exact t.distinct
    · next h =>
      exact List.nodup_append.2 ⟨t.distinct, by simp, fun a ha b hb => by
        rw [List.mem_singleton.1 hb]; exact fun e => h (e ▸ ha)⟩

def ofList (entries : List (String × α)) : Ordered α :=
  entries.foldl (fun t e => t.insert e.1 e.2) empty

end Ordered
end PackageHandling
