import PackageHandling.Proofs.Version.Canonical

/-!
# How a version was put together plays no part

A table is known by what it holds for each key, and what it holds for a key is decided by the last
call for that key.  So the text that is hashed depends on nothing else, and tells all of it: the
main statement is `text_tells_entries`.
-/

namespace PackageHandling

namespace Sorted

variable {α : Type}

theorem lookup_eq_none_of_precedes {k : String} {es : List (String × α)}
    (h : ∀ e ∈ es, Text.precedes k e.1 = true) : es.lookup k = none :=
  List.lookup_eq_none_iff.2 fun e he => bne_iff_ne.2 fun heq => by
    have hself := h e he
    rw [← heq, Text.precedes_self] at hself
    cases hself

/-- Of two lists in key order that agree on every key, neither starts before the other. -/
theorem not_precedes_of_lookup_eq {k k' : String} {v v' : α} {es fs : List (String × α)}
    (hfs : Increasing ((k', v') :: fs))
    (h : ((k, v) :: es).lookup k = ((k', v') :: fs).lookup k) : Text.precedes k k' = false := by
  rw [Bool.eq_false_iff]
  intro hlt
  have hbefore : ∀ e ∈ (k', v') :: fs, Text.precedes k e.1 = true := by
    intro e he
    rcases List.mem_cons.1 he with rfl | he
    · exact hlt
    · exact Text.precedes_trans hlt ((List.pairwise_cons.1 hfs).1 e he)
  rw [lookup_eq_none_of_precedes hbefore, lookup_cons_eq, if_pos rfl] at h
  cases h

theorem eq_of_lookup_eq {es fs : List (String × α)} (hes : Increasing es) (hfs : Increasing fs)
    (h : ∀ k, es.lookup k = fs.lookup k) : es = fs := by
  induction es generalizing fs with
  | nil =>
    cases fs with
    | nil => rfl
    | cons f fs =>
      obtain ⟨k', v'⟩ := f
      simpa [lookup_cons_eq] using h k'
  | cons e es ih =>
    obtain ⟨k, v⟩ := e
    cases fs with
    | nil => simpa [lookup_cons_eq] using h k
    | cons f fs =>
      obtain ⟨k', v'⟩ := f
      obtain rfl : k = k' := Text.eq_of_not_precedes (not_precedes_of_lookup_eq hfs (h k))
        (not_precedes_of_lookup_eq hes (h k').symm)
      obtain rfl : v = v' := by simpa [lookup_cons_eq] using h k
      obtain ⟨hk, hes⟩ := List.pairwise_cons.1 hes
      obtain ⟨hk', hfs⟩ := List.pairwise_cons.1 hfs
      refine congrArg _ (ih hes hfs fun key => ?_)
      by_cases hkey : key = k
      · rw [hkey, lookup_eq_none_of_precedes hk, lookup_eq_none_of_precedes hk']
      · simpa [lookup_cons_eq, hkey] using h key

theorem eq_iff_get? {a b : Sorted α} : a = b ↔ ∀ key, a.get? key = b.get? key :=
  ⟨fun h _ => by rw [h], fun h => ext (eq_of_lookup_eq a.increasing b.increasing h)⟩

end Sorted

namespace VersionTable

inductive Entry
  | set (key name : String) (value : Option VersionValue)
  | expect (key name : String) (value : Option VersionValue)
  deriving DecidableEq

namespace Entry

def key : Entry → String
  | set key _ _ | expect key _ _ => key

def property : Entry → VersionProperty
  | set _ name value => ⟨name, value, false⟩
  | expect _ name value => ⟨name, value, value.isNone⟩

def apply (t : VersionTable) : Entry → VersionTable
  | set key name value => t.set key name value
  | expect key name value => t.expect key name value

theorem get?_apply (t : VersionTable) (c : Entry) (key : String) :
    (c.apply t).get? key = if key = c.key then some c.property else t.get? key := by
  cases c <;> exact Sorted.get?_insert ..

end Entry

def build (t : VersionTable) (calls : List Entry) : VersionTable := calls.foldl Entry.apply t

def lastFor (key : String) (calls : List Entry) : Option Entry :=
  calls.reverse.find? fun c => c.key == key

theorem lastFor_cons (key : String) (c : Entry) (calls : List Entry) :
    lastFor key (c :: calls) =
      (lastFor key calls).or (if key = c.key then some c else none) := by
  rw [lastFor, List.reverse_cons, List.find?_append, lastFor, List.find?_singleton]
  simp only [beq_iff_eq, eq_comm (a := key)]

/-- The last call for a key decides, else what was there before. -/
theorem get?_build (t : VersionTable) (calls : List Entry) (key : String) :
    (t.build calls).get? key = ((lastFor key calls).map Entry.property).or (t.get? key) := by
  induction calls generalizing t with
  | nil => rfl
  | cons c calls ih =>
    rw [build, List.foldl_cons, ← build, ih, Entry.get?_apply, lastFor_cons]
    cases lastFor key calls with
    | some last => rfl
    | none => by_cases hkey : key = c.key <;> simp [hkey]

/-- The text that is hashed is the same if and only if the tables hold the same property for every
key, in whatever order they were put together. -/
theorem text_tells_entries :
    (∀ a b : VersionTable,
      a.toJson.text = b.toJson.text ↔ ∀ key, a.get? key = b.get? key) ∧
    (∀ (t : VersionTable) (calls calls' : List Entry),
      (∀ key, lastFor key calls = lastFor key calls') →
        t.build calls = t.build calls' ∧ (t.build calls).hash = (t.build calls').hash) ∧
    ∀ a b : VersionTable,
      (Digest.blake3Hex a.toJson.text = Digest.blake3Hex b.toJson.text →
        a.toJson.text = b.toJson.text) →
      (a.hash = b.hash ↔ ∀ key, a.get? key = b.get? key) := by
  refine ⟨fun a b => text_inj.trans Sorted.eq_iff_get?, fun t calls calls' h => ?_,
    fun a b hhash => ?_⟩
  · have hsame : t.build calls = t.build calls' :=
      Sorted.eq_iff_get?.2 fun key => by rw [get?_build, get?_build, h key]
    exact ⟨hsame, by rw [hsame]⟩
  · rw [← Sorted.eq_iff_get?]
    exact ⟨fun h => text_inj.1 (hhash h), fun h => by rw [h]⟩

/-- A size that is first unset, and set after the date, and a number beside its decimal text. -/
theorem text_tells_entries_of_sizes :
    let size (value : Option VersionValue) : Entry := .set "size" "Size" value
    let date : Entry := .expect "date" "Date" none
    let early := [size (some (.int 1)), date]
    let late := [size none, date, size (some (.int 1))]
    let number := build Sorted.empty [size (some (.int 1))]
    let text := build Sorted.empty [size (some (.text "1"))]
    (∀ key, lastFor key early = lastFor key late) ∧
      build Sorted.empty early = build Sorted.empty late ∧
      Digest.blake3Hex number.toJson.text ≠ Digest.blake3Hex text.toJson.text ∧
      number.hash ≠ text.hash := by
  intro size date early late number text
  obtain ⟨-, hbuild, htell⟩ := text_tells_entries
  have hlast : ∀ key, lastFor key early = lastFor key late := by
    intro key
    by_cases hdate : "date" = key
    · subst hdate
      rfl
    · by_cases hsize : "size" = key
      · subst hsize
        rfl
      · simp [early, late, size, date, lastFor, Entry.key, hdate, hsize]
  have hne : Digest.blake3Hex number.toJson.text ≠ Digest.blake3Hex text.toJson.text := by
    decide +kernel
  refine ⟨hlast, (hbuild _ _ _ hlast).1, hne, fun h => ?_⟩
  have hsame := (htell number text fun heq => absurd heq hne).1 h "size"
  cases hsame

end VersionTable
end PackageHandling
