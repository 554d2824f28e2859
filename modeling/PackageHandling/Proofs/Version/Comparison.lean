import PackageHandling.Version

/-!
# What a comparison of versions looks at

Two tables compare as equal if and only if no key differs, and a version of a package is known to
every comparison by the values of its properties alone.
-/

namespace PackageHandling

namespace VersionTable

/-- The value that a table has for a key; a property that is missing counts as unset. -/
def value? (t : VersionTable) (key : String) : Option VersionValue := (t.get? key).bind (·.value)

/-- Whether a table leaves a key out of comparisons. -/
def omits (t : VersionTable) (key : String) : Bool := (t.get? key).any (·.omitted)

@[simp] theorem value?_empty (key : String) : value? Sorted.empty key = none := rfl

@[simp] theorem value?_set (t : VersionTable) (key name : String) (value : Option VersionValue)
    (k : String) : (t.set key name value).value? k = if k = key then value else t.value? k := by
  simp only [value?, set, Sorted.get?_insert]
  split <;> rfl

@[simp] theorem value?_expect (t : VersionTable) (key name : String) (value : Option VersionValue)
    (k : String) : (t.expect key name value).value? k = if k = key then value else t.value? k := by
  simp only [value?, expect, Sorted.get?_insert]
  split <;> rfl

@[simp] theorem omits_empty (key : String) : omits Sorted.empty key = false := rfl

@[simp] theorem omits_expect (t : VersionTable) (key name : String) (value : Option VersionValue)
    (k : String) :
    (t.expect key name value).omits k = if k = key then value.isNone else t.omits k := by
  simp only [omits, expect, Sorted.get?_insert]
  split <;> rfl

theorem difference?_eq_none {a b : VersionTable} {key : String} :
    difference? a b key = none ↔
      a.omits key = true ∨ b.omits key = true ∨ a.value? key = b.value? key := by
  simp only [difference?, omits, value?]
  split
  · next h => simpa [or_assoc] using Or.inl h
  · next h =>
    rw [Bool.or_eq_true, not_or] at h
    simp [h.1, h.2]

theorem get?_eq_none_of_not_mem {t : VersionTable} {key : String} (h : key ∉ t.keys) :
    t.get? key = none :=
  List.lookup_eq_none_iff.2 fun e he =>
    bne_iff_ne.2 fun heq => h (List.mem_map.2 ⟨e, he, heq.symm⟩)

theorem difference?_of_not_mem {a b : VersionTable} {key : String} (h : key ∉ jointKeys a b) :
    difference? a b key = none := by
  have ha : key ∉ a.keys := fun hmem => h (List.mem_append_left _ hmem)
  have hnone := get?_eq_none_of_not_mem ha
  have hb : key ∉ b.keys := fun hmem => h (List.mem_append_right _
    (List.mem_filter.2 ⟨hmem, by simp [Sorted.contains, hnone]⟩))
  rw [difference?_eq_none, value?, value?, hnone, get?_eq_none_of_not_mem hb]
  exact .inr (.inr rfl)

theorem compareBy_eq_ok {user : String} {describe : Difference → String} {a b : VersionTable} :
    compareBy user describe a b = .ok () ↔ ∀ key, difference? a b key = none := by
  have hdifferences : differences a b = [] ↔ ∀ key, difference? a b key = none := by
    rw [differences, List.filterMap_eq_nil_iff]
    refine ⟨fun h key => ?_, fun h key _ => h key⟩
    by_cases hmem : key ∈ jointKeys a b
    · exact h key hmem
    · exact difference?_of_not_mem hmem
  rw [← hdifferences, compareBy]
  cases differences a b <;> simp

end VersionTable

namespace PackageVersion

open VersionTable

theorem omits_table (v : PackageVersion) (key : String) : v.table.omits key = false := by
  cases v <;> simp only [table, VersionTable.set, omits, Sorted.get?_insert, Sorted.get?_empty] <;>
    repeat' split
  all_goals rfl

theorem compare_table_eq_ok {v w : PackageVersion} :
    v.table.compare w.table = .ok () ↔ ∀ key, v.table.value? key = w.table.value? key := by
  simp [VersionTable.compare, compareBy_eq_ok, difference?_eq_none, omits_table]

theorem accepts_congr {v w : PackageVersion} (h : v.table.compare w.table = .ok ())
    (expected : ExpectedVersion) : expected.accepts v = .ok () ↔ expected.accepts w = .ok () := by
  have hsame := compare_table_eq_ok.1 h
  simp only [ExpectedVersion.accepts, compareBy_eq_ok, difference?_eq_none, omits_table, hsame]

end PackageVersion
end PackageHandling
