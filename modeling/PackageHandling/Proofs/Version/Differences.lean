import PackageHandling.Proofs.Version.Comparison

/-!
# What a comparison rejects, and what it lists

Two tables differ on a key that neither of them leaves out and for which they have different values.
A comparison passes where they differ on no key, and else lists the keys on which they do: each of
them once, those of the first table before those that only the second one has, and both in key
order.  The main statement is `compare_lists_differing`.
-/

namespace PackageHandling
namespace VersionTable

variable {a b : VersionTable} {key : String}

/-- Neither table leaves the key out, and their values for it are not the same. -/
def DiffersOn (a b : VersionTable) (key : String) : Prop :=
  a.omits key = false ∧ b.omits key = false ∧ a.value? key ≠ b.value? key

instance (a b : VersionTable) : DecidablePred (DiffersOn a b) :=
  fun _ => inferInstanceAs (Decidable (_ ∧ _))

theorem difference?_eq_none_iff : difference? a b key = none ↔ ¬ DiffersOn a b key := by
  rw [difference?_eq_none]
  cases ha : a.omits key <;> cases hb : b.omits key <;> simp [DiffersOn, ha, hb]

/-- The name by which messages call a property; a key without one goes by itself. -/
def nameOf (t : VersionTable) (key : String) : String := ((t.get? key).map (·.name)).getD key

@[simp] theorem nameOf_set (t : VersionTable) (key name : String) (value : Option VersionValue)
    (k : String) : (t.set key name value).nameOf k = if k = key then name else t.nameOf k := by
  simp only [nameOf, set, Sorted.get?_insert]
  split <;> rfl

def mention (named a b : VersionTable) (key : String) : Difference :=
  ⟨named.nameOf key, a.value? key, b.value? key⟩

theorem difference?_of_differsOn (h : DiffersOn a b key) :
    difference? a b key = some (mention (if a.contains key then a else b) a b key) := by
  obtain ⟨ha, hb, hne⟩ := h
  have hname : (((a.get? key).or (b.get? key)).map (·.name)).getD key =
      (if a.contains key then a else b).nameOf key := by
    rw [Sorted.contains]
    cases hget : a.get? key <;> simp [nameOf, hget]
  show (if a.omits key || b.omits key then none
    else if a.value? key = b.value? key then none else some _) = _
  rw [ha, hb, if_neg (by simp), if_neg hne, mention, ← hname]
  rfl

theorem filterMap_difference? {named : VersionTable} {keys : List String}
    (h : ∀ key ∈ keys, (if a.contains key then a else b) = named) :
    keys.filterMap (difference? a b) =
      (keys.filter (DiffersOn a b ·)).map (mention named a b) := by
  induction keys with
  | nil => rfl
  | cons key rest ih =>
    obtain ⟨hkey, hrest⟩ := List.forall_mem_cons.1 h
    by_cases hdiffers : DiffersOn a b key
    · rw [List.filterMap_cons_some (difference?_of_differsOn hdiffers), hkey, ih hrest,
        List.filter_cons_of_pos (by simpa using hdiffers), List.map_cons]
    · rw [List.filterMap_cons_none (difference?_eq_none_iff.2 hdiffers), ih hrest,
        List.filter_cons_of_neg (by simpa using hdiffers)]

@[simp] theorem contains_set (t : VersionTable) (key name : String) (value : Option VersionValue)
    (k : String) : (t.set key name value).contains k = (decide (k = key) || t.contains k) := by
  simp only [Sorted.contains, set, Sorted.get?_insert]
  split <;> simp_all

theorem contains_iff_mem_keys {t : VersionTable} : t.contains key = true ↔ key ∈ t.keys := by
  refine ⟨fun h => Decidable.byContradiction fun hmem => ?_, fun h => ?_⟩
  · rw [Sorted.contains, get?_eq_none_of_not_mem hmem] at h
    cases h
  · obtain ⟨e, he, rfl⟩ := List.mem_map.1 h
    rw [Sorted.contains, Option.isSome_iff_ne_none]
    exact fun hnone => by simpa using List.lookup_eq_none_iff.1 hnone e he

theorem keys_inOrder (t : VersionTable) : t.keys.Pairwise fun k l => Text.precedes k l = true :=
  List.pairwise_map.2 t.increasing

/-- The differing keys of two tables, as messages list them: `own` are those of the first one, and
`other` those that only the second one has. -/
structure Listing (a b : VersionTable) (own other : List String) : Prop where
  own_inOrder : own.Pairwise fun k l => Text.precedes k l = true
  other_inOrder : other.Pairwise fun k l => Text.precedes k l = true
  mem_own : ∀ key, key ∈ own ↔ key ∈ a.keys ∧ DiffersOn a b key
  mem_other : ∀ key, key ∈ other ↔ key ∉ a.keys ∧ key ∈ b.keys ∧ DiffersOn a b key

theorem exists_listing (a b : VersionTable) :
    ∃ own other, Listing a b own other ∧
      differences a b = own.map (mention a a b) ++ other.map (mention b a b) := by
  let missing := b.keys.filter fun key => !a.contains key
  have hown : ∀ key ∈ a.keys, (if a.contains key then a else b) = a :=
    fun _ h => if_pos (contains_iff_mem_keys.2 h)
  have hother : ∀ key ∈ missing, (if a.contains key then a else b) = b :=
    fun _ h => if_neg (by simpa using (List.mem_filter.1 h).2)
  refine ⟨a.keys.filter (DiffersOn a b ·), missing.filter (DiffersOn a b ·), ⟨?_, ?_, ?_, ?_⟩, ?_⟩
  · exact (keys_inOrder a).filter _
  · exact ((keys_inOrder b).filter _).filter _
  · simp
  · intro key
    simp only [missing, List.mem_filter, Bool.not_eq_true', ← Bool.not_eq_true,
      contains_iff_mem_keys, decide_eq_true_eq]
    rw [and_assoc, and_left_comm]
  · rw [differences, jointKeys, List.filterMap_append, filterMap_difference? hown,
      filterMap_difference? hother]

/-- Where one key of the first table is all that differs, it is all that is listed. -/
theorem Listing.of_single {own other : List String} (h : Listing a b own other)
    (hmem : key ∈ a.keys) (hsingle : ∀ k, DiffersOn a b k ↔ k = key) :
    own = [key] ∧ other = [] := by
  have hdistinct : own.Nodup := h.own_inOrder.imp fun hlt heq => by
    rw [heq, Text.precedes_self] at hlt
    cases hlt
  constructor
  · refine List.perm_singleton.1
      ((List.perm_ext_iff_of_nodup hdistinct (List.pairwise_singleton _ _)).2 fun k => ?_)
    rw [h.mem_own, hsingle, List.mem_singleton]
    exact ⟨And.right, fun heq => ⟨heq ▸ hmem, heq⟩⟩
  · refine List.eq_nil_iff_forall_not_mem.2 fun k hk => ?_
    obtain ⟨hnot, -, hdiffers⟩ := (h.mem_other k).1 hk
    exact hnot ((hsingle k).1 hdiffers ▸ hmem)

theorem compareBy_lists (user : String) (describe : Difference → String) (a b : VersionTable) :
    ∃ own other, Listing a b own other ∧
      compareBy user describe a b =
        if own ++ other = [] then .ok ()
        else .error (.ofKnown user ("Mismatch on properties: " ++ ", ".intercalate
          (own.map (fun key => describe (mention a a b key)) ++
            other.map (fun key => describe (mention b a b key))))) := by
  obtain ⟨own, other, hlisting, hdifferences⟩ := exists_listing a b
  refine ⟨own, other, hlisting, ?_⟩
  rw [compareBy, hdifferences]
  simp only [List.map_append, List.map_map, List.isEmpty_iff, List.append_eq_nil_iff,
    List.map_eq_nil_iff]
  rfl

theorem compare_eq_ok :
    a.compare b = .ok () ↔ ∀ key, key ∈ a.keys ∨ key ∈ b.keys →
      a.omits key = true ∨ b.omits key = true ∨ a.value? key = b.value? key := by
  refine compareBy_eq_ok.trans ⟨fun h key _ => difference?_eq_none.1 (h key), fun h key => ?_⟩
  by_cases hkey : key ∈ a.keys ∨ key ∈ b.keys
  · exact difference?_eq_none.2 (h key hkey)
  · have ha : a.get? key = none := get?_eq_none_of_not_mem fun hmem => hkey (.inl hmem)
    have hb : b.get? key = none := get?_eq_none_of_not_mem fun hmem => hkey (.inr hmem)
    exact difference?_eq_none.2 (.inr (.inr (by rw [value?, value?, ha, hb])))

theorem compare_comm : a.compare b = .ok () ↔ b.compare a = .ok () := by
  refine compareBy_eq_ok.trans (Iff.trans (forall_congr' fun key => ?_) compareBy_eq_ok.symm)
  rw [difference?_eq_none, difference?_eq_none, or_left_comm, eq_comm (a := a.value? key)]

/-- A comparison passes if and only if no key differs; otherwise the reason lists the differing
keys, each once, those of the first table before those that only the second one has. -/
theorem compare_lists_differing (a b : VersionTable) :
    (a.compare b = .ok () ↔ ∀ key, key ∈ a.keys ∨ key ∈ b.keys →
      a.omits key = true ∨ b.omits key = true ∨ a.value? key = b.value? key) ∧
    a.compare a = .ok () ∧
    (a.compare b = .ok () ↔ b.compare a = .ok ()) ∧
    ∃ own other, Listing a b own other ∧
      let entry (named : VersionTable) (key : String) : String :=
        named.nameOf key ++ ": " ++ valueText (a.value? key) ++ " vs " ++ valueText (b.value? key)
      a.compare b =
        if own ++ other = [] then .ok ()
        else .error ⟨⟨"Package version differs", "Mismatch on properties: " ++
          ", ".intercalate (own.map (entry a) ++ other.map (entry b))⟩, true⟩ := by
  have hself : a.compare a = .ok () :=
    compareBy_eq_ok.2 fun _ => difference?_eq_none.2 (.inr (.inr rfl))
  exact ⟨compare_eq_ok, hself, compare_comm, compareBy_lists _ _ a b⟩

end VersionTable
end PackageHandling
