import PackageHandling.Metadata
import PackageHandling.Proofs.Json.Stored
import PackageHandling.Proofs.Json.Written

/-!
# The record of a version

The text that is hashed tells tables apart, and a record that was stored is read back as it was.
-/

namespace PackageHandling

open Json

namespace VersionValue

def Fits : VersionValue → Prop
  | int i => -0x8000000000000000 ≤ i ∧ i ≤ 0x7FFFFFFFFFFFFFFF
  | _ => True

instance : DecidablePred Fits
  | flag _ | text _ => inferInstanceAs (Decidable True)
  | int _ => inferInstanceAs (Decidable (_ ∧ _))

theorem exact_toJson (v : VersionValue) : Exact v.toJson := by
  cases v with
  | flag b => exact .bool b
  | int i => exact .int i
  | text s => exact .str s

theorem toJson_ne_null (v : VersionValue) : v.toJson ≠ .null := by
  cases v <;> exact fun h => by cases h

theorem toJson_inj (v w : VersionValue) (h : v.toJson = w.toJson) : v = w := by
  cases v <;> cases w <;> cases h <;> rfl

theorem free?_toJson (v : VersionValue) : v.toJson.free? = some v.toJson := by
  cases v <;> rfl

theorem ofJson_toJson {v : VersionValue} (hv : v.Fits) : ofJson v.toJson = .ok v := by
  cases v with
  | flag b => rfl
  | text s => rfl
  | int i =>
    have hin : asInt64 (.int i) = .ok i := if_pos hv
    simp only [toJson, ofJson, Json.int] at *
    rw [hin]

end VersionValue

namespace VersionProperty

theorem exact_toJson (p : VersionProperty) : Exact p.toJson := by
  have hvalue : Exact (ofOption VersionValue.toJson p.value) := by
    cases p.value with
    | none => exact .null
    | some v => exact v.exact_toJson
  refine .obj fun m hm => ?_
  rcases List.mem_append.1 hm with hm | hm
  · rcases List.mem_cons.1 hm with rfl | hm
    · exact .str p.name
    · obtain rfl := List.mem_singleton.1 hm
      exact hvalue
  · split at hm
    · obtain rfl := List.mem_singleton.1 hm
      exact .bool true
    · cases hm

theorem toJson_inj {p q : VersionProperty} (h : p.toJson = q.toJson) : p = q := by
  obtain ⟨name, value, omitted⟩ := p
  obtain ⟨name', value', omitted'⟩ := q
  simp only [toJson, List.cons_append, List.nil_append, Json.obj.injEq, List.cons.injEq,
    Prod.mk.injEq, Json.str.injEq, true_and] at h
  obtain ⟨rfl, hvalue, homitted⟩ := h
  obtain rfl := ofOption_inj VersionValue.toJson_ne_null VersionValue.toJson_inj hvalue
  cases omitted <;> cases omitted' <;> first | rfl | cases homitted

/-- A property in its stored form: a flag comes before the value. -/
def stored (p : VersionProperty) : Json :=
  .obj (("name", .str p.name) :: (if p.omitted then [("omit", .bool true)] else []) ++
    [("value", ofOption VersionValue.toJson p.value)])

theorem free?_toJson (p : VersionProperty) : p.toJson.free? = some p.stored := by
  obtain ⟨name, value, omitted⟩ := p
  have hvalue : (ofOption VersionValue.toJson value).free? =
      some (ofOption VersionValue.toJson value) :=
    free?_ofOption fun v _ => v.free?_toJson
  have hname : Text.precedes "name" "value" = true := by decide
  cases omitted with
  | false =>
    have hmembers : (toJson ⟨name, value, false⟩).free? =
        some (.obj (Sorted.ofList [("name", .str name),
          ("value", ofOption VersionValue.toJson value)]).entries) := by
      simp [toJson, free?, freeMembers?, hvalue]
    rw [hmembers, Sorted.entries_ofList (by simp [Sorted.Increasing, hname])]
    rfl
  | true =>
    have hmembers : (toJson ⟨name, value, true⟩).free? =
        some (.obj (Sorted.ofList [("name", .str name),
          ("value", ofOption VersionValue.toJson value), ("omit", .bool true)]).entries) := by
      simp [toJson, free?, freeMembers?, hvalue]
    have homit : Text.precedes "omit" "value" = true := by decide
    have hbefore : Text.precedes "omit" "name" = false := by decide
    have hafter : Text.precedes "name" "omit" = true := by decide
    have hback : Text.precedes "value" "name" = false := by decide
    rw [hmembers]
    simp [Sorted.ofList, Sorted.insert, Sorted.insertEntry, Sorted.empty, hname, homit, hbefore,
      hafter, hback, stored]

def Fits (p : VersionProperty) : Prop := ∀ v ∈ p.value, v.Fits

instance : DecidablePred Fits := fun p => inferInstanceAs (Decidable (∀ v ∈ p.value, v.Fits))

theorem ofJson_stored {p : VersionProperty} (hp : p.Fits) : ofJson p.stored = .ok p := by
  obtain ⟨name, value, omitted⟩ := p
  have hread : asOption VersionValue.ofJson (ofOption VersionValue.toJson value) = .ok value :=
    asOption_ofOption VersionValue.toJson_ne_null fun v hv => VersionValue.ofJson_toJson (hp v hv)
  obtain ⟨m, hm⟩ : ∃ m : Members, m = ⟨("name", .str name) ::
    (if omitted then [("omit", .bool true)] else []) ++
      [("value", ofOption VersionValue.toJson value)], false, .missing⟩ := ⟨_, rfl⟩
  have hname : m.get? "name" asText = .ok (some name) := by
    rw [hm]
    exact Members.get?_found rfl rfl
  have homit : m.get? "omit" asBool = .ok (if omitted then some true else none) := by
    rw [hm]
    cases omitted with
    | false => exact Members.get?_absent _ rfl
    | true => exact Members.get?_found rfl rfl
  have hvalue : m.get? "value" (asOption VersionValue.ofJson) = .ok (some value) := by
    rw [hm]
    cases omitted <;> exact Members.get?_found rfl hread
  have hobject : m.positional = false := by rw [hm]
  rw [ofJson, stored, record_obj _ _ (by cases omitted <;> simp) (by cases omitted <;> simp), ← hm]
  simp only [Members.early, Members.get, Members.getD, Members.strictOption, Members.option,
    hobject, hname, homit, hvalue]
  cases omitted <;> rfl

end VersionProperty

namespace VersionTable

/-- Every whole number in it is one of 64 bits with a sign, as a table has them that can be read. -/
def Fits (t : VersionTable) : Prop := ∀ e ∈ t.entries, e.2.Fits

instance : DecidablePred Fits := fun t => inferInstanceAs (Decidable (∀ e ∈ t.entries, e.2.Fits))

theorem exact_toJson (t : VersionTable) : Exact t.toJson := by
  refine .obj fun m hm => ?_
  obtain ⟨e, -, rfl⟩ := List.mem_map.1 hm
  exact e.2.exact_toJson

theorem toJson_inj {a b : VersionTable} (h : a.toJson = b.toJson) : a = b := by
  refine Sorted.ext ((List.map_inj_right fun e e' he => ?_).1 (Json.obj.inj h))
  obtain ⟨hkey, hvalue⟩ := Prod.mk.inj he
  exact Prod.ext hkey (VersionProperty.toJson_inj hvalue)

theorem text_inj {a b : VersionTable} : a.toJson.text = b.toJson.text ↔ a = b :=
  ⟨fun h => toJson_inj (text_injective a.exact_toJson b.exact_toJson h), fun h => by rw [h]⟩

def stored (t : VersionTable) : Json := .obj (t.entries.map fun e => (e.1, e.2.stored))

theorem free?_toJson (t : VersionTable) : t.toJson.free? = some t.stored :=
  free?_table t fun e _ => e.2.free?_toJson

theorem ofJson_stored {t : VersionTable} (ht : t.Fits) : ofJson t.stored = .ok t := by
  rw [stored, ofJson.eq_1, members_map fun e he => VersionProperty.ofJson_stored (ht e he)]
  exact congrArg Except.ok (Sorted.ofList_entries t)

end VersionTable

namespace VersionMetadata

/-- A record in its stored form: the version comes before its hash. -/
def stored (m : VersionMetadata) : Json :=
  .obj [("sourceVersion", ofOption VersionTable.stored m.sourceVersion),
    ("sourceVersionHash", .str m.sourceVersionHash)]

theorem free?_toJson (m : VersionMetadata) : m.toJson.free? = some m.stored := by
  obtain ⟨hash, version⟩ := m
  have hversion : (ofOption VersionTable.toJson version).free? =
      some (ofOption VersionTable.stored version) :=
    free?_ofOption fun t _ => t.free?_toJson
  have hbefore : Text.precedes "sourceVersion" "sourceVersionHash" = true := by decide
  have hafter : Text.precedes "sourceVersionHash" "sourceVersion" = false := by decide
  have hmembers : (toJson ⟨hash, version⟩).free? = some (.obj (Sorted.ofList
      [("sourceVersionHash", .str hash), ("sourceVersion",
        ofOption VersionTable.stored version)]).entries) := by
    simp [toJson, free?, freeMembers?, hversion]
  rw [hmembers]
  simp [Sorted.ofList, Sorted.insert, Sorted.insertEntry, Sorted.empty, hbefore, stored]

theorem ofJson_stored {m : VersionMetadata} (hm : ∀ t, m.sourceVersion = some t → t.Fits) :
    ofJson m.stored = .ok m := by
  obtain ⟨hash, version⟩ := m
  have hnull : ∀ t : VersionTable, t.stored ≠ .null := fun t h => by cases h
  have hread : asOption VersionTable.ofJson (ofOption VersionTable.stored version) = .ok version :=
    asOption_ofOption hnull fun t ht => VersionTable.ofJson_stored (hm t ht)
  obtain ⟨m, hfound⟩ : ∃ m : Members, m = ⟨[("sourceVersion", ofOption VersionTable.stored version),
    ("sourceVersionHash", .str hash)], false, .missing⟩ := ⟨_, rfl⟩
  have hversion : m.get? "sourceVersion" (asOption VersionTable.ofJson) = .ok (some version) := by
    rw [hfound]
    exact Members.get?_found rfl hread
  have hhash : m.get? "sourceVersionHash" asText = .ok (some hash) := by
    rw [hfound]
    exact Members.get?_found rfl rfl
  have hobject : m.positional = false := by rw [hfound]
  rw [ofJson, stored, record_obj _ _ (by simp) (by simp), ← hfound]
  simp only [Members.early, Members.get, Members.getD, Members.option, hobject, hversion, hhash]
  rfl

end VersionMetadata
end PackageHandling
