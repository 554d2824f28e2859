import PackageHandling.Proofs.Version.Differences

/-!
# Which versions an expectation accepts

An expectation and a version are compared over the fields of both of their kinds: a field that the
expectation knows and leaves unset is not compared, and one that it does not know must not have a
value.  The kinds share no field but the date of files and of web resources, which leaves little
that is accepted across kinds.  The main statement is `acceptance_decided`.
-/

namespace PackageHandling

inductive VersionKind
  | file | http | quantel | json
  deriving DecidableEq

inductive VersionField
  | fileSize | contentType | contentLength | modifiedDate | etags | cloneId | guid | title | frames
  | payloadSize
  deriving DecidableEq

namespace VersionField

def key : VersionField → String
  | fileSize => "fileSize"
  | contentType => "contentType"
  | contentLength => "contentLength"
  | modifiedDate => "modifiedDate"
  | etags => "etags"
  | cloneId => "cloneId"
  | guid => "guid"
  | title => "title"
  | frames => "frames"
  | payloadSize => "payloadSize"

theorem forall_iff {holds : VersionField → Prop} :
    (∀ f, holds f) ↔ holds fileSize ∧ holds contentType ∧ holds contentLength ∧
      holds modifiedDate ∧ holds etags ∧ holds cloneId ∧ holds guid ∧ holds title ∧
      holds frames ∧ holds payloadSize :=
  ⟨fun h => ⟨h _, h _, h _, h _, h _, h _, h _, h _, h _, h _⟩, fun h f => by cases f <;> simp [h]⟩

end VersionField

def VersionKind.fields : VersionKind → List VersionField
  | file => [.fileSize, .modifiedDate]
  | http => [.contentType, .contentLength, .modifiedDate, .etags]
  | quantel => [.cloneId, .guid, .title, .frames]
  | json => [.payloadSize]

/-- Two kinds have no field in common, but for the date of files and of web resources. -/
theorem VersionKind.eq_of_shared {k l : VersionKind} {f : VersionField} (hk : f ∈ k.fields)
    (hl : f ∈ l.fields) :
    k = l ∨ f = .modifiedDate ∧ (k = .file ∧ l = .http ∨ k = .http ∧ l = .file) := by
  cases k <;> cases l <;> simp_all [fields] <;> grind

namespace PackageVersion

def kind : PackageVersion → VersionKind
  | file .. => .file
  | http .. => .http
  | quantel .. => .quantel
  | json .. => .json

/-- The value under which a field is compared, if the record carries one: a web resource without
tags has none for them. -/
def field? : PackageVersion → VersionField → Option VersionValue
  | file size _, .fileSize => some (.ofNat size)
  | file _ date, .modifiedDate => some (.int date)
  | http type .., .contentType => type.map .text
  | http _ length .., .contentLength => length.map .ofNat
  | http _ _ date _, .modifiedDate => date.map .int
  | http _ _ _ tags, .etags => if tags.isEmpty then none else some (.text (",".intercalate tags))
  | quantel clone .., .cloneId => clone.map .ofNat
  | quantel _ guid .., .guid => guid.map .text
  | quantel _ _ title _, .title => title.map .text
  | quantel _ _ _ frames, .frames => frames.map .ofNat
  | json size, .payloadSize => some (.ofNat size)
  | _, _ => none

theorem value?_table_key (v : PackageVersion) (f : VersionField) :
    v.table.value? f.key = v.field? f := by
  cases v <;> cases f <;> simp [table, field?, VersionField.key]

theorem value?_table_of_ne (v : PackageVersion) {key : String}
    (h : ∀ f : VersionField, key ≠ f.key) : v.table.value? key = none := by
  simp only [VersionField.forall_iff, VersionField.key] at h
  cases v <;> simp [table, h]

theorem mem_fields_of_field? {v : PackageVersion} {f : VersionField} (h : v.field? f ≠ none) :
    f ∈ v.kind.fields := by
  cases v <;> cases f <;> simp_all [kind, field?, VersionKind.fields]

theorem exists_size {v : PackageVersion} (h : v.kind = .file ∨ v.kind = .json) :
    ∃ f, f ≠ .modifiedDate ∧ v.field? f ≠ none := by
  cases v with
  | file => exact ⟨.fileSize, nofun, nofun⟩
  | http | quantel => rcases h with h | h <;> cases h
  | json => exact ⟨.payloadSize, nofun, nofun⟩

end PackageVersion

namespace ExpectedVersion

open VersionTable

def kind : ExpectedVersion → VersionKind
  | file .. => .file
  | http .. => .http
  | quantel .. => .quantel
  | json .. => .json

def field? : ExpectedVersion → VersionField → Option VersionValue
  | file size _, .fileSize => size.map .ofNat
  | file _ date, .modifiedDate => date.map .int
  | http type .., .contentType => type.map .text
  | http _ length .., .contentLength => length.map .ofNat
  | http _ _ date _, .modifiedDate => date.map .int
  | http _ _ _ tags, .etags => tags.map fun tags => .text (",".intercalate tags)
  | quantel clone .., .cloneId => clone.map .ofNat
  | quantel _ guid .., .guid => guid.map .text
  | quantel _ _ title _, .title => title.map .text
  | quantel _ _ _ frames, .frames => frames.map .ofNat
  | json size, .payloadSize => size.map .ofNat
  | _, _ => none

theorem value?_table_key (e : ExpectedVersion) (f : VersionField) :
    e.table.value? f.key = e.field? f := by
  cases e <;> cases f <;> simp [table, field?, VersionField.key]

theorem omits_table_key (e : ExpectedVersion) (f : VersionField) :
    e.table.omits f.key = true ↔ f ∈ e.kind.fields ∧ e.field? f = none := by
  cases e <;> cases f <;> simp [table, kind, field?, VersionField.key, VersionKind.fields]

theorem value?_table_of_ne (e : ExpectedVersion) {key : String}
    (h : ∀ f : VersionField, key ≠ f.key) : e.table.value? key = none := by
  simp only [VersionField.forall_iff, VersionField.key] at h
  cases e <;> simp [table, h]

theorem mem_fields_of_field? {e : ExpectedVersion} {f : VersionField} (h : e.field? f ≠ none) :
    f ∈ e.kind.fields := by
  cases e <;> cases f <;> simp_all [kind, field?, VersionKind.fields]

/-- A version and an expectation differ on the fields in which the version does not have what is
asked for, or has what an expectation of another kind cannot ask for. -/
theorem differsOn_key {e : ExpectedVersion} {v : PackageVersion} {f : VersionField} :
    DiffersOn v.table e.table f.key ↔
      ¬ (f ∈ e.kind.fields ∧ e.field? f = none ∨ v.field? f = e.field? f) := by
  rw [← omits_table_key, ← v.value?_table_key, ← e.value?_table_key, DiffersOn, v.omits_table,
    not_or, Bool.not_eq_true]
  exact and_iff_right rfl

theorem exists_field_of_differsOn {e : ExpectedVersion} {v : PackageVersion} {key : String}
    (h : DiffersOn v.table e.table key) : ∃ f : VersionField, key = f.key :=
  Classical.byContradiction fun hkey => by
    have hne : ∀ f : VersionField, key ≠ f.key := fun f heq => hkey ⟨f, heq⟩
    exact h.2.2 ((v.value?_table_of_ne hne).trans (e.value?_table_of_ne hne).symm)

theorem accepts_eq_ok {e : ExpectedVersion} {v : PackageVersion} :
    e.accepts v = .ok () ↔
      ∀ f, f ∈ e.kind.fields ∧ e.field? f = none ∨ v.field? f = e.field? f := by
  have hkeys : e.accepts v = .ok () ↔ ∀ key, ¬ DiffersOn v.table e.table key :=
    compareBy_eq_ok.trans (forall_congr' fun _ => difference?_eq_none_iff)
  rw [hkeys]
  constructor
  · exact fun h f => Decidable.byContradiction fun hne => h f.key (differsOn_key.2 hne)
  · intro h key hdiffers
    obtain ⟨f, rfl⟩ := exists_field_of_differsOn hdiffers
    exact differsOn_key.1 hdiffers (h f)

/-- What a count is taken for: at most the largest number of 63 bits. -/
def capped (n : Nat) : Nat := min n 0x7FFFFFFFFFFFFFFF

/-- A version of the expectation's own kind that has what is asked for in each field that is set;
tags are compared by their text, and no tags are nothing to compare. -/
def MetBy : ExpectedVersion → PackageVersion → Prop
  | file size date, .file size' date' =>
    (∀ n ∈ size, capped size' = capped n) ∧ ∀ t ∈ date, date' = t
  | http type length date tags, .http type' length' date' tags' =>
    (∀ s ∈ type, type' = some s) ∧ (∀ n ∈ length, ∃ n' ∈ length', capped n' = capped n) ∧
      (∀ t ∈ date, date' = some t) ∧
      ∀ ts ∈ tags, tags' ≠ [] ∧ ",".intercalate tags' = ",".intercalate ts
  | quantel clone guid title frames, .quantel clone' guid' title' frames' =>
    (∀ n ∈ clone, ∃ n' ∈ clone', capped n' = capped n) ∧ (∀ s ∈ guid, guid' = some s) ∧
      (∀ s ∈ title, title' = some s) ∧ ∀ n ∈ frames, ∃ n' ∈ frames', capped n' = capped n
  | json size, .json size' => ∀ n ∈ size, capped size' = capped n
  | _, _ => False

theorem ofNat_eq_ofNat {m n : Nat} :
    VersionValue.ofNat m = VersionValue.ofNat n ↔ capped m = capped n := by
  simp only [VersionValue.ofNat, VersionValue.int.injEq, capped]
  omega

theorem unset_or_eq_map {α : Type} {asked : Option α} {value : α → VersionValue}
    {found : Option VersionValue} :
    asked.map value = none ∨ found = asked.map value ↔ ∀ a ∈ asked, found = some (value a) := by
  cases asked <;> simp

theorem metBy_iff {e : ExpectedVersion} {v : PackageVersion} (h : e.kind = v.kind) :
    e.MetBy v ↔ ∀ f, e.field? f = none ∨ v.field? f = e.field? f := by
  rw [VersionField.forall_iff]
  cases e <;> cases v <;> cases h <;>
    simp only [MetBy, field?, PackageVersion.field?, unset_or_eq_map, Option.map_eq_some_iff,
      Option.ite_none_left_eq_some, List.isEmpty_iff, Option.some.injEq, VersionValue.int.injEq,
      VersionValue.text.injEq, ofNat_eq_ofNat, exists_eq_right, Option.mem_def, true_or, true_and,
      and_true, ne_eq]

theorem kind_eq_of_metBy {e : ExpectedVersion} {v : PackageVersion} (h : e.MetBy v) :
    e.kind = v.kind := by
  cases e <;> cases v <;> first | rfl | cases h

theorem differsOn_key_of_kind_eq {e : ExpectedVersion} {v : PackageVersion} {f : VersionField}
    (h : e.kind = v.kind) :
    DiffersOn v.table e.table f.key ↔ ¬ (e.field? f = none ∨ v.field? f = e.field? f) := by
  rw [differsOn_key]
  by_cases hf : f ∈ e.kind.fields
  · simp only [hf, true_and]
  · have he : e.field? f = none := Decidable.byContradiction fun hne =>
      hf (mem_fields_of_field? hne)
    have hv : v.field? f = none := Decidable.byContradiction fun hne =>
      hf (h ▸ PackageVersion.mem_fields_of_field? hne)
    simp only [he, hv, or_true]

theorem accepts_iff_metBy {e : ExpectedVersion} {v : PackageVersion} (h : e.kind = v.kind) :
    e.accepts v = .ok () ↔ e.MetBy v := by
  rw [accepts_eq_ok, metBy_iff h]
  refine forall_congr' fun f => ?_
  rw [← Decidable.not_iff_not, ← differsOn_key, differsOn_key_of_kind_eq h]

/-- A version that carries nothing but the date of a web resource, for an expectation of a file, and
an expectation that asks for nothing but a date which is this one. -/
structure MetAcross (e : ExpectedVersion) (v : PackageVersion) : Prop where
  carried : ∀ f, v.field? f ≠ none → v.kind = .http ∧ e.kind = .file ∧ f = .modifiedDate
  asked : ∀ f, e.field? f ≠ none → f = .modifiedDate ∧ v.field? f = e.field? f

/-- Where an expectation of another kind knows all fields that a version carries, the version
carries nothing but the date of a web resource. -/
theorem carried_of_known {e : ExpectedVersion} {v : PackageVersion} (h : e.kind ≠ v.kind)
    (hknown : ∀ f, v.field? f ≠ none → f ∈ e.kind.fields) (f : VersionField)
    (hf : v.field? f ≠ none) : v.kind = .http ∧ e.kind = .file ∧ f = .modifiedDate := by
  have hshared : ∀ g, v.field? g ≠ none → g = .modifiedDate ∧
      (e.kind = .file ∧ v.kind = .http ∨ e.kind = .http ∧ v.kind = .file) := fun g hg =>
    (VersionKind.eq_of_shared (hknown g hg) (PackageVersion.mem_fields_of_field? hg)).resolve_left h
  rcases hshared f hf with ⟨hdate, ⟨he, hv⟩ | ⟨-, hv⟩⟩
  · exact ⟨hv, he, hdate⟩
  · -- the size of a file is shared with no other kind
    obtain ⟨g, hg, hsize⟩ := PackageVersion.exists_size (.inl hv)
    exact absurd (hshared g hsize).1 hg

theorem accepts_iff_metAcross {e : ExpectedVersion} {v : PackageVersion} (h : e.kind ≠ v.kind) :
    e.accepts v = .ok () ↔ e.MetAcross v := by
  rw [accepts_eq_ok]
  constructor
  · intro hmet
    have hknown : ∀ f, v.field? f ≠ none → f ∈ e.kind.fields := by
      intro f hv
      rcases hmet f with ⟨hmem, -⟩ | heq
      · exact hmem
      · exact mem_fields_of_field? (heq ▸ hv)
    have hcarried := carried_of_known h hknown
    refine ⟨hcarried, fun f he => ?_⟩
    have heq : v.field? f = e.field? f := (hmet f).resolve_left fun hunset => he hunset.2
    exact ⟨(hcarried f (heq ▸ he)).2.2, heq⟩
  · rintro ⟨hcarried, hasked⟩ f
    by_cases he : e.field? f = none
    · by_cases hv : v.field? f = none
      · exact .inr (hv.trans he.symm)
      · obtain ⟨-, hfile, rfl⟩ := hcarried f hv
        exact .inl ⟨by rw [hfile]; decide, he⟩
    · exact .inr (hasked f he).2

/-- A version is accepted by an expectation of its own kind that it meets, and across the kinds only
where nothing but the date of a file and of a web resource is compared. -/
theorem acceptance_decided (e : ExpectedVersion) (v : PackageVersion) :
    (e.accepts v = .ok () ↔ e.MetBy v ∨ e.kind ≠ v.kind ∧ e.MetAcross v) ∧
    ¬ (e.kind ≠ v.kind ∧ (v.kind = .file ∨ v.kind = .json) ∧ e.accepts v = .ok ()) := by
  constructor
  · by_cases hkind : e.kind = v.kind
    · rw [accepts_iff_metBy hkind]
      exact ⟨.inl, fun h => h.resolve_right fun hne => hne.1 hkind⟩
    · rw [accepts_iff_metAcross hkind]
      exact ⟨fun h => .inr ⟨hkind, h⟩,
        fun h => (h.resolve_left fun hmet => hkind (kind_eq_of_metBy hmet)).2⟩
  · rintro ⟨hkind, hv, hok⟩
    obtain ⟨f, hf, hsize⟩ := PackageVersion.exists_size hv
    exact hf (((accepts_iff_metAcross hkind).1 hok).carried f hsize).2.2

end ExpectedVersion
end PackageHandling
