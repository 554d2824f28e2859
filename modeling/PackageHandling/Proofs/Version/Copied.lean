import PackageHandling.Proofs.Version.Acceptance

/-!
# Expectations that are copied from a version

The fields of an expectation and those of a version are brought into the same form by functions of
their own, which agree on all there is but an empty list of tags.  The main statement is
`accepts_copied`.
-/

namespace PackageHandling

namespace ExpectedVersion

open VersionTable

/-- An expectation that is taken from a version of its kind: each field is unset, or set to just
what the version has for it. -/
def CopiedFrom : ExpectedVersion → PackageVersion → Prop
  | file size date, .file size' date' => (∀ n ∈ size, size' = n) ∧ ∀ t ∈ date, date' = t
  | http type length date tags, .http type' length' date' tags' =>
    (∀ s ∈ type, type' = some s) ∧ (∀ n ∈ length, length' = some n) ∧
      (∀ t ∈ date, date' = some t) ∧ ∀ ts ∈ tags, tags' = ts
  | quantel clone guid title frames, .quantel clone' guid' title' frames' =>
    (∀ n ∈ clone, clone' = some n) ∧ (∀ s ∈ guid, guid' = some s) ∧
      (∀ s ∈ title, title' = some s) ∧ ∀ n ∈ frames, frames' = some n
  | json size, .json size' => ∀ n ∈ size, size' = n
  | _, _ => False

def asksForNoTags : ExpectedVersion → Bool
  | http _ _ _ (some []) => true
  | _ => false

theorem CopiedFrom.kind_eq {e : ExpectedVersion} {v : PackageVersion} (h : e.CopiedFrom v) :
    e.kind = v.kind := by
  cases e <;> cases v <;> first | rfl | cases h

theorem CopiedFrom.metBy {e : ExpectedVersion} {v : PackageVersion} (h : e.CopiedFrom v)
    (htags : e.asksForNoTags = false) : e.MetBy v := by
  cases e <;> cases v
  case file.file =>
    obtain ⟨hsize, hdate⟩ := h
    exact ⟨fun n hn => by rw [hsize n hn], hdate⟩
  case http.http =>
    obtain ⟨htype, hlength, hdate, hsame⟩ := h
    refine ⟨htype, fun n hn => ⟨n, hlength n hn, rfl⟩, hdate, fun ts hts => ?_⟩
    obtain rfl := hsame ts hts
    refine ⟨?_, rfl⟩
    rintro rfl
    cases hts
    cases htags
  case quantel.quantel =>
    obtain ⟨hclone, hguid, htitle, hframes⟩ := h
    exact ⟨fun n hn => ⟨n, hclone n hn, rfl⟩, hguid, htitle, fun n hn => ⟨n, hframes n hn, rfl⟩⟩
  case json.json => exact fun n hn => by rw [h n hn]
  all_goals cases h

section Untagged

variable {type type' : Option String} {length length' : Option Nat} {date date' : Option Int}

/-- The empty list of tags is asked for as the empty text, where the version has nothing. -/
theorem CopiedFrom.differsOn_iff
    (h : (http type length date (some [])).CopiedFrom (.http type' length' date' []))
    (key : String) :
    DiffersOn (PackageVersion.http type' length' date' []).table
      (http type length date (some [])).table key ↔ key = "etags" := by
  have hrest : (http type length date none).MetBy (.http type' length' date' []) :=
    CopiedFrom.metBy ⟨h.1, h.2.1, h.2.2.1, nofun⟩ rfl
  constructor
  · intro hdiffers
    obtain ⟨f, rfl⟩ := exists_field_of_differsOn hdiffers
    by_cases hf : f = .etags
    · rw [hf]
      rfl
    · have hsame : (http type length date (some [])).field? f =
          (http type length date none).field? f := by
        cases f <;> first | rfl | exact absurd rfl hf
      rw [differsOn_key_of_kind_eq rfl, hsame] at hdiffers
      exact absurd ((metBy_iff rfl).1 hrest f) hdiffers
  · rintro rfl
    refine (differsOn_key_of_kind_eq (f := .etags) rfl).2 ?_
    simp [field?, PackageVersion.field?]

theorem CopiedFrom.rejected
    (h : (http type length date (some [])).CopiedFrom (.http type' length' date' [])) :
    (http type length date (some [])).accepts (.http type' length' date' []) =
      .error (.ofKnown "Actual version doesn't match expected version"
        "Mismatch on properties: ETags: actual (none), expected \"\"") := by
  let actual := (PackageVersion.http type' length' date' []).table
  let expected := (http type length date (some [])).table
  obtain ⟨own, other, hlisting, heq⟩ := compareBy_lists
    "Actual version doesn't match expected version" (fun d => d.name ++ ": actual " ++
      valueText d.left ++ ", expected " ++ valueText d.right) actual expected
  have hmem : "etags" ∈ actual.keys := by
    simp [actual, ← contains_iff_mem_keys, PackageVersion.table]
  obtain ⟨rfl, rfl⟩ := hlisting.of_single hmem h.differsOn_iff
  have hmention : mention actual actual expected "etags" = ⟨"ETags", none, some (.text "")⟩ := by
    simp [mention, actual, expected, PackageVersion.table, table]
  rw [accepts, heq, if_neg (by simp), List.map_singleton, hmention]
  rfl

end Untagged

/-- An expectation that is copied from a version accepts it, unless it is of a web resource without
tags and its empty list of tags was copied. -/
theorem accepts_copied {e : ExpectedVersion} {v : PackageVersion} (h : e.CopiedFrom v) :
    e.accepts v =
      if e.asksForNoTags then
        .error (.ofKnown "Actual version doesn't match expected version"
          "Mismatch on properties: ETags: actual (none), expected \"\"")
      else .ok () := by
  split
  · next htags =>
    unfold asksForNoTags at htags
    split at htags
    · cases v with
      | http type' length' date' tags' =>
        obtain rfl : tags' = [] := h.2.2.2 [] rfl
        exact h.rejected
      | file | quantel | json => cases h
    · cases htags
  · next htags =>
    exact (accepts_iff_metBy h.kind_eq).2 (h.metBy (Bool.eq_false_iff.2 htags))

/-- Both tags of a web resource are copied, and a length beyond what is compared. -/
theorem accepts_copied_with_tags :
    let v := PackageVersion.http (some "video/mp4") (some 0xFFFFFFFFFFFFFFFF) none ["abc", "def"]
    let e := ExpectedVersion.http none (some 0xFFFFFFFFFFFFFFFF) none (some ["abc", "def"])
    e.CopiedFrom v ∧ e.accepts v = .ok () := by
  intro v e
  have h : e.CopiedFrom v := by simp [e, v, CopiedFrom]
  exact ⟨h, accepts_copied h⟩

/-- All that is known of a web resource without tags is copied. -/
theorem copied_without_tags_refused :
    let v := PackageVersion.http (some "video/mp4") (some 2048) none []
    let e := ExpectedVersion.http (some "video/mp4") (some 2048) none (some [])
    e.CopiedFrom v ∧ e.accepts v ≠ .ok () := by
  intro v e
  exact ⟨by simp [e, v, CopiedFrom], nofun⟩

end ExpectedVersion
end PackageHandling
