import PackageHandling.Proofs.Version.Comparison
import PackageHandling.Proofs.Version.Construction

/-!
# Two ways to find a version unchanged

Whether a source is stable is judged by comparing versions, and whether a target is up to date by
the text that is hashed.  On versions of packages the two judge alike, but for one pair of versions
of which neither has anything set: the main statement is `compare_agrees_with_text`.
-/

namespace PackageHandling

namespace VersionTable

def ofValues (captions : List (String × String)) (values : String → Option VersionValue) :
    VersionTable :=
  captions.foldl (fun t c => t.set c.1 c.2 (values c.1)) Sorted.empty

end VersionTable

namespace PackageVersion

open VersionTable

def captions : PackageVersion → List (String × String)
  | file .. => [("fileSize", "File size"), ("modifiedDate", "Modified date")]
  | http .. =>
    [("contentType", "Content type"), ("contentLength", "Content length"),
      ("modifiedDate", "Modified date"), ("etags", "ETags")]
  | quantel .. =>
    [("cloneId", "Clone id"), ("guid", "GUID"), ("title", "Title"), ("frames", "Frames")]
  | json .. => [("payloadSize", "Payload size")]

theorem table_eq_ofValues (v : PackageVersion) : v.table = ofValues v.captions v.table.value? := by
  cases v <;> simp [table, captions, ofValues]

def blankHttp : PackageVersion := http none none none []

def blankQuantel : PackageVersion := quantel none none none none

/-- Two versions of different kinds, of which neither has anything set. -/
def BlankPair (p q : PackageVersion) : Prop :=
  p = blankHttp ∧ q = blankQuantel ∨ p = blankQuantel ∧ q = blankHttp

theorem blank_of_same_values {type : Option String} {length : Option Nat} {date : Option Int}
    {etags : List String} {clone : Option Nat} {guid title : Option String} {frames : Option Nat}
    (h : ∀ key, (http type length date etags).table.value? key =
      (quantel clone guid title frames).table.value? key) :
    http type length date etags = blankHttp ∧ quantel clone guid title frames = blankQuantel := by
  have htype : type = none := by simpa [table] using h "contentType"
  have hlength : length = none := by simpa [table] using h "contentLength"
  have hdate : date = none := by simpa [table] using h "modifiedDate"
  have hetags : etags = [] := by simpa [table] using h "etags"
  have hclone : clone = none := by simpa [table] using (h "cloneId").symm
  have hguid : guid = none := by simpa [table] using (h "guid").symm
  have htitle : title = none := by simpa [table] using (h "title").symm
  have hframes : frames = none := by simpa [table] using (h "frames").symm
  subst htype hlength hdate hetags hclone hguid htitle hframes
  exact ⟨rfl, rfl⟩

/-- Versions with the same values are of one kind, or a blank pair: the kinds that always have a
size have it under keys of their own. -/
theorem captions_eq_or_blankPair {p q : PackageVersion}
    (h : ∀ key, p.table.value? key = q.table.value? key) :
    p.captions = q.captions ∨ BlankPair p q := by
  cases p <;> cases q
  case file.file | http.http | quantel.quantel | json.json => exact .inl rfl
  case file.http | file.quantel | file.json | http.file | quantel.file | json.file =>
    simpa [table] using h "fileSize"
  case json.http | json.quantel | http.json | quantel.json =>
    simpa [table] using h "payloadSize"
  case http.quantel => exact .inr (.inl (blank_of_same_values h))
  case quantel.http => exact .inr (.inr (blank_of_same_values fun key => (h key).symm).symm)

theorem compare_of_blankPair {p q : PackageVersion} (h : BlankPair p q) :
    p.table.compare q.table = .ok () := by
  refine compare_table_eq_ok.2 fun key => ?_
  rcases h with ⟨rfl, rfl⟩ | ⟨rfl, rfl⟩ <;> simp [blankHttp, blankQuantel, table]

theorem hash_blankHttp_ne : blankHttp.table.hash ≠ blankQuantel.table.hash := by
  decide +kernel

/-- Two versions compare as equal if and only if the texts that are hashed are the same, except for
a blank pair. -/
theorem compare_agrees_with_text (p q : PackageVersion) :
    (p.table.compare q.table = .ok () ↔
      p.table.toJson.text = q.table.toJson.text ∨ BlankPair p q) ∧
    ¬ (BlankPair p q ∧ p.table.hash = q.table.hash) := by
  refine ⟨⟨fun h => ?_, ?_⟩, ?_⟩
  · have hvalues := compare_table_eq_ok.1 h
    refine (captions_eq_or_blankPair hvalues).imp_left fun hcaptions => ?_
    rw [table_eq_ofValues p, table_eq_ofValues q, hcaptions, funext hvalues]
  · rintro (h | h)
    · rw [text_inj.1 h]
      exact compare_table_eq_ok.2 fun _ => rfl
    · exact compare_of_blankPair h
  · rintro ⟨⟨rfl, rfl⟩ | ⟨rfl, rfl⟩, hhash⟩
    · exact hash_blankHttp_ne hhash
    · exact hash_blankHttp_ne hhash.symm

end PackageVersion
end PackageHandling
