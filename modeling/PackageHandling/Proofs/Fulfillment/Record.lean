import PackageHandling.Fulfillment
import PackageHandling.Proofs.Handle.Calls
import PackageHandling.Proofs.Version.Canonical

/-!
# The record beside a target

A check of a target decides on the record that it fetches and on nothing else.  Where the record of
one version was stored last, the target is fulfilled for that version and for no other: the main
statement is `fulfilled_iff_stored_version`.
-/

namespace PackageHandling

def judge (kind : RecordKind) (accessorId sourceHash : String)
    (record : Option kind.Record) : Fulfillment :=
  match staleness kind accessorId sourceHash record with
  | none => .ok ()
  | some r => .error r

theorem judge_eq_ok {kind : RecordKind} {accessorId sourceHash : String}
    {record : Option kind.Record} :
    judge kind accessorId sourceHash record = .ok () ↔
      ∃ m, record = some m ∧ kind.recordedHash m = some sourceHash := by
  cases record with
  | none => simp [judge, staleness]
  | some m =>
    by_cases hhash : kind.recordedHash m = some sourceHash
    · simp [judge, staleness, hhash]
    · simp [judge, staleness, hhash]

theorem known_of_judge {kind : RecordKind} {accessorId sourceHash : String}
    {record : Option kind.Record} {r : Rejection}
    (h : judge kind accessorId sourceHash record = .error r) : r.known = true := by
  rw [judge] at h
  cases record with
  | none =>
    obtain rfl := Except.error.inj h
    rfl
  | some m =>
    by_cases hhash : kind.recordedHash m = some sourceHash
    · simp [staleness, hhash] at h
    · simp only [staleness, if_neg hhash] at h
      obtain rfl := Except.error.inj h
      rfl

namespace Handle

variable {β α : Type}

def readRecord (decode : Json → Decoded α) :
    Except Failure (Option Json) → Except Failure (Option α)
  | .error f => .error f
  | .ok none => .ok none
  | .ok (some stored) =>
    match decode stored with
    | .error m => .error (.ofMismatch m)
    | .ok record => .ok (some record)

theorem run_fetchRecord (h : Handle β) (decode : Json → Decoded α) (s : β) :
    (h.fetchRecord decode).run s =
      let c := h.fetchMetadata.run s
      ⟨readRecord decode c.answer, c.elapsed, c.state, c.notes⟩ := by
  simp only [fetchRecord, Plan.bind_eq, Plan.run_bind]
  cases hanswer : (h.fetchMetadata.run s).answer with
  | error f => simp [readRecord, Plan.run]
  | ok found =>
    cases found with
    | none => simp [readRecord, Plan.run]
    | some stored => cases hdecode : decode stored <;> simp [readRecord, hdecode, Plan.run]

/-- What follows a record that was read: nothing, or the removal of a stale package. -/
def followUp (h : Handle β) (kind : RecordKind) (sourceHash : String) (wasFulfilled : Bool) :
    Except Failure (Option kind.Record) → Plan β Note Unit
  | .error _ => .done ()
  | .ok record =>
    if wasFulfilled && (staleness kind h.accessorId sourceHash record).isSome then h.dropStale
    else .done ()

/-- A check judges the record that it fetches, whatever becomes of a removal. -/
theorem run_checkFulfilled (h : Handle β) (kind : RecordKind) (sourceHash : String)
    (wasFulfilled : Bool) (s : β) :
    (h.checkFulfilled kind sourceHash wasFulfilled).run s =
      let c := h.fetchMetadata.run s
      let read := readRecord kind.decode c.answer
      let d := (h.followUp kind sourceHash wasFulfilled read).run c.state
      ⟨read.map (judge kind h.accessorId sourceHash), c.elapsed + d.elapsed, d.state,
        c.notes ++ d.notes⟩ := by
  simp only [checkFulfilled, Plan.bind_eq, Plan.run_bind, run_fetchRecord]
  cases hread : readRecord kind.decode (h.fetchMetadata.run s).answer with
  | error f => simp [followUp, Plan.run, Except.map]
  | ok record =>
    cases hstale : staleness kind h.accessorId sourceHash record with
    | none => simp [followUp, hstale, judge, Plan.run, Except.map]
    | some r =>
      cases wasFulfilled <;>
        simp [followUp, hstale, judge, Plan.run, Plan.run_bind, Except.map]

theorem followUp_of_ok {h : Handle β} {kind : RecordKind} {sourceHash : String}
    {wasFulfilled : Bool} {read : Except Failure (Option kind.Record)}
    (hok : read.map (judge kind h.accessorId sourceHash) = .ok (.ok ())) :
    h.followUp kind sourceHash wasFulfilled read = .done () := by
  cases read with
  | error f => rfl
  | ok record =>
    have hjudge := Except.ok.inj hok
    cases hstale : staleness kind h.accessorId sourceHash record with
    | none => simp [followUp, hstale]
    | some r => simp [judge, hstale] at hjudge

theorem calls_checkFulfilled_ok {h : Handle β} {kind : RecordKind} {sourceHash : String}
    {wasFulfilled : Bool} {s : β}
    (hok : ((h.checkFulfilled kind sourceHash wasFulfilled).run s).answer = .ok (.ok ())) :
    ((h.checkFulfilled kind sourceHash wasFulfilled).run s).calls =
      [(h.accessorId, .fetchMetadata)] := by
  rw [run_checkFulfilled] at hok ⊢
  simp only [Plan.Course.calls, followUp_of_ok hok, Plan.run, List.append_nil]
  exact h.calls_call .fetchMetadata h.fetch s

/-- The records of a storage: what is fetched is the record that is there, fetching it leaves it
there, and one that could be stored is there afterwards. -/
structure Keeps (h : Handle β) (record : β → Option Json) : Prop where
  fetched : ∀ s, (h.fetch.run s).answer = .ok (record s)
  left : ∀ s, record (h.fetch.run s).state = record s
  stored : ∀ r s, ((h.update r).run s).answer = .ok () → record ((h.update r).run s).state = some r

theorem Keeps.fetchMetadata {h : Handle β} {record : β → Option Json} (hkeeps : h.Keeps record)
    (s : β) : (h.fetchMetadata.run s).answer = .ok (record s) := by
  rw [Handle.fetchMetadata, run_call]
  exact hkeeps.fetched s

theorem Keeps.storeRecord {h : Handle β} {record : β → Option Json} (hkeeps : h.Keeps record)
    {v stored : Json} (hv : v.free? = some stored) {s : β}
    (hstore : ((h.storeRecord v).run s).answer = .ok ()) :
    record ((h.storeRecord v).run s).state = some stored := by
  rw [Handle.storeRecord, updateMetadata, run_call, hv] at hstore ⊢
  exact hkeeps.stored _ s hstore

/-- While the record of a version is the last that was stored, the target is fulfilled for that
version and for no other. -/
theorem fulfilled_iff_stored_version {h : Handle β} {record : β → Option Json}
    (hkeeps : h.Keeps record) {v w : VersionTable} (hfits : v.Fits)
    (hhash : Digest.blake3Hex v.toJson.text = Digest.blake3Hex w.toJson.text →
      v.toJson.text = w.toJson.text)
    (wasFulfilled : Bool) {s t : β}
    (hstore : ((h.storeRecord (VersionMetadata.ofVersion v).toJson).run s).answer = .ok ())
    (hsame : record t =
      record ((h.storeRecord (VersionMetadata.ofVersion v).toJson).run s).state) :
    let check := (h.checkFulfilled .versionMetadata w.hash wasFulfilled).run t
    ((h.fetchRecord VersionMetadata.ofJson).run t).answer = .ok (some (.ofVersion v)) ∧
      (check.answer = .ok (.ok ()) ↔ v = w) ∧
      (v = w → check.calls = [(h.accessorId, .fetchMetadata)]) ∧
      (v ≠ w → ∃ r, check.answer = .ok (.error r) ∧ r.known = true) := by
  intro check
  have hrecord := hsame.trans (hkeeps.storeRecord (VersionMetadata.free?_toJson _) hstore)
  have hdecode : VersionMetadata.ofJson (VersionMetadata.ofVersion v).stored =
      .ok (VersionMetadata.ofVersion v) :=
    VersionMetadata.ofJson_stored fun t ht => by obtain rfl := Option.some.inj ht; exact hfits
  have hread : readRecord VersionMetadata.ofJson (h.fetchMetadata.run t).answer =
      .ok (some (VersionMetadata.ofVersion v)) := by
    simp only [hkeeps.fetchMetadata, hrecord, readRecord, hdecode]
  have hanswer : check.answer = .ok (judge .versionMetadata h.accessorId w.hash
      (some (VersionMetadata.ofVersion v))) := by
    rw [show check = _ from run_checkFulfilled h .versionMetadata w.hash wasFulfilled t]
    exact congrArg (Except.map _) hread
  have hhashes : v.hash = w.hash ↔ v = w :=
    ⟨fun heq => VersionTable.text_inj.1 (hhash heq), fun heq => by rw [heq]⟩
  have hiff : check.answer = .ok (.ok ()) ↔ v = w := by
    rw [hanswer, Except.ok.injEq, judge_eq_ok, ← hhashes]
    simp [RecordKind.versionMetadata, VersionMetadata.ofVersion]
  refine ⟨by rw [run_fetchRecord]; exact hread, hiff, fun heq => ?_, fun hne => ?_⟩
  · exact calls_checkFulfilled_ok (hiff.2 heq)
  · cases hjudge : judge .versionMetadata h.accessorId w.hash
      (some (VersionMetadata.ofVersion v)) with
    | ok u => exact absurd (hiff.1 (by rw [hanswer, hjudge])) hne
    | error r => exact ⟨r, by rw [hanswer, hjudge], known_of_judge hjudge⟩

end Handle

/-- A shelf has room for a package and, beside it, for a record. -/
structure Shelf where
  package : Bool
  record : Option Json

namespace Shelf

def handle : Handle Shelf where
  accessType := .localFolder
  accessorId := "shelf"
  basicCheck s := (.ok (), s)
  readCheck s := (.ok (), s)
  writeCheck s := (.ok (), s)
  packageReadCheck := .atomically fun s =>
    (if s.package then .ok () else .error (.ofKnown "Package not found" "The shelf is empty"), s)
  probe := .done (.ok ())
  containerWriteCheck := .done (.ok ())
  actualVersion := .done (.ok (.json 0))
  remove _ := .atomically fun s => (.ok (), { s with package := false })
  fetch := .atomically fun s => (.ok s.record, s)
  update r := .atomically fun s => (.ok (), { s with record := some r })
  forget := .atomically fun s => (.ok (), { s with record := none })

theorem handle_keeps : handle.Keeps Shelf.record where
  fetched _ := rfl
  left _ := rfl
  stored _ _ _ := rfl

end Shelf

namespace Handle

/-- An empty shelf gets the record of one version, and is checked against that one and another. -/
theorem fulfilled_iff_stored_version_on_shelf :
    let v := (PackageVersion.json 1).table
    let w := (PackageVersion.json 2).table
    let s := ((Shelf.handle.storeRecord (VersionMetadata.ofVersion v).toJson).run
      ⟨false, none⟩).state
    let check (u : VersionTable) := (Shelf.handle.checkFulfilled .versionMetadata u.hash true).run s
    v.Fits ∧ v ≠ w ∧ Digest.blake3Hex v.toJson.text ≠ Digest.blake3Hex w.toJson.text ∧
      ((Shelf.handle.fetchRecord VersionMetadata.ofJson).run s).answer = .ok (some (.ofVersion v)) ∧
      (check v).answer = .ok (.ok ()) ∧ (check v).calls = [("shelf", .fetchMetadata)] ∧
      ∃ r, (check w).answer = .ok (.error r) ∧ r.known = true := by
  intro v w s check
  have hfits : v.Fits := by decide
  have hne : v ≠ w := by decide
  have hhash : Digest.blake3Hex v.toJson.text ≠ Digest.blake3Hex w.toJson.text := by
    decide +kernel
  obtain ⟨hfetch, hsame, hcalls, -⟩ := fulfilled_iff_stored_version Shelf.handle_keeps hfits
    (w := v) (fun _ => rfl) true (s := ⟨false, none⟩) (t := s) rfl rfl
  obtain ⟨-, -, -, hother⟩ := fulfilled_iff_stored_version Shelf.handle_keeps hfits
    (w := w) (fun h => absurd h hhash) true (s := ⟨false, none⟩) (t := s) rfl rfl
  exact ⟨hfits, hne, hhash, hfetch, hsame.2 rfl, hcalls rfl, hother hne⟩

end Handle
end PackageHandling
