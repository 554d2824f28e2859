import PackageHandling.Proofs.Fulfillment.Record
import PackageHandling.Proofs.Handle.Report

/-!
# When a target is as expected, and when its package is removed

A check of a target decides on what is fetched, and on nothing else: not on what was found before,
and not on what becomes of a removal.  It removes a package once at most, and only one that is no
longer as expected: the main statement is `fulfillment_decided`.
-/

namespace PackageHandling
namespace Handle

variable {β : Type}

/-- What a check answers, case by case, to what is fetched. -/
inductive Judged (kind : RecordKind) (accessorId sourceHash : String) :
    Except Failure (Option Json) → Except Failure Fulfillment → Prop
  | unfetched (f : Failure) : Judged kind accessorId sourceHash (.error f) (.error f)
  | illFormed {stored : Json} {m : Mismatch} (undecoded : kind.decode stored = .error m) :
    Judged kind accessorId sourceHash (.ok (some stored)) (.error (.ofMismatch m))
  | current {stored : Json} {record : kind.Record} (decoded : kind.decode stored = .ok record)
      (same : kind.recordedHash record = some sourceHash) :
    Judged kind accessorId sourceHash (.ok (some stored)) (.ok (.ok ()))
  | absent : Judged kind accessorId sourceHash (.ok none) (.ok (.error ⟨⟨"Target package not found",
      "No metadata found for accessor \"" ++ accessorId ++ "\""⟩, true⟩))
  | outdated {stored : Json} {record : kind.Record} (decoded : kind.decode stored = .ok record)
      (other : kind.recordedHash record ≠ some sourceHash) :
    Judged kind accessorId sourceHash (.ok (some stored)) (.ok (.error
      ⟨⟨"Target version doesn't match source version", "Target records source version " ++
        (kind.recordedHash record).getD "(none)" ++ ", source is at " ++ sourceHash⟩, true⟩))

variable {kind : RecordKind} {accessorId sourceHash : String}
variable {fetched : Except Failure (Option Json)} {answer : Except Failure Fulfillment}

theorem exists_judged (kind : RecordKind) (accessorId sourceHash : String)
    (fetched : Except Failure (Option Json)) :
    ∃ answer, Judged kind accessorId sourceHash fetched answer := by
  match fetched with
  | .error f => exact ⟨_, .unfetched f⟩
  | .ok none => exact ⟨_, .absent⟩
  | .ok (some stored) =>
    cases decoded : kind.decode stored with
    | error m => exact ⟨_, .illFormed decoded⟩
    | ok record =>
      by_cases same : kind.recordedHash record = some sourceHash
      · exact ⟨_, .current decoded same⟩
      · exact ⟨_, .outdated decoded same⟩

theorem Judged.eq_answer (hcase : Judged kind accessorId sourceHash fetched answer) :
    answer = (readRecord kind.decode fetched).map (judge kind accessorId sourceHash) := by
  cases hcase with
  | unfetched f => rfl
  | absent => rfl
  | illFormed undecoded => simp only [readRecord, undecoded, Except.map]
  | current decoded same =>
    simp only [readRecord, decoded, Except.map, judge, staleness, if_pos same]
  | outdated decoded other =>
    simp only [readRecord, decoded, Except.map, judge, staleness, if_neg other]
    rfl

/-- The cases say all: each check answers as one of them says, and as no other. -/
theorem judged_iff : Judged kind accessorId sourceHash fetched answer ↔
    answer = (readRecord kind.decode fetched).map (judge kind accessorId sourceHash) :=
  case_iff_eq (exists_judged kind accessorId sourceHash fetched) (fun _ => Judged.eq_answer) answer

theorem Judged.failed_iff (hcase : Judged kind accessorId sourceHash fetched answer) :
    (∃ f, answer = .error f) ↔ (∃ f, fetched = .error f) ∨
      ∃ stored m, fetched = .ok (some stored) ∧ kind.decode stored = .error m := by
  cases hcase with
  | unfetched f => simp
  | absent => simp
  | illFormed undecoded => simp [undecoded]
  | current decoded same => simp [decoded]
  | outdated decoded other => simp [decoded]

theorem Judged.fulfilled_iff (hcase : Judged kind accessorId sourceHash fetched answer) :
    answer = .ok (.ok ()) ↔ ∃ stored record, fetched = .ok (some stored) ∧
      kind.decode stored = .ok record ∧ kind.recordedHash record = some sourceHash := by
  cases hcase with
  | unfetched f => simp
  | absent => simp
  | illFormed undecoded => simp [undecoded]
  | current decoded same => simp [decoded, same]
  | outdated decoded other => simp [decoded, other]

theorem Judged.refused_iff (hcase : Judged kind accessorId sourceHash fetched answer) :
    (∃ r, answer = .ok (.error r)) ↔ fetched = .ok none ∨
      ∃ stored record, fetched = .ok (some stored) ∧ kind.decode stored = .ok record ∧
        kind.recordedHash record ≠ some sourceHash := by
  cases hcase with
  | unfetched f => simp
  | absent => simp
  | illFormed undecoded => simp [undecoded]
  | current decoded same => simp [decoded, same]
  | outdated decoded other => simp [decoded, other]

theorem Judged.known (hcase : Judged kind accessorId sourceHash fetched answer) {r : Rejection}
    (hrefused : answer = .ok (.error r)) : r.known = true := by
  cases hcase with
  | unfetched f => cases hrefused
  | illFormed undecoded => cases hrefused
  | current decoded same => cases hrefused
  | absent =>
    obtain rfl := Except.error.inj (Except.ok.inj hrefused)
    rfl
  | outdated decoded other =>
    obtain rfl := Except.error.inj (Except.ok.inj hrefused)
    rfl

/-! ### The course of a check -/

theorem fetchRecord_eq {α : Type} (h : Handle β) (decode : Json → Decoded α) :
    h.fetchRecord decode = h.fetchMetadata.bind fun found => .done (readRecord decode found) := by
  refine congrArg (Plan.bind _) (funext fun found => ?_)
  match found with
  | .error f => rfl
  | .ok none => rfl
  | .ok (some stored) =>
    simp only [readRecord]
    cases decode stored with
    | error m => rfl
    | ok record => rfl

/-- A check fetches the record, follows it up, and answers by what was fetched. -/
theorem checkFulfilled_eq (h : Handle β) (kind : RecordKind) (sourceHash : String)
    (wasFulfilled : Bool) :
    h.checkFulfilled kind sourceHash wasFulfilled = h.fetchMetadata.bind fun found =>
      (h.followUp kind sourceHash wasFulfilled (readRecord kind.decode found)).bind fun _ =>
        .done ((readRecord kind.decode found).map (judge kind h.accessorId sourceHash)) := by
  rw [checkFulfilled, fetchRecord_eq, Plan.bind_eq, Plan.bind_assoc]
  refine congrArg (Plan.bind _) (funext fun found => ?_)
  rw [Plan.bind]
  cases readRecord kind.decode found with
  | error f => rfl
  | ok record =>
    simp only [followUp, Except.map, judge]
    cases staleness kind h.accessorId sourceHash record with
    | none => cases wasFulfilled <;> rfl
    | some r => cases wasFulfilled <;> rfl

theorem report_dropStale (h : Handle β) (s : β) :
    h.dropStale.report s =
      let removed := (h.remove "Target no longer matches source").run s
      ⟨(), removed.elapsed, removed.state, [⟨0, h.accessorId, .removePackage⟩]⟩ := by
  have hremoval := h.report_call .removePackage (h.remove "Target no longer matches source") s
  simp only [dropStale, Plan.say, Plan.bind_eq, Plan.bind, Plan.report_logged, Plan.report_bind,
    removePackage, hremoval]
  cases ((h.remove "Target no longer matches source").run s).answer with
  | ok u => rfl
  | error f => rfl

theorem followUp_of_error {h : Handle β} {read : Except Failure (Option kind.Record)}
    {r : Rejection} (hrefused : read.map (judge kind h.accessorId sourceHash) = .ok (.error r)) :
    h.followUp kind sourceHash true read = h.dropStale := by
  cases read with
  | error f => cases hrefused
  | ok record =>
    have hjudge := Except.ok.inj hrefused
    cases hstale : staleness kind h.accessorId sourceHash record with
    | none => simp [judge, hstale] at hjudge
    | some r' => simp [followUp, hstale]

theorem followUp_of_not {h : Handle β} {wasFulfilled : Bool}
    {read : Except Failure (Option kind.Record)}
    (hidle : wasFulfilled = false ∨
      ∀ r, read.map (judge kind h.accessorId sourceHash) ≠ .ok (.error r)) :
    h.followUp kind sourceHash wasFulfilled read = .done () := by
  cases hanswer : read.map (judge kind h.accessorId sourceHash) with
  | error f =>
    cases read with
    | error f => rfl
    | ok record => cases hanswer
  | ok fulfillment =>
    cases fulfillment with
    | ok u => exact followUp_of_ok hanswer
    | error r =>
      rcases hidle with rfl | hnot
      · cases read with
        | error f => rfl
        | ok record => rfl
      · exact absurd hanswer (hnot r)

theorem report_checkFulfilled (h : Handle β) (kind : RecordKind) (sourceHash : String)
    (wasFulfilled : Bool) (s : β) :
    (h.checkFulfilled kind sourceHash wasFulfilled).report s =
      let fetched := h.fetch.run s
      let read := readRecord kind.decode fetched.answer
      let rest := (h.followUp kind sourceHash wasFulfilled read).report fetched.state
      ⟨read.map (judge kind h.accessorId sourceHash), fetched.elapsed + rest.elapsed, rest.state,
        ⟨0, h.accessorId, .fetchMetadata⟩ ::
          rest.calls.map (HandleCall.later fetched.elapsed)⟩ := by
  have hfetch := h.report_call .fetchMetadata h.fetch s
  rw [checkFulfilled_eq, Plan.report_bind, fetchMetadata, hfetch]
  simp only [Plan.report_bind, Plan.report_done, List.map_nil, List.append_nil, Nat.add_zero]
  rfl

theorem answer_checkFulfilled (h : Handle β) (kind : RecordKind) (sourceHash : String)
    (wasFulfilled : Bool) (s : β) :
    ((h.checkFulfilled kind sourceHash wasFulfilled).report s).answer =
      (readRecord kind.decode (h.fetch.run s).answer).map (judge kind h.accessorId sourceHash) := by
  rw [report_checkFulfilled]

theorem report_of_removal {h : Handle β} {s : β} {r : Rejection}
    (hrefused : ((h.checkFulfilled kind sourceHash true).report s).answer = .ok (.error r)) :
    (h.checkFulfilled kind sourceHash true).report s =
      let fetched := h.fetch.run s
      let removed := (h.remove "Target no longer matches source").run fetched.state
      ⟨.ok (.error r), fetched.elapsed + removed.elapsed, removed.state,
        [⟨0, h.accessorId, .fetchMetadata⟩,
          ⟨fetched.elapsed, h.accessorId, .removePackage⟩]⟩ := by
  rw [answer_checkFulfilled] at hrefused
  simp only [report_checkFulfilled, followUp_of_error hrefused, report_dropStale, hrefused]
  rfl

theorem report_of_idle {h : Handle β} {wasFulfilled : Bool} {s : β}
    (hidle : wasFulfilled = false ∨
      ∀ r, ((h.checkFulfilled kind sourceHash wasFulfilled).report s).answer ≠ .ok (.error r)) :
    (h.checkFulfilled kind sourceHash wasFulfilled).report s =
      let fetched := h.fetch.run s
      ⟨(readRecord kind.decode fetched.answer).map (judge kind h.accessorId sourceHash),
        fetched.elapsed, fetched.state, [⟨0, h.accessorId, .fetchMetadata⟩]⟩ := by
  rw [answer_checkFulfilled] at hidle
  simp only [report_checkFulfilled, followUp_of_not hidle]
  rfl

/-- A check answers to what is fetched as the case says that applies.  Only a target that was
fulfilled and no longer is gets its package removed. -/
theorem fulfillment_decided (h : Handle β) (kind : RecordKind) (sourceHash : String)
    (wasFulfilled : Bool) (s : β) :
    let fetched := h.fetch.run s
    let course := (h.checkFulfilled kind sourceHash wasFulfilled).report s
    (∀ answer, Judged kind h.accessorId sourceHash fetched.answer answer ↔
        answer = course.answer) ∧
      ((∃ f, course.answer = .error f) ↔ (∃ f, fetched.answer = .error f) ∨
        ∃ stored m, fetched.answer = .ok (some stored) ∧ kind.decode stored = .error m) ∧
      (course.answer = .ok (.ok ()) ↔ ∃ stored record, fetched.answer = .ok (some stored) ∧
        kind.decode stored = .ok record ∧ kind.recordedHash record = some sourceHash) ∧
      ((∃ r, course.answer = .ok (.error r)) ↔ fetched.answer = .ok none ∨
        ∃ stored record, fetched.answer = .ok (some stored) ∧ kind.decode stored = .ok record ∧
          kind.recordedHash record ≠ some sourceHash) ∧
      (∀ r, course.answer = .ok (.error r) → r.known = true) ∧
      (∀ (remove : String → Backend β (Except Failure Unit)) (wasFulfilled : Bool),
        let other : Handle β := { h with remove := remove }
        ((other.checkFulfilled kind sourceHash wasFulfilled).report s).answer = course.answer) ∧
      (∀ r, course.answer = .ok (.error r) → wasFulfilled = true →
        let removed := (h.remove "Target no longer matches source").run fetched.state
        course.calls = [⟨0, h.accessorId, .fetchMetadata⟩,
            ⟨fetched.elapsed, h.accessorId, .removePackage⟩] ∧
          course.elapsed = fetched.elapsed + removed.elapsed ∧ course.state = removed.state) ∧
      (wasFulfilled = false ∨ (∀ r, course.answer ≠ .ok (.error r)) →
        course.calls = [⟨0, h.accessorId, .fetchMetadata⟩] ∧
          course.elapsed = fetched.elapsed ∧ course.state = fetched.state) := by
  intro fetched course
  have hanswer := h.answer_checkFulfilled kind sourceHash wasFulfilled s
  have hcase : Judged kind h.accessorId sourceHash fetched.answer course.answer :=
    judged_iff.2 hanswer
  have hcases : ∀ answer, Judged kind h.accessorId sourceHash fetched.answer answer ↔
      answer = course.answer := by
    intro answer
    rw [judged_iff, show course.answer = _ from hanswer]
  refine ⟨hcases, hcase.failed_iff, hcase.fulfilled_iff, hcase.refused_iff,
    fun r hrefused => hcase.known hrefused, fun remove was => ?_, ?_, fun hidle => ?_⟩
  · intro other
    exact (other.answer_checkFulfilled kind sourceHash was s).trans hanswer.symm
  · rintro r hrefused rfl
    have hreport : course = _ := report_of_removal hrefused
    rw [hreport]
    exact ⟨rfl, rfl, rfl⟩
  · have hreport : course = _ := report_of_idle hidle
    rw [hreport]
    exact ⟨rfl, rfl, rfl⟩

end Handle
end PackageHandling
