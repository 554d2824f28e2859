import PackageHandling.Job

/-!
# What the steps of a job leave alone

Each step of a job is a change of the few fields that are named here; all others stay.
-/

namespace PackageHandling
namespace Job

theorem finish_frame (o : JobOutcome) (e : Option JobEvent) (j : Job) :
    ∃ outcome events, j.finish o e = { j with outcome, events } := by
  rw [finish]
  split
  · exact ⟨j.outcome, j.events, rfl⟩
  · exact ⟨some o, j.events ++ e.toList, rfl⟩

theorem reportComplete_frame (hash : Option String) (reason : Reason) (result : Option Json)
    (j : Job) : ∃ outcome events, (reportComplete hash reason result j).1 =
      { j with hash, fraction := .one, outcome, events } := by
  simp only [reportComplete]
  obtain ⟨outcome, events, h⟩ := finish_frame (.done hash reason result)
    (some (.done hash reason result)) { j with hash, fraction := .one }
  exact ⟨outcome, events, h⟩

theorem reportError_frame (reason : Reason) (j : Job) :
    ∃ outcome events, (reportError reason j).1 = { j with outcome, events } :=
  finish_frame (.failed reason) (some (.failed reason)) j

theorem endBody_frame (e : BodyEnd) (j : Job) :
    ∃ outcome events, (endBody e j).1 = { j with outcome, events } := by
  cases e with
  | returned => exact ⟨j.outcome, j.events, rfl⟩
  | failed full =>
    simp only [endBody]
    split
    · exact ⟨j.outcome, j.events, rfl⟩
    · exact reportError_frame _ j
  | panicked message =>
    simp only [endBody]
    split
    · exact ⟨j.outcome, j.events, rfl⟩
    · exact reportError_frame _ j

theorem failCleanup_frame (f : Failure) (j : Job) : ∃ outcome events,
    (failCleanup f j).1 = { j with outcome, events, cancelError := some f } := by
  obtain ⟨outcome, events, h⟩ := finish_frame .cancelled none { j with cancelError := some f }
  exact ⟨outcome, events, h⟩

theorem settleCleanup_frame (e : CleanupEnd) (j : Job) : ∃ outcome events cancelError,
    (settleCleanup e j).1 = { j with outcome, events, cancelError } := by
  cases e with
  | succeeded =>
    obtain ⟨outcome, events, h⟩ := finish_frame .cancelled none j
    exact ⟨outcome, events, j.cancelError, h⟩
  | failed f =>
    obtain ⟨outcome, events, h⟩ := failCleanup_frame f j
    exact ⟨outcome, events, some f, h⟩
  | panicked message =>
    obtain ⟨outcome, events, h⟩ := failCleanup_frame _ j
    exact ⟨outcome, events, _, h⟩
  | callPanicked => exact ⟨j.outcome, j.events, j.cancelError, rfl⟩

theorem flush_frame (j : Job) : ∃ events, j.flush = { j with flushPending := false, events } := by
  simp only [flush]
  split
  · exact ⟨j.events, rfl⟩
  · exact ⟨_, rfl⟩

end Job
end PackageHandling
