import PackageHandling.Proofs.Job.Teardown

/-!
# The cleanup that callers of cancel share

Any number of callers may cancel a job, at any times, and any of them may be dropped.  They share
one cleanup: its callback is called once, when the first of them comes, and nobody is answered
before it has ended, by itself or cut off at the cancel timeout.  The main statement is
`cancel_answered`.
-/

namespace PackageHandling
namespace Scene

def mark? (s : Scene) : Act → Option CleanupMark
  | .cancel => if s.job.cleanup = .none then some .requested else none
  | .callCleanup => if s.job.cleanup = .requested then some .called else none
  | .endCleanup e => if s.job.cleanup = .running then some (.ended e) else none
  | _ => none

def marks (s : Scene) : List Act → CleanupCourse
  | [] => []
  | a :: acts => (s.mark? a).toList.map (s.now, ·) ++ (s.act a).marks acts

/-- What callers of cancel depend on, after a cleanup has taken this course. -/
def teardown (s : Scene) (course : CleanupCourse) : Teardown where
  timeout := s.job.cancelTimeout
  now := s.now
  stage := s.job.cleanup
  due := s.cleanupDue
  error := s.job.cancelError
  ended := s.job.ended
  calls := s.cancels
  course := course

theorem act_ended (s : Scene) (a : Act) (h : s.job.ended = true) : (s.act a).job.ended = true := by
  obtain ⟨o, ho⟩ := Option.ne_none_iff_exists'.1 (Job.ended_iff.1 h)
  simp [Job.ended, ((act_moves s a).of_ended ho).1]

/-- An act that leaves the cleanup and its callers alone can at most end the job. -/
theorem quiet_step {s : Scene} {a : Act} {course : CleanupCourse} (unmarked : s.mark? a = none)
    (frame : (s.act a).teardown course =
      { s.teardown course with ended := (s.act a).job.ended }) :
    (s.teardown course).Step
      ((s.act a).teardown (course ++ (s.mark? a).toList.map (s.now, ·))) := by
  rw [unmarked, Option.toList_none, List.map_nil, List.append_nil, frame]
  exact .settle _ (act_ended s a)

theorem cancel_step (s : Scene) (course : CleanupCourse) :
    (s.teardown course).Step
      ((s.act .cancel).teardown (course ++ (s.mark? .cancel).toList.map (s.now, ·))) := by
  by_cases hnone : s.job.cleanup = .none
  · simp only [act, Job.requestCancel, mark?, if_pos hnone]
    exact .request hnone
  · simp only [act, Job.requestCancel, mark?, if_neg hnone, Option.toList_none, List.map_nil,
      List.append_nil]
    exact .join hnone

theorem callCleanup_step (s : Scene) (course : CleanupCourse) :
    (s.teardown course).Step
      ((s.act .callCleanup).teardown (course ++ (s.mark? .callCleanup).toList.map (s.now, ·))) := by
  by_cases hrequested : s.job.cleanup = .requested
  · simp only [act, mark?, if_pos hrequested]
    exact .call hrequested
  · refine quiet_step (by simp only [mark?, if_neg hrequested]) ?_
    simp only [act, if_neg hrequested]
    rfl

theorem endCleanup_step (s : Scene) (e : CleanupEnd) (course : CleanupCourse) :
    (s.teardown course).Step
      ((s.act (.endCleanup e)).teardown
        (course ++ (s.mark? (.endCleanup e)).toList.map (s.now, ·))) := by
  by_cases hrunning : s.job.cleanup = .running
  · have hfinish : (s.act (.endCleanup e)).teardown (course ++ [(s.now, .ended e)]) =
        (s.teardown course).finish e := by
      obtain ⟨outcome, events, cancelError, hk⟩ := Job.settleCleanup_frame e s.job
      have herror := Job.cancelError_settleCleanup e s.job
      have hended := Job.ended_settleCleanup e s.job
      simp only [hk, Job.ended] at herror hended
      simp only [act, if_pos hrunning, become, teardown, hk, Job.endCleanup, Job.ended,
        Teardown.finish, herror, hended]
    simp only [mark?, if_pos hrunning, Option.toList_some, List.map_cons, List.map_nil]
    rw [hfinish]
    exact .finish hrunning e
  · refine quiet_step (by simp only [mark?, if_neg hrunning]) ?_
    simp only [act, if_neg hrunning]
    rfl

theorem answerCancel_step (s : Scene) (i : Nat) (course : CleanupCourse) :
    (s.teardown course).Step ((s.act (.answerCancel i)).teardown course) := by
  simp only [act, answerCancel, Job.takeCancelError_eq]
  split
  · next hi hended => exact .answer hended i true hi
  · next hi hended => exact .answer hended i false hi
  · exact .rest

theorem leaveCancel_step (s : Scene) (i : Nat) (course : CleanupCourse) :
    (s.teardown course).Step ((s.act (.leaveCancel i)).teardown course) := by
  simp only [act, leaveCancel]
  split
  · next first hi => exact .leave i first hi
  · exact .rest

theorem pass_step (s : Scene) (ms : Nat) (course : CleanupCourse) :
    (s.teardown course).Step ((s.act (.pass ms)).teardown course) := by
  simp only [act]
  split
  · next hidle =>
    simp only [idle, Bool.and_eq_true, bne_iff_ne, Option.all_eq_true, decide_eq_true_eq] at hidle
    exact .pass ms hidle.1.1.2 hidle.1.1.1.1.2
  · exact .rest

theorem teardown_step (s : Scene) (a : Act) (course : CleanupCourse) :
    (s.teardown course).Step
      ((s.act a).teardown (course ++ (s.mark? a).toList.map (s.now, ·))) := by
  cases a with
  | cancel => exact cancel_step s course
  | callCleanup => exact callCleanup_step s course
  | endCleanup e => exact endCleanup_step s e course
  | answerCancel i => simpa [mark?] using answerCancel_step s i course
  | leaveCancel i => simpa [mark?] using leaveCancel_step s i course
  | pass ms => simpa [mark?] using pass_step s ms course
  | start =>
    refine quiet_step rfl ?_
    rcases s.act_start with hact | ⟨-, hact⟩
    · rw [hact]
      rfl
    · rw [hact]
      rfl
  | report r =>
    refine quiet_step rfl ?_
    cases r with
    | progress hash fraction => rfl
    | complete hash reason result =>
      obtain ⟨outcome, events, hk⟩ := Job.reportComplete_frame hash reason result s.job
      simp only [act, report, hk]
      rfl
    | error reason =>
      obtain ⟨outcome, events, hk⟩ := Job.reportError_frame reason s.job
      simp only [act, report, hk]
      rfl
  | endBody e =>
    refine quiet_step rfl ?_
    obtain ⟨outcome, events, hk⟩ := Job.endBody_frame e s.job
    simp only [act, hk]
    split <;> rfl
  | fire i =>
    refine quiet_step rfl ?_
    obtain ⟨events, hk⟩ := Job.flush_frame s.job
    rcases s.act_fire i with hact | ⟨due, -, -, hact⟩
    · rw [hact]
      rfl
    · rw [hact, hk]
      rfl
  | wait => exact quiet_step rfl rfl
  | beginBody | answerWait i | leaveWait i =>
    refine quiet_step rfl ?_
    simp only [act, answerWait, leaveWait]
    split <;> rfl

theorem run_shared {s : Scene} {course : CleanupCourse} (h : (s.teardown course).Shared)
    (acts : List Act) : ((s.run acts).teardown (course ++ s.marks acts)).Shared := by
  induction acts generalizing s course with
  | nil => simpa [marks] using h
  | cons a acts ih =>
    rw [run_cons, marks, ← List.append_assoc]
    exact ih (h.step (teardown_step s a course))

theorem fresh_shared (label : String) (config : Config) :
    ((fresh label config).teardown []).Shared := by
  refine ⟨.unasked, .inl ⟨rfl, rfl⟩, ?_, fun _ => rfl, ?_, ?_⟩
  · intro first r hmem
    cases hmem
  · intro t e he
    cases he
  · intro t e he
    cases he

theorem run_cancelTimeout (s : Scene) (acts : List Act) :
    (s.run acts).job.cancelTimeout = s.job.cancelTimeout := by
  refine run_keeps (P := fun t => t.job.cancelTimeout = s.job.cancelTimeout) ?_ rfl acts
  intro t a ht
  exact (teardown_step t a []).timeout.trans ht

/-- Time stands still for a caller that waits although the cleanup has ended. -/
theorem idle_of_waiting {s : Scene} (hended : s.job.cleanup = .ended) {i : Nat} {first : Bool}
    (hi : s.cancels[i]? = some (first, .waiting)) (ms : Nat) : s.idle ms = false := by
  have hany : s.cancels.any (·.2.isWaiting) = true :=
    List.any_eq_true.2 ⟨_, List.mem_of_getElem? hi, rfl⟩
  simp [idle, hended, hany]

theorem answerCancel_of_ended {s : Scene} {course : CleanupCourse}
    (h : (s.teardown course).Shared) {t : Nat} {e : CleanupEnd} (he : (t, .ended e) ∈ course)
    {i : Nat} {first : Bool} (hi : s.cancels[i]? = some (first, .waiting)) :
    (s.act (.answerCancel i)).cancels[i]? = some (first, .returned (Teardown.verdict first e)) := by
  have hended : s.job.cleanup = .ended := h.runs.stage_eq_ended he
  obtain ⟨hlt, -⟩ := List.getElem?_eq_some_iff.1 hi
  cases first with
  | false =>
    simp only [act, answerCancel, hi, hended]
    exact List.getElem?_set_self hlt
  | true =>
    have herror : s.job.cancelError = e.failure? := h.kept t e he i hi
    simp only [act, answerCancel, hi, hended, Job.takeCancelError_eq, herror]
    exact List.getElem?_set_self hlt

theorem leaveCancel_frame (s : Scene) (i : Nat) :
    ∃ cancels, s.act (.leaveCancel i) = { s with cancels } ∧
      ∀ k, k ≠ i → cancels[k]? = s.cancels[k]? := by
  simp only [act, leaveCancel]
  split
  · exact ⟨_, rfl, fun k hk => List.getElem?_set_ne (Ne.symm hk)⟩
  · exact ⟨s.cancels, rfl, fun _ _ => rfl⟩

/-- However many callers cancel a job: the callback is called once and ends within the cancel
timeout; then, and not before, all who still wait are answered, the first one with its failure. -/
theorem cancel_answered (label : String) (config : Config) (acts : List Act) :
    let s := (fresh label config).run acts
    let course := (fresh label config).marks acts
    CleanupRuns config.cancelTimeout s.now s.job.cleanup s.cleanupDue course ∧
    ((s.job.cleanup = .none ∧ s.cancels = []) ∨
      (s.job.cleanup ≠ .none ∧ LedByFirst s.cancels)) ∧
    (∀ first r, (first, Call.returned r) ∈ s.cancels →
      ∃ t e, (t, .ended e) ∈ course ∧ r = Teardown.verdict first e ∧
        ((∃ f, r = .error f) ↔
          first = true ∧ ((∃ f, e = .failed f) ∨ ∃ message, e = .panicked message))) ∧
    (∀ t e, (t, .ended e) ∈ course →
      (e ≠ .callPanicked → s.job.outcome ≠ none) ∧
      ∀ (i : Nat) first, s.cancels[i]? = some (first, .waiting) →
        (∀ ms, s.idle ms = false) ∧
        (s.act (.answerCancel i)).cancels[i]? =
          some (first, .returned (Teardown.verdict first e))) ∧
    (∀ i, ∃ cancels, s.act (.leaveCancel i) = { s with cancels } ∧
      ∀ k, k ≠ i → cancels[k]? = s.cancels[k]?) ∧
    ∀ {β ν : Type} (callback : Plan β ν CleanupEnd) (b : β),
      let c := (s.job.boundCleanup callback).run b
      if (callback.run b).elapsed ≤ config.cancelTimeout then
        c.answer = (callback.run b).answer ∧ c.elapsed = (callback.run b).elapsed
      else
        c.answer = .failed (.elapsed "cancel work" config.cancelTimeout) ∧
          c.elapsed = config.cancelTimeout := by
  intro s course
  have h : (s.teardown course).Shared := run_shared (fresh_shared label config) acts
  have htimeout : s.job.cancelTimeout = config.cancelTimeout :=
    run_cancelTimeout (fresh label config) acts
  rw [← htimeout]
  refine ⟨h.runs, h.callers, ?_, ?_, s.leaveCancel_frame, s.job.run_boundCleanup⟩
  · intro first r hmem
    obtain ⟨t, e, he, rfl⟩ := h.answers first r hmem
    exact ⟨t, e, he, rfl, Teardown.verdict_error_iff first e⟩
  · intro t e he
    constructor
    · intro hawaited
      exact Job.ended_iff.1 (h.settled t e he (CleanupEnd.wasAwaited_iff.2 hawaited))
    · intro i first hi
      exact ⟨idle_of_waiting (h.runs.stage_eq_ended he) hi, answerCancel_of_ended h he hi⟩

end Scene
end PackageHandling
