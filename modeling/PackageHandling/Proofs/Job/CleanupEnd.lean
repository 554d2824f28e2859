import PackageHandling.Proofs.Job.Failing
import PackageHandling.Proofs.Job.LateReports

/-!
# What the end of a cleanup leaves

A cleanup whose callback returned something to wait for leaves an outcome, and an error for the
caller that started it if it failed.  A callback that panics in the call itself takes the whole
cleanup with it, and leaves neither: then nothing but a report of the body can end the job.  The
main statement is `cleanup_end_recorded`.
-/

namespace PackageHandling
namespace Scene

/-- The caller that started the cleanup is told this and nothing else, and without delay. -/
structure FirstTold (s : Scene) (r : Except Failure Unit) : Prop where
  unanimous : ∀ r', (true, .returned r') ∈ s.cancels → r' = r
  prompt : ∀ i : Nat, s.cancels[i]? = some (true, .waiting) → (∀ ms, s.idle ms = false) ∧
    (s.act (.answerCancel i)).cancels[i]? = some (true, .returned r)

variable {s : Scene} {course : CleanupCourse}

theorem firstTold_of_ended (h : (s.teardown course).Shared) {t : Nat} {e : CleanupEnd}
    (he : (t, .ended e) ∈ course) :
    s.FirstTold (Teardown.verdict true e) where
  unanimous r hr := by
    obtain ⟨t', e', he', rfl⟩ := h.answers true r hr
    rw [h.runs.eq_of_ended he he']
  prompt i hi := ⟨idle_of_waiting (h.runs.stage_eq_ended he) hi, answerCancel_of_ended h he hi⟩

/-- A cleanup that has ended without leaving an outcome. -/
structure Abandoned (s : Scene) : Prop where
  stages : s.At s.body .ended
  unended : s.job.outcome = none

theorem Abandoned.outcome_act (h : s.Abandoned) {a : Act}
    (ha : ∀ r, a = .report r → r.isTerminal = false) : (s.act a).job.outcome = none := by
  rcases act_moves s a with ⟨houtcome, -⟩ | ⟨o, possible, -, houtcome, -⟩ | ⟨-, houtcome, -⟩
  · exact houtcome.trans h.unended
  · cases a with
    | report r =>
      cases r with
      | progress => cases possible
      | complete | error => cases ha _ rfl
    | endBody e =>
      -- The job is cancelled, so whatever its body ends with is dropped.
      have hcancelled : s.job.cancelled = true := h.stages.cancelled.2 (by simp)
      simp only [act, Job.endBody_of_cancelled hcancelled]
      split
      · exact h.unended
      · exact h.unended
    | endCleanup e =>
      simp only [act, h.stages.cleanup, reduceCtorEq, if_false]
      exact h.unended
    | _ => cases possible
  · exact houtcome

theorem Abandoned.act (h : s.Abandoned) {a : Act}
    (ha : ∀ r, a = .report r → r.isTerminal = false) : (s.act a).Abandoned where
  stages := by
    have hstage : CleanupStage.ended.after a = .ended := by cases a <;> rfl
    exact hstage ▸ (act_at h.stages a).ownBody
  unended := h.outcome_act ha

theorem ended_terminal_report (s : Scene) {r : JobReport} (terminal : r.isTerminal = true) :
    (s.act (.report r)).job.ended = true := by
  cases r with
  | progress => cases terminal
  | complete hash reason result => exact Job.ended_finish _ _ { s.job with hash, fraction := .one }
  | error reason => exact Job.ended_finish _ _ s.job

/-- Nothing but a terminal report can end a job whose cleanup was abandoned. -/
theorem Abandoned.run_outcome (h : s.Abandoned) (acts : List Act) :
    (s.run acts).job.outcome ≠ none ↔ ∃ r, .report r ∈ acts ∧ r.isTerminal = true := by
  induction acts generalizing s with
  | nil => simp [h.unended]
  | cons a acts ih =>
    by_cases hterminal : ∃ r, a = .report r ∧ r.isTerminal = true
    · obtain ⟨r, rfl, hr⟩ := hterminal
      have hended : (s.run (.report r :: acts)).job.ended = true :=
        run_keeps act_ended (s.ended_terminal_report hr) acts
      exact iff_of_true (Job.ended_iff.1 hended) ⟨r, List.mem_cons_self, hr⟩
    · have hquiet : ∀ r, a = .report r → r.isTerminal = false := fun r hr =>
        Bool.eq_false_iff.2 fun hterm => hterminal ⟨r, hr, hterm⟩
      rw [run_cons, ih (h.act hquiet)]
      refine exists_congr fun r => and_congr_left fun hr => ?_
      rw [List.mem_cons, or_iff_right]
      rintro rfl
      exact hterminal ⟨r, rfl, hr⟩

/-- From its end on, the callers depend on how the callback has ended. -/
theorem shared_after_end (h : (s.teardown course).Shared) (running : s.job.cleanup = .running)
    (e : CleanupEnd) (after : List Act) :
    ∃ course' t, (((s.act (.endCleanup e)).run after).teardown course').Shared ∧
      (t, .ended e) ∈ course' := by
  refine ⟨_, s.now, run_shared h (.endCleanup e :: after), List.mem_append_right _ ?_⟩
  simp [marks, mark?, running]

theorem outcome_endCleanup (running : s.job.cleanup = .running) (unended : s.job.outcome = none)
    {e : CleanupEnd} (awaited : e ≠ .callPanicked) :
    (s.act (.endCleanup e)).job.outcome = some .cancelled := by
  have hsettled := Job.outcome_settleCleanup awaited s.job
  rw [unended] at hsettled
  simp only [act, if_pos running]
  exact hsettled

theorem abandoned_endCleanup {b : BodyStage} (h : s.At b .running)
    (unended : s.job.outcome = none) : (s.act (.endCleanup .callPanicked)).Abandoned where
  stages := (act_at h (.endCleanup .callPanicked)).ownBody
  unended := by
    simp only [act, if_pos h.cleanup]
    exact unended

/-- However the callback of a cleanup ends while nothing has ended the job: the job is cancelled,
and the first caller is told of the failure, unless the callback panicked in the call itself. -/
theorem cleanup_end_recorded (label : String) (config : Config) (before after : List Act)
    (e : CleanupEnd) (running : ((fresh label config).run before).job.cleanup = .running)
    (unended : ((fresh label config).run before).job.outcome = none) :
    let s := (fresh label config).run before
    let u := (s.act (.endCleanup e)).run after
    (∀ first r, (first, .returned r) ∉ s.cancels) ∧ u.FirstTold (Teardown.verdict true e) ∧
    (∀ f, Teardown.verdict true e = .error f ↔ e = .failed f ∨
      ∃ message, e = .panicked message ∧ f = .other ("cancel cleanup panicked: " ++ message) []) ∧
    (∀ {β ν : Type} (callback : Plan β ν CleanupEnd) (b : β),
      config.cancelTimeout < (callback.run b).elapsed →
      ((s.job.boundCleanup callback).run b).answer =
        .failed (.elapsed "cancel work" config.cancelTimeout)) ∧
    (e ≠ .callPanicked → u.job.outcome = some .cancelled ∧
      ∀ i, u.waits[i]? = some .waiting →
        (u.act (.answerWait i)).waits[i]? = some (.returned .cancelled)) ∧
    (e = .callPanicked →
      (u.job.outcome ≠ none ↔ ∃ r, .report r ∈ after ∧ r.isTerminal = true) ∧
      (u.job.outcome = none → (∀ i, u.act (.answerWait i) = u) ∧ ∀ o, .returned o ∉ u.waits)) := by
  intro s u
  have hat := (fresh_run_at label config before).self
  rw [running] at hat
  have hshared : (s.teardown ((fresh label config).marks before)).Shared :=
    run_shared (fresh_shared label config) before
  obtain ⟨course, t, hafter, hend⟩ := shared_after_end hshared running e after
  have hbefore : s.job.cleanup ≠ .ended := by
    rw [running]
    decide
  refine ⟨hshared.unanswered hbefore, firstTold_of_ended hafter hend,
    fun f => Teardown.verdict_first_iff, ?_, ?_, ?_⟩
  · intro β ν callback b hlong
    have htimeout : s.job.cancelTimeout = config.cancelTimeout :=
      run_cancelTimeout (fresh label config) before
    have hcut := s.job.run_boundCleanup callback b
    simp only [htimeout, if_neg (Nat.not_le.2 hlong)] at hcut
    exact hcut.1
  · intro awaited
    have hcancelled : u.job.outcome = some .cancelled :=
      (run_of_ended (outcome_endCleanup running unended awaited) after).1
    exact ⟨hcancelled, fun i => answerWait_of_ended hcancelled⟩
  · rintro rfl
    have hfresh : (fresh label config).Answered := by simp [Answered, fresh]
    have hanswered : u.Answered :=
      run_keeps act_answered (act_answered _ _ (run_keeps act_answered hfresh before)) after
    refine ⟨(abandoned_endCleanup hat unended).run_outcome after, fun hnone => ?_⟩
    refine ⟨answerWait_of_running hnone, fun o ho => ?_⟩
    rw [hanswered o ho] at hnone
    cases hnone

/-- One callback panics while it is waited for, the other in the call itself. -/
theorem cleanup_end_recorded_for_panics :
    let s := (fresh "copy" (.default fun _ => none)).run
      [.start, .beginBody, .wait, .cancel, .callCleanup]
    let u := (s.act (.endCleanup (.panicked "disk full"))).run [.answerCancel 0]
    let v := (s.act (.endCleanup .callPanicked)).run
      [.answerCancel 0, .endBody (.failed "disk full")]
    s.job.cleanup = .running ∧ s.job.outcome = none ∧
      u.FirstTold (.error (.other ("cancel cleanup panicked: " ++ "disk full") [])) ∧
      u.job.outcome = some .cancelled ∧
      v.FirstTold (.ok ()) ∧ v.job.outcome = none ∧ ∀ i, v.act (.answerWait i) = v := by
  intro s u v
  have running : s.job.cleanup = .running := rfl
  have unended : s.job.outcome = none := rfl
  obtain ⟨-, htold, -, -, hrecorded, -⟩ := cleanup_end_recorded "copy" (.default fun _ => none)
    [.start, .beginBody, .wait, .cancel, .callCleanup] [.answerCancel 0] (.panicked "disk full")
    running unended
  obtain ⟨-, htold', -, -, -, hlost⟩ := cleanup_end_recorded "copy" (.default fun _ => none)
    [.start, .beginBody, .wait, .cancel, .callCleanup]
    [.answerCancel 0, .endBody (.failed "disk full")] .callPanicked running unended
  obtain ⟨houtcome, hwaits⟩ := hlost rfl
  have hnone : v.job.outcome = none := Classical.not_not.1 (mt houtcome.1 (by simp))
  exact ⟨running, unended, htold, (hrecorded (by simp)).1, htold', hnone, (hwaits hnone).1⟩

/-- The caller is told that all went well, and whoever waits for an outcome goes on waiting. -/
theorem panicked_call_unrecorded :
    let s := (fresh "copy" (.default fun _ => none)).run
      [.wait, .cancel, .callCleanup, .endCleanup .callPanicked, .answerCancel 0]
    s.cancels[0]? = some (true, .returned (.ok ())) ∧ s.job.outcome = none ∧
      (∀ ms, s.idle ms = true) ∧ (s.act (.answerWait 0)).waits[0]? = some .waiting :=
  ⟨rfl, rfl, fun _ => rfl, rfl⟩

end Scene
end PackageHandling
