import PackageHandling.Proofs.Job.SharedCleanup
import PackageHandling.Proofs.Job.Stages

/-!
# Bodies that fail

The failure of a body is the outcome of its job, unless the job is cancelled: then it is dropped,
and the cleanup is left to end the job.  The two take turns in any order, and a failure is never
lost between them: the main statement is `failure_settled`.
-/

namespace PackageHandling

/-- The reason that a body leaves that has failed. -/
def BodyEnd.failure? : BodyEnd → Option Reason
  | returned => none
  | failed full => some ⟨"Work failed", full⟩
  | panicked message => some ⟨"Work failed unexpectedly", message⟩

namespace Job

def CleanupPending (j : Job) : Prop := j.cleanup = .requested ∨ j.cleanup = .running

theorem endBody_of_failure {e : BodyEnd} {reason : Reason} (h : e.failure? = some reason)
    (j : Job) : (endBody e j).1 = if j.cancelled then j else (reportError reason j).1 := by
  cases e with
  | returned => cases h
  | failed full =>
    obtain rfl := Option.some.inj h
    simp only [endBody]
    split <;> rfl
  | panicked message =>
    obtain rfl := Option.some.inj h
    simp only [endBody]
    split <;> rfl

theorem endBody_of_cancelled {j : Job} (h : j.cancelled = true) (e : BodyEnd) :
    (endBody e j).1 = j := by
  cases e <;> simp [endBody, h]

/-- A cleanup that was awaited ends its job as cancelled, if nothing has ended it before. -/
theorem outcome_settleCleanup {e : CleanupEnd} (h : e ≠ .callPanicked) (j : Job) :
    (settleCleanup e j).1.outcome = some (j.outcome.getD .cancelled) := by
  have hfinish : ∀ k : Job, (k.finish .cancelled none).outcome =
      some (k.outcome.getD .cancelled) := by
    intro k
    cases houtcome : k.outcome with
    | some o =>
      rw [finish_of_ended (by simp [houtcome]), houtcome]
      rfl
    | none =>
      rw [finish_of_running houtcome]
      rfl
  cases e with
  | succeeded => exact hfinish j
  | failed f => exact hfinish { j with cancelError := some f }
  | panicked message => exact hfinish { j with cancelError := _ }
  | callPanicked => exact absurd rfl h

end Job

theorem BodyStage.over_of_after {stage : BodyStage} {a : Act} {e : BodyEnd}
    (h : stage.after a = .over e) : stage = .over e ∨ (a = .endBody e ∧ stage = running) := by
  cases a with
  | start =>
    simp only [after] at h
    split at h
    · cases h
    · exact .inl h
  | beginBody =>
    simp only [after] at h
    split at h
    · cases h
    · exact .inl h
  | endBody e' =>
    simp only [after] at h
    split at h
    · next hrunning =>
      cases h
      exact .inr ⟨rfl, hrunning⟩
    · exact .inl h
  | _ => exact .inl h

namespace CleanupStage

theorem after_ne_none {stage : CleanupStage} (h : stage ≠ none) (a : Act) :
    stage.after a ≠ none := by
  cases a with
  | cancel | callCleanup | endCleanup e =>
    simp only [after]
    split
    · simp
    · exact h
  | _ => exact h

/-- Nobody but a caller of cancel asks for a cleanup. -/
theorem foldl_after_of_no_cancel {acts : List Act} (h : .cancel ∉ acts) :
    acts.foldl after none = none := by
  induction acts with
  | nil => rfl
  | cons a acts ih =>
    obtain ⟨ha, hacts⟩ := not_or.1 (mt List.mem_cons.2 h)
    have hnone : after none a = none := by
      cases a with
      | cancel => exact absurd rfl ha
      | _ => rfl
    rw [List.foldl_cons, hnone, ih hacts]

end CleanupStage

namespace Scene

/-- A body that failed has left an outcome, or somebody has asked for a cleanup. -/
structure Accounted (s : Scene) : Prop where
  stages : s.At s.body s.job.cleanup
  failed : ∀ e reason, s.body = .over e → e.failure? = some reason →
    s.job.ended = true ∨ s.job.cleanup ≠ .none

/-- A failure that is dropped is dropped because of a cancel, whose cleanup is never taken back. -/
theorem act_accounted (s : Scene) (a : Act) (h : s.Accounted) : (s.act a).Accounted := by
  have hat := act_at h.stages a
  refine ⟨hat.self, ?_⟩
  intro e reason hover hreason
  rcases BodyStage.over_of_after (hat.body.symm.trans hover) with hold | ⟨rfl, hrunning⟩
  · rcases h.failed e reason hold hreason with hended | hasked
    · exact .inl (act_ended s a hended)
    · right
      rw [hat.cleanup]
      exact CleanupStage.after_ne_none hasked a
  · simp only [act, if_pos hrunning, become, Job.endBody_of_failure hreason]
    cases hcancelled : s.job.cancelled with
    | true =>
      rw [if_pos rfl]
      exact .inr (h.stages.cancelled.1 hcancelled)
    | false =>
      rw [if_neg Bool.false_ne_true]
      exact .inl (Job.ended_finish _ _ s.job)

theorem fresh_accounted (label : String) (config : Config) : (fresh label config).Accounted :=
  ⟨fresh_run_at label config [], fun _ _ hover => by cases hover⟩

variable {s : Scene} {course : CleanupCourse}

/-- A cleanup that has been asked for is under way, or has left an outcome, or panicked before there
was anything to wait for. -/
theorem cleanup_settles (h : (s.teardown course).Shared) (asked : s.job.cleanup ≠ .none) :
    s.job.outcome ≠ none ∨ s.job.CleanupPending ∨ ∃ t, (t, .ended .callPanicked) ∈ course := by
  cases hcleanup : s.job.cleanup with
  | none => exact absurd hcleanup asked
  | requested => exact .inr (.inl (.inl hcleanup))
  | running => exact .inr (.inl (.inr hcleanup))
  | ended =>
    have hruns := h.runs
    simp only [teardown, hcleanup] at hruns
    obtain ⟨t, e, he⟩ := hruns.exists_end
    by_cases hpanicked : e = .callPanicked
    · exact .inr (.inr ⟨t, hpanicked ▸ he⟩)
    · have hended := h.settled t e he (CleanupEnd.wasAwaited_iff.2 hpanicked)
      exact .inl (Job.ended_iff.1 hended)

/-- A cleanup that runs is cut off at the cancel timeout, and time cannot pass beyond that. -/
theorem cleanup_inTime (h : (s.teardown course).Shared) (running : s.job.cleanup = .running) :
    ∃ t, (t, .called) ∈ course ∧
      ∀ ms, s.idle ms = true → s.now + ms ≤ t + s.job.cancelTimeout := by
  have hruns := h.runs
  simp only [teardown, running] at hruns
  obtain ⟨t, hdue, hcourse, -, -⟩ := hruns.called_eq
  refine ⟨t, by simp [hcourse], ?_⟩
  intro ms hidle
  simp only [idle, hdue, Bool.and_eq_true, Option.all_some, decide_eq_true_eq] at hidle
  exact hidle.1.1.1.1.2

theorem endBody_of_uncancelled {label : String} {config : Config} {before : List Act} {e : BodyEnd}
    {reason : Reason} (hrunning : ((fresh label config).run before).body = .running)
    (hreason : e.failure? = some reason) (hcancel : .cancel ∉ before)
    (hnone : ((fresh label config).run before).job.outcome = none) :
    (((fresh label config).run before).act (.endBody e)).job.outcome = some (.failed reason) := by
  have hat := fresh_run_at label config before
  rw [CleanupStage.foldl_after_of_no_cancel hcancel] at hat
  have hcancelled : ((fresh label config).run before).job.cancelled = false := by
    simpa using hat.cancelled
  simp only [act, if_pos hrunning, become, Job.endBody_of_failure hreason, hcancelled,
    Bool.false_eq_true, if_false, Job.reportError, Job.finish_of_running hnone]

/-- A job whose body has failed has an outcome, or a cleanup that is under way and leaves one within
the cancel timeout, or one whose callback panicked in the call itself. -/
theorem failure_settled (label : String) (config : Config) (acts : List Act) :
    let s := (fresh label config).run acts
    (∀ e reason, s.body = .over e → e.failure? = some reason →
      s.job.outcome ≠ none ∨ s.job.CleanupPending ∨
        ∃ t, (t, .ended .callPanicked) ∈ (fresh label config).marks acts) ∧
    (s.job.cleanup = .requested →
      (∀ ms, s.idle ms = false) ∧ (s.act .callCleanup).job.cleanup = .running) ∧
    (s.job.cleanup = .running →
      (∃ t, (t, .called) ∈ (fresh label config).marks acts ∧
        ∀ ms, s.idle ms = true → s.now + ms ≤ t + config.cancelTimeout) ∧
      ∀ e, e ≠ .callPanicked →
        (s.act (.endCleanup e)).job.outcome = some (s.job.outcome.getD .cancelled)) ∧
    (∀ before e after reason, acts = before ++ .endBody e :: after →
      ((fresh label config).run before).body = .running → e.failure? = some reason →
      .cancel ∉ before → ((fresh label config).run before).job.outcome = none →
      s.job.outcome = some (.failed reason)) := by
  intro s
  have haccounted : s.Accounted := run_keeps act_accounted (fresh_accounted label config) acts
  have hshared : (s.teardown ((fresh label config).marks acts)).Shared :=
    run_shared (fresh_shared label config) acts
  have htimeout : s.job.cancelTimeout = config.cancelTimeout :=
    run_cancelTimeout (fresh label config) acts
  refine ⟨?_, ?_, ?_, ?_⟩
  · intro e reason hover hreason
    rcases haccounted.failed e reason hover hreason with hended | hasked
    · exact .inl (Job.ended_iff.1 hended)
    · exact cleanup_settles hshared hasked
  · intro hrequested
    refine ⟨fun ms => by simp [idle, hrequested], ?_⟩
    rw [(act_at haccounted.stages .callCleanup).cleanup, CleanupStage.after, if_pos hrequested]
  · intro hrunning
    refine ⟨htimeout ▸ cleanup_inTime hshared hrunning, ?_⟩
    intro e he
    simp only [act, if_pos hrunning, become, Job.endCleanup]
    exact Job.outcome_settleCleanup he s.job
  · rintro before e after reason rfl hbody hreason hcancel hnone
    have hfailed := endBody_of_uncancelled hbody hreason hcancel hnone
    rw [show s = _ from run_append ..]
    exact (run_of_ended hfailed after).1

/-- A failure that is dropped, and the outcome that the cleanup leaves in its place. -/
example :
    let s := (fresh "copy" (Config.default fun _ => none)).run
      [.start, .beginBody, .cancel, .endBody (.failed "disk full"), .callCleanup]
    s.job.outcome = none ∧ s.job.cleanup = .running ∧
      (s.act (.endCleanup .succeeded)).job.outcome = some .cancelled :=
  ⟨rfl, rfl, rfl⟩

end Scene
end PackageHandling
