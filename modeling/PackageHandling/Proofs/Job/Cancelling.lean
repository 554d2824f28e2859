import PackageHandling.Proofs.Job.Frame
import PackageHandling.Proofs.Job.Outcome

/-!
# Cancelling a job that completes

The cleanup of a cancel takes no notice of a completion, nor a completion of the cleanup.  So a job
can be done although its cleanup was called, in exactly two ways: it was done already when the
cleanup was called, or it is reported complete before its cleanup has given it another outcome.
-/

namespace PackageHandling
namespace Job

/-- The cleanup callback was called, whatever became of it. -/
def CleanupCalled (j : Job) : Prop := j.cleanup = .running ∨ j.cleanup = .ended

def IsDone (j : Job) : Prop := ∃ hash reason result, j.outcome = some (.done hash reason result)

/-- Reported as successful, and torn down. -/
def TornDown (j : Job) : Prop := j.CleanupCalled ∧ j.IsDone

end Job

namespace Scene

/-- A cleanup is requested by a cancel, called, and ended, and no other act touches it. -/
theorem act_cleanup (s : Scene) (a : Act) :
    (s.act a).job.cleanup = s.job.cleanup ∨
      (s.job.cleanup = .none ∧ (s.act a).job.cleanup = .requested) ∨
      (a = .callCleanup ∧ s.job.cleanup = .requested ∧ (s.act a).job.cleanup = .running) ∨
      (s.job.cleanup = .running ∧ (s.act a).job.cleanup = .ended) := by
  cases a with
  | start =>
    left
    rcases s.act_start with hact | ⟨-, hact⟩ <;> rw [hact]
  | report r =>
    cases r with
    | progress hash fraction => exact .inl rfl
    | complete hash reason result =>
      obtain ⟨outcome, events, h⟩ := Job.reportComplete_frame hash reason result s.job
      exact .inl (by simp [act, report, become, h])
    | error reason =>
      obtain ⟨outcome, events, h⟩ := Job.reportError_frame reason s.job
      exact .inl (by simp [act, report, become, h])
  | endBody e =>
    obtain ⟨outcome, events, h⟩ := Job.endBody_frame e s.job
    left
    simp only [act, become, h]
    split <;> rfl
  | fire i =>
    obtain ⟨events, h⟩ := Job.flush_frame s.job
    left
    rcases s.act_fire i with hact | ⟨due, -, -, hact⟩
    · rw [hact]
    · rw [hact, become, h]
  | cancel =>
    simp only [act, Job.requestCancel]
    split
    · next hnone => exact .inr (.inl ⟨hnone, rfl⟩)
    · exact .inl rfl
  | callCleanup =>
    simp only [act]
    split
    · next hrequested => exact .inr (.inr (.inl ⟨trivial, hrequested, rfl⟩))
    · exact .inl rfl
  | endCleanup e =>
    simp only [act]
    split
    · next hrunning => exact .inr (.inr (.inr ⟨hrunning, rfl⟩))
    · exact .inl rfl
  | answerCancel i =>
    obtain ⟨cancelError, cancels, hact⟩ := s.act_answerCancel i
    left
    rw [hact]
  | beginBody | leaveCancel i | wait | answerWait i | leaveWait i | pass ms =>
    left
    simp only [act, leaveCancel, answerWait, leaveWait]
    repeat' split
    all_goals rfl

theorem act_cleanupCalled (s : Scene) (a : Act) :
    (s.act a).job.CleanupCalled ↔
      s.job.CleanupCalled ∨ (a = .callCleanup ∧ s.job.cleanup = .requested) := by
  constructor
  · intro h
    rcases act_cleanup s a with heq | ⟨-, hnew⟩ | ⟨rfl, hold, -⟩ | ⟨hold, -⟩
    · left
      rwa [Job.CleanupCalled, heq] at h
    · rw [Job.CleanupCalled, hnew] at h
      rcases h with h | h <;> cases h
    · exact .inr ⟨rfl, hold⟩
    · exact .inl (.inl hold)
  · rintro (h | ⟨rfl, h⟩)
    · rcases act_cleanup s a with heq | ⟨hold, -⟩ | ⟨-, -, hnew⟩ | ⟨-, hnew⟩
      · rwa [Job.CleanupCalled, heq]
      · rw [Job.CleanupCalled, hold] at h
        rcases h with h | h <;> cases h
      · exact .inl hnew
      · exact .inr hnew
    · left
      simp only [act, if_pos h, Job.beginCleanup]

/-- Only a completion makes a job done, and only where there is no outcome yet. -/
theorem act_isDone (s : Scene) (a : Act) :
    (s.act a).job.IsDone ↔ s.job.IsDone ∨ (s.job.outcome = none ∧
      ∃ hash reason result, a = .report (.complete hash reason result)) := by
  constructor
  · rintro ⟨hash, reason, result, h⟩
    rcases act_moves s a with ⟨houtcome, -⟩ | ⟨o, hpossible, hrunning, houtcome, -⟩ |
      ⟨-, houtcome, -⟩
    · exact .inl ⟨hash, reason, result, houtcome.symm.trans h⟩
    · obtain rfl := Option.some.inj (houtcome.symm.trans h)
      refine .inr ⟨hrunning, hash, reason, result, ?_⟩
      cases a with
      | report r =>
        cases r with
        | progress hash' fraction => cases hpossible
        | complete hash' reason' result' => cases hpossible; rfl
        | error reason' => cases hpossible
      | endBody e => obtain ⟨reason', hreason⟩ := hpossible; cases hreason
      | _ => cases hpossible
    · rw [houtcome] at h
      cases h
  · rintro (⟨hash, reason, result, h⟩ | ⟨h, hash, reason, result, rfl⟩)
    · exact ⟨hash, reason, result, ((act_moves s a).of_ended h).1⟩
    · refine ⟨hash, reason, result, ?_⟩
      have hfinish := Job.finish_of_running (j := { s.job with hash, fraction := .one }) h
        (.done hash reason result) (some (.done hash reason result))
      simp only [act, report, become, Job.reportComplete, hfinish]

/-- The two ways to tear down a job that is done: to call its cleanup when it is done already, and
to report it complete after the call while it has no outcome. -/
def Tears (s : Scene) (a : Act) : Prop :=
  (a = .callCleanup ∧ s.job.cleanup = .requested ∧ s.job.IsDone) ∨
    ((∃ hash reason result, a = .report (.complete hash reason result)) ∧
      s.job.CleanupCalled ∧ s.job.outcome = none)

theorem act_tornDown (s : Scene) (a : Act) :
    (s.act a).job.TornDown ↔ s.job.TornDown ∨ s.Tears a := by
  rw [Job.TornDown, act_cleanupCalled, act_isDone]
  constructor
  · rintro ⟨hcalled | ⟨rfl, hrequested⟩, hdone | ⟨hrunning, hcomplete⟩⟩
    · exact .inl ⟨hcalled, hdone⟩
    · exact .inr (.inr ⟨hcomplete, hcalled, hrunning⟩)
    · exact .inr (.inl ⟨rfl, hrequested, hdone⟩)
    · obtain ⟨hash, reason, result, h⟩ := hcomplete
      cases h
  · rintro (⟨hcalled, hdone⟩ | ⟨ha, hrequested, hdone⟩ | ⟨hcomplete, hcalled, hrunning⟩)
    · exact ⟨.inl hcalled, .inl hdone⟩
    · exact ⟨.inr ⟨ha, hrequested⟩, .inl hdone⟩
    · exact ⟨.inl hcalled, .inr ⟨hrunning, hcomplete⟩⟩

/-- A run tears its job down by one of its acts, or it was torn down before. -/
theorem run_tornDown (s : Scene) (acts : List Act) :
    (s.run acts).job.TornDown ↔ s.job.TornDown ∨
      ∃ before a after, acts = before ++ a :: after ∧ (s.run before).Tears a := by
  induction acts generalizing s with
  | nil => simp
  | cons b acts ih =>
    rw [run_cons, ih, act_tornDown, or_assoc]
    refine or_congr Iff.rfl ⟨?_, ?_⟩
    · rintro (h | ⟨before, a, after, rfl, h⟩)
      · exact ⟨[], b, acts, rfl, h⟩
      · exact ⟨b :: before, a, after, rfl, h⟩
    · rintro ⟨before, a, after, hacts, h⟩
      cases before with
      | nil =>
        cases hacts
        exact .inl h
      | cons c before =>
        cases hacts
        exact .inr ⟨before, a, after, rfl, h⟩

/-- In every order of acts, a job that is done has been cleaned up exactly when an act of the run
did this in one of the two ways. -/
theorem tornDown_iff (label : String) (config : Config) (acts : List Act) :
    ((fresh label config).run acts).job.TornDown ↔ ∃ before a after,
      acts = before ++ a :: after ∧ ((fresh label config).run before).Tears a := by
  have hfresh : ¬(fresh label config).job.TornDown := by
    rintro ⟨-, hash, reason, result, h⟩
    cases h
  rw [run_tornDown, or_iff_right hfresh]

/-- A cancel after the completion, and a completion during the cleanup. -/
theorem done_and_cleaned_up :
    ((fresh "copy" (.default fun _ => none)).run [.start, .beginBody,
      .report (.complete none ⟨"", ""⟩ none), .endBody .returned, .cancel,
      .callCleanup]).job.TornDown ∧
    ((fresh "copy" (.default fun _ => none)).run [.start, .beginBody, .cancel, .callCleanup,
      .report (.complete none ⟨"", ""⟩ none), .endCleanup .succeeded]).job.TornDown :=
  ⟨⟨.inl rfl, none, ⟨"", ""⟩, none, rfl⟩, ⟨.inr rfl, none, ⟨"", ""⟩, none, rfl⟩⟩

end Scene
end PackageHandling
