import PackageHandling.Proofs.Job.Frame
import PackageHandling.Proofs.Job.Outcome

/-!
# The stages of a body and of a cleanup

The body of a job and its cleanup go through their stages side by side, each by its own acts.  No
act of the cleanup has a part in the stage of the body: a body may be started and take its first
step although the job was cleaned up and is cancelled.  The main statement is `body_unhindered`.
-/

namespace PackageHandling

def Act.ofBody : Act → Bool
  | start | beginBody | endBody _ => true
  | _ => false

def Act.ofCleanup : Act → Bool
  | cancel | callCleanup | endCleanup _ => true
  | _ => false

namespace BodyStage

def after (stage : BodyStage) : Act → BodyStage
  | .start => if stage = absent then scheduled else stage
  | .beginBody => if stage = scheduled then running else stage
  | .endBody e => if stage = running then .over e else stage
  | _ => stage

theorem after_of_not_ofBody {a : Act} (h : a.ofBody = false) (stage : BodyStage) :
    stage.after a = stage := by
  cases a with
  | start | beginBody | endBody e => cases h
  | _ => rfl

end BodyStage

namespace CleanupStage

def after (stage : CleanupStage) : Act → CleanupStage
  | .cancel => if stage = none then requested else stage
  | .callCleanup => if stage = requested then running else stage
  | .endCleanup _ => if stage = running then ended else stage
  | _ => stage

theorem after_of_not_ofCleanup {a : Act} (h : a.ofCleanup = false) (stage : CleanupStage) :
    stage.after a = stage := by
  cases a with
  | cancel | callCleanup | endCleanup e => cases h
  | _ => rfl

end CleanupStage

theorem foldl_filter_of_skip {α β : Type} {f : β → α → β} {p : α → Bool}
    (skip : ∀ a, p a = false → ∀ b, f b a = b) (l : List α) (b : β) :
    l.foldl f b = (l.filter p).foldl f b := by
  induction l generalizing b with
  | nil => rfl
  | cons a l ih =>
    cases hp : p a with
    | true => rw [List.filter_cons_of_pos hp, List.foldl_cons, List.foldl_cons, ih]
    | false => rw [List.filter_cons_of_neg (by simp [hp]), List.foldl_cons, skip a hp, ih]

namespace Scene

/-- How far the body and the cleanup are, and with them what the job remembers of this. -/
structure At (s : Scene) (b : BodyStage) (c : CleanupStage) : Prop where
  body : s.body = b
  started : s.job.started = true ↔ b ≠ .absent
  cleanup : s.job.cleanup = c
  cancelled : s.job.cancelled = true ↔ c ≠ .none

variable {s : Scene} {b : BodyStage} {c : CleanupStage}

theorem At.self (h : s.At b c) : s.At s.body s.job.cleanup := by
  rw [h.body, h.cleanup]
  exact h

theorem At.ownBody (h : s.At b c) : s.At s.body c := by
  rw [h.body]
  exact h

theorem start_at (h : s.At b c) : (s.act .start).At (b.after .start) c := by
  obtain ⟨rfl, hstarted, rfl, hcancelled⟩ := h
  by_cases habsent : s.body = .absent
  · have hnot : s.job.started = false := by simpa [habsent] using hstarted
    simp only [act, Job.start, hnot, BodyStage.after, habsent]
    exact ⟨rfl, by simp, rfl, hcancelled⟩
  · have hstarted' : s.job.started = true := hstarted.2 habsent
    simp only [act, Job.start, hstarted', BodyStage.after, if_neg habsent]
    exact ⟨rfl, hstarted, rfl, hcancelled⟩

theorem beginBody_at (h : s.At b c) : (s.act .beginBody).At (b.after .beginBody) c := by
  obtain ⟨rfl, hstarted, rfl, hcancelled⟩ := h
  by_cases hscheduled : s.body = .scheduled
  · simp only [act, BodyStage.after, if_pos hscheduled]
    exact ⟨rfl, by simpa [hscheduled] using hstarted, rfl, hcancelled⟩
  · simp only [act, BodyStage.after, if_neg hscheduled]
    exact ⟨rfl, hstarted, rfl, hcancelled⟩

theorem endBody_at (h : s.At b c) (e : BodyEnd) :
    (s.act (.endBody e)).At (b.after (.endBody e)) c := by
  obtain ⟨rfl, hstarted, rfl, hcancelled⟩ := h
  obtain ⟨outcome, events, hk⟩ := Job.endBody_frame e s.job
  by_cases hrunning : s.body = .running
  · simp only [act, become, hk, BodyStage.after, if_pos hrunning]
    exact ⟨rfl, by simpa [hrunning] using hstarted, rfl, hcancelled⟩
  · simp only [act, BodyStage.after, if_neg hrunning]
    exact ⟨rfl, hstarted, rfl, hcancelled⟩

theorem cancel_at (h : s.At b c) : (s.act .cancel).At b (c.after .cancel) := by
  obtain ⟨rfl, hstarted, rfl, hcancelled⟩ := h
  by_cases hnone : s.job.cleanup = .none
  · simp only [act, Job.requestCancel, CleanupStage.after, if_pos hnone]
    exact ⟨rfl, hstarted, rfl, by simp⟩
  · simp only [act, Job.requestCancel, CleanupStage.after, if_neg hnone]
    exact ⟨rfl, hstarted, rfl, hcancelled⟩

theorem callCleanup_at (h : s.At b c) : (s.act .callCleanup).At b (c.after .callCleanup) := by
  obtain ⟨rfl, hstarted, rfl, hcancelled⟩ := h
  by_cases hrequested : s.job.cleanup = .requested
  · simp only [act, Job.beginCleanup, CleanupStage.after, if_pos hrequested]
    exact ⟨rfl, hstarted, rfl, by simpa [hrequested] using hcancelled⟩
  · simp only [act, CleanupStage.after, if_neg hrequested]
    exact ⟨rfl, hstarted, rfl, hcancelled⟩

theorem endCleanup_at (h : s.At b c) (e : CleanupEnd) :
    (s.act (.endCleanup e)).At b (c.after (.endCleanup e)) := by
  obtain ⟨rfl, hstarted, rfl, hcancelled⟩ := h
  obtain ⟨outcome, events, cancelError, hk⟩ := Job.settleCleanup_frame e s.job
  by_cases hrunning : s.job.cleanup = .running
  · simp only [act, become, Job.endCleanup, hk, CleanupStage.after, if_pos hrunning]
    exact ⟨rfl, hstarted, rfl, by simpa [hrunning] using hcancelled⟩
  · simp only [act, CleanupStage.after, if_neg hrunning]
    exact ⟨rfl, hstarted, rfl, hcancelled⟩

/-- What a job reports and shows, and its answers to callers, leave the stages alone. -/
theorem act_at (h : s.At b c) (a : Act) : (s.act a).At (b.after a) (c.after a) := by
  have ⟨hbody, hstarted, hcleanup, hcancelled⟩ := h
  cases a with
  | start => exact start_at h
  | beginBody => exact beginBody_at h
  | endBody e => exact endBody_at h e
  | cancel => exact cancel_at h
  | callCleanup => exact callCleanup_at h
  | endCleanup e => exact endCleanup_at h e
  | report r =>
    cases r with
    | progress hash fraction => exact ⟨hbody, hstarted, hcleanup, hcancelled⟩
    | complete hash reason result =>
      obtain ⟨outcome, events, hk⟩ := Job.reportComplete_frame hash reason result s.job
      simp only [act, report, become, hk]
      exact ⟨hbody, hstarted, hcleanup, hcancelled⟩
    | error reason =>
      obtain ⟨outcome, events, hk⟩ := Job.reportError_frame reason s.job
      simp only [act, report, become, hk]
      exact ⟨hbody, hstarted, hcleanup, hcancelled⟩
  | fire i =>
    obtain ⟨events, hk⟩ := Job.flush_frame s.job
    rcases s.act_fire i with hact | ⟨due, -, -, hact⟩
    · rw [hact]
      exact h
    · rw [hact, become, hk]
      exact ⟨hbody, hstarted, hcleanup, hcancelled⟩
  | answerCancel i =>
    obtain ⟨cancelError, cancels, hact⟩ := s.act_answerCancel i
    rw [hact]
    exact ⟨hbody, hstarted, hcleanup, hcancelled⟩
  | wait => exact ⟨hbody, hstarted, hcleanup, hcancelled⟩
  | leaveCancel i | answerWait i | leaveWait i | pass ms =>
    simp only [act, leaveCancel, answerWait, leaveWait]
    split
    · exact ⟨hbody, hstarted, hcleanup, hcancelled⟩
    · exact h

theorem run_at (h : s.At b c) (acts : List Act) :
    (s.run acts).At (acts.foldl BodyStage.after b) (acts.foldl CleanupStage.after c) := by
  induction acts generalizing s b c with
  | nil => exact h
  | cons a acts ih => exact ih (act_at h a)

theorem fresh_run_at (label : String) (config : Config) (acts : List Act) :
    ((fresh label config).run acts).At (acts.foldl BodyStage.after .absent)
      (acts.foldl CleanupStage.after .none) :=
  run_at ⟨rfl, by simp [fresh, Job.create], rfl, by simp [fresh, Job.create]⟩ acts

/-- Time stands still for a body that is about to take its first step. -/
theorem idle_of_scheduled (h : s.body = .scheduled) (ms : Nat) : s.idle ms = false := by
  simp [idle, h]

/-- Whether a job was cancelled makes no difference to its body, nor its body to the cleanup. -/
theorem body_unhindered (label : String) (config : Config) (acts : List Act) :
    let s := (fresh label config).run acts
    s.body = ((fresh label config).run (acts.filter Act.ofBody)).body ∧
    s.job.cleanup = ((fresh label config).run (acts.filter Act.ofCleanup)).job.cleanup ∧
    (s.body = .absent → (s.act .start).body = .scheduled) ∧
    (s.body = .scheduled → (∀ ms, s.idle ms = false) ∧ (s.act .beginBody).body = .running) ∧
    (s.job.outcome = some .cancelled → ∀ more,
      (s.run more).body = more.foldl BodyStage.after s.body ∧
      (s.run more).job.outcome = some .cancelled ∧ (s.run more).job.events = s.job.events) := by
  intro s
  have hat := fresh_run_at label config acts
  have hs : s.At s.body s.job.cleanup := hat.self
  refine ⟨?_, ?_, ?_, ?_, ?_⟩
  · rw [hat.body, (fresh_run_at label config _).body]
    exact foldl_filter_of_skip (fun _ ha => BodyStage.after_of_not_ofBody ha) acts _
  · rw [hat.cleanup, (fresh_run_at label config _).cleanup]
    exact foldl_filter_of_skip (fun _ ha => CleanupStage.after_of_not_ofCleanup ha) acts _
  · intro habsent
    rw [(act_at hs .start).body, BodyStage.after, if_pos habsent]
  · intro hscheduled
    exact ⟨idle_of_scheduled hscheduled,
      by rw [(act_at hs .beginBody).body, BodyStage.after, if_pos hscheduled]⟩
  · intro hcancelled more
    exact ⟨(run_at hs more).body, run_of_ended hcancelled more⟩

/-- Cleaned up before the start, and right after it: both bodies run in a cancelled job. -/
theorem body_runs_after_cleanup :
    let config := Config.default fun _ => none
    let cleanup : List Act := [.cancel, .callCleanup, .endCleanup .succeeded]
    let s := (fresh "copy" config).run (cleanup ++ [.start])
    let t := (fresh "copy" config).run (.start :: cleanup)
    (s.job.cleanup = .ended ∧ s.job.outcome = some .cancelled ∧ s.body = .scheduled ∧
      (s.act .beginBody).body = .running) ∧
    (t.job.cleanup = .ended ∧ t.job.outcome = some .cancelled ∧ t.body = .scheduled ∧
      (t.act .beginBody).body = .running) :=
  ⟨⟨rfl, rfl, rfl, rfl⟩, ⟨rfl, rfl, rfl, rfl⟩⟩

end Scene
end PackageHandling
