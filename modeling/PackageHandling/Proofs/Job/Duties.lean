import Mathlib.Data.List.Perm.Basic
import PackageHandling.Proofs.Job.Cancelling

/-!
# What a scene owes

In a scene some things are still to be done by somebody: a timer has to fire, a body has to come to
its end, a caller has to be answered.  Each act takes such duties on or discharges them.
-/

namespace PackageHandling

/-- Something that is still to be done. -/
inductive Duty
  | timer (due : Nat) | beginBody | endBody | callCleanup | endCleanup (due : Nat)
  | answerCancel (i : Nat) (first : Bool) | answerWait (i : Nat)
  deriving DecidableEq

namespace Duty

variable (x y : Duty) (ds : List Duty) (d : Duty)

theorem count_discharged :
    ds.count d + [x].count d = (x :: ds).count d + ([] : List Duty).count d := by
  simp [List.count_cons]

theorem count_taken :
    (x :: ds).count d + ([] : List Duty).count d = ds.count d + [x].count d :=
  (count_discharged x ds d).symm

theorem count_exchanged : (y :: ds).count d + [x].count d = (x :: ds).count d + [y].count d := by
  have hx := count_discharged x ds d
  have hy := count_discharged y ds d
  omega

end Duty

namespace Scene

/-- How often a scene owes a duty. -/
def owes (s : Scene) : Duty → Nat
  | .timer due => s.timers.count due
  | .beginBody => if s.body = .scheduled then 1 else 0
  | .endBody => if s.body = .running then 1 else 0
  | .callCleanup => if s.job.cleanup = .requested then 1 else 0
  | .endCleanup due => if s.cleanupDue = some due then 1 else 0
  | .answerCancel i first => if s.cancels[i]?.any fun c => c.1 = first ∧ c.2.isWaiting then 1 else 0
  | .answerWait i => if s.waits[i]?.any (·.isWaiting) then 1 else 0

/-- Each duty but that of a timer is owed once or not at all, on its own condition. -/
theorem of_owed {p : Prop} [Decidable p] (h : 0 < if p then 1 else 0) : p := by
  split at h
  · assumption
  · cases h

/-- A body is there only in a job that was started, and a limit only while the cleanup runs. -/
structure Sane (s : Scene) : Prop where
  body : s.job.started = false → s.body = .absent
  cleanup : s.cleanupDue.isSome ↔ s.job.cleanup = .running

theorem Sane.become {s : Scene} {k : Job} (h : s.Sane) (hstarted : k.started = s.job.started)
    (hcleanup : k.cleanup = s.job.cleanup) : (s.become k).Sane :=
  ⟨fun hk => h.body (hstarted.symm.trans hk), by rw [Scene.become, hcleanup]; exact h.cleanup⟩

theorem act_sane (s : Scene) (a : Act) (h : s.Sane) : (s.act a).Sane := by
  cases a with
  | start =>
    rcases s.act_start with hact | ⟨-, hact⟩
    · rw [hact]
      exact h
    · rw [hact]
      refine ⟨fun hfalse => ?_, h.cleanup⟩
      cases hfalse
  | beginBody =>
    simp only [act]
    split
    · next hscheduled =>
      refine ⟨fun hstarted => ?_, h.cleanup⟩
      rw [h.body hstarted] at hscheduled
      cases hscheduled
    · exact h
  | report r =>
    cases r with
    | progress hash fraction => exact ⟨h.body, h.cleanup⟩
    | complete hash reason result =>
      obtain ⟨outcome, events, hk⟩ := Job.reportComplete_frame hash reason result s.job
      exact h.become (by rw [hk]) (by rw [hk])
    | error reason =>
      obtain ⟨outcome, events, hk⟩ := Job.reportError_frame reason s.job
      exact h.become (by rw [hk]) (by rw [hk])
  | endBody e =>
    simp only [act]
    split
    · next hrunning =>
      obtain ⟨outcome, events, hk⟩ := Job.endBody_frame e s.job
      refine ⟨fun hstarted => ?_, by simp only [Scene.become, hk]; exact h.cleanup⟩
      simp only [Scene.become, hk] at hstarted
      rw [h.body hstarted] at hrunning
      cases hrunning
    · exact h
  | fire i =>
    obtain ⟨events, hk⟩ := Job.flush_frame s.job
    rcases s.act_fire i with hact | ⟨due, -, -, hact⟩
    · rw [hact]
      exact h
    · have hbecome := h.become (k := s.job.flush) (by rw [hk]) (by rw [hk])
      rw [hact]
      exact ⟨hbecome.body, hbecome.cleanup⟩
  | cancel =>
    simp only [act, Job.requestCancel]
    split
    · next hnone =>
      have hdue := h.cleanup
      exact ⟨h.body, by simpa [hnone] using hdue⟩
    · exact ⟨h.body, h.cleanup⟩
  | callCleanup =>
    simp only [act]
    split
    · exact ⟨h.body, by simp [Job.beginCleanup]⟩
    · exact h
  | endCleanup e =>
    simp only [act]
    split
    · obtain ⟨outcome, events, cancelError, hk⟩ := Job.settleCleanup_frame e s.job
      refine ⟨?_, by simp [Scene.become, Job.endCleanup]⟩
      simp only [Scene.become, hk, Job.endCleanup]
      exact h.body
    · exact h
  | answerCancel i =>
    obtain ⟨cancelError, cancels, hact⟩ := s.act_answerCancel i
    rw [hact]
    exact ⟨h.body, h.cleanup⟩
  | wait => exact ⟨h.body, h.cleanup⟩
  | leaveCancel i | answerWait i | leaveWait i | pass ms =>
    simp only [act, leaveCancel, answerWait, leaveWait]
    split <;> exact ⟨h.body, h.cleanup⟩

/-- An act changes the duties of a scene by those it takes on and those it discharges. -/
def Trades (s s' : Scene) (discharged taken : List Duty) : Prop :=
  ∀ d, s'.owes d + discharged.count d = s.owes d + taken.count d

theorem trades_progress (s : Scene) (hash : Option String) (fraction : Fraction) :
    s.Trades (s.act (.report (.progress hash fraction))) []
      (if s.job.flushPending then [] else [.timer (s.now + s.job.progressInterval)]) := by
  intro d
  cases hpending : s.job.flushPending with
  | true => cases d <;> simp [owes, act, report, Job.reportProgress, hpending]
  | false =>
    cases d <;> simp [owes, act, report, Job.reportProgress, hpending, List.count_singleton]

theorem trades_finish {s : Scene} {k : Job} (h : k.cleanup = s.job.cleanup) :
    s.Trades (s.become k) [] [] := by
  intro d
  cases d <;> simp [owes, become, h]

theorem trades_fire {s : Scene} {i due : Nat} (harmed : s.timers[i]? = some due)
    (hdue : due ≤ s.now) : s.Trades (s.act (.fire i)) [.timer due] [] := by
  intro d
  obtain ⟨events, hflush⟩ := Job.flush_frame s.job
  simp only [act, fire, harmed, if_neg (Nat.not_lt.2 hdue), become, hflush]
  cases d with
  | timer due' =>
    obtain ⟨hi, hget⟩ := List.getElem?_eq_some_iff.1 harmed
    have hperm := (List.getElem_cons_eraseIdx_perm hi).count_eq due'
    rw [hget] at hperm
    simpa [owes, List.count_cons, List.count_singleton] using hperm
  | _ => simp [owes]

theorem trades_start {s : Scene} {j : Job} {log : List LogEvent} (hsane : s.Sane)
    (hstart : s.job.start = .ok (j, log)) : s.Trades (s.act .start) [] [.beginBody] := by
  have hstarted : s.job.started = false := by
    cases hs : s.job.started with
    | true => rw [Job.start, if_pos hs] at hstart; cases hstart
    | false => rfl
  have hbody := hsane.body hstarted
  have hj : j.cleanup = s.job.cleanup := by
    rw [Job.start, if_neg (by simp [hstarted])] at hstart
    cases hstart
    rfl
  intro d
  simp only [act, hstart]
  cases d <;> simp [owes, hbody, hj]

theorem trades_beginBody {s : Scene} (h : s.body = .scheduled) :
    s.Trades (s.act .beginBody) [.beginBody] [.endBody] := by
  intro d
  simp only [act, if_pos h]
  cases d <;> simp [owes, h]

theorem trades_endBody {s : Scene} (h : s.body = .running) (e : BodyEnd) :
    s.Trades (s.act (.endBody e)) [.endBody] [] := by
  intro d
  obtain ⟨outcome, events, hend⟩ := Job.endBody_frame e s.job
  simp only [act, if_pos h, become, hend]
  cases d <;> simp [owes, h]

theorem any_getElem?_concat {α : Type} (l : List α) (c : α) (i : Nat) (p : α → Bool) :
    (l ++ [c])[i]?.any p = if i = l.length then p c else l[i]?.any p := by
  by_cases hi : i = l.length
  · simp [hi]
  · rw [if_neg hi]
    rcases Nat.lt_or_gt_of_ne hi with hlt | hgt
    · rw [List.getElem?_append_left hlt]
    · rw [List.getElem?_eq_none (by simp; omega), List.getElem?_eq_none (by omega)]

theorem any_getElem?_set {α : Type} {l : List α} {i : Nat} (hi : i < l.length) (c : α) (k : Nat)
    (p : α → Bool) : (l.set i c)[k]?.any p = if k = i then p c else l[k]?.any p := by
  by_cases hk : k = i
  · simp [hk, hi]
  · rw [if_neg hk, List.getElem?_set_ne (Ne.symm hk)]

theorem trades_cancel (s : Scene) :
    s.Trades (s.act .cancel) []
      ((if s.job.requestCancel.2 then [.callCleanup] else []) ++
        [.answerCancel s.cancels.length s.job.requestCancel.2]) := by
  intro d
  by_cases hnone : s.job.cleanup = .none
  · simp only [act, Job.requestCancel, if_pos hnone, if_true]
    cases d with
    | callCleanup => simp [owes, hnone]
    | answerCancel i first =>
      simp only [owes, any_getElem?_concat]
      by_cases hi : i = s.cancels.length
      · cases first <;> simp [hi]
      · simp [hi, Ne.symm hi]
    | _ => simp [owes]
  · simp only [act, Job.requestCancel, if_neg hnone]
    cases d with
    | answerCancel i first =>
      simp only [owes, any_getElem?_concat]
      by_cases hi : i = s.cancels.length
      · cases first <;> simp [hi]
      · simp [hi, Ne.symm hi]
    | _ => simp [owes]

theorem trades_callCleanup {s : Scene} (h : s.job.cleanup = .requested) (hsane : s.Sane) :
    s.Trades (s.act .callCleanup) [.callCleanup] [.endCleanup (s.now + s.job.cancelTimeout)] := by
  intro d
  have hdue : s.cleanupDue = none := by
    have := hsane.cleanup
    simpa [h] using this
  simp only [act, if_pos h, Job.beginCleanup]
  cases d <;> simp [owes, h, hdue, List.count_singleton]

theorem trades_endCleanup {s : Scene} {due : Nat} (h : s.job.cleanup = .running)
    (hdue : s.cleanupDue = some due) (e : CleanupEnd) :
    s.Trades (s.act (.endCleanup e)) [.endCleanup due] [] := by
  intro d
  simp only [act, if_pos h, become, Job.endCleanup]
  cases d <;> simp [owes, h, hdue, List.count_singleton]

theorem trades_wait (s : Scene) : s.Trades (s.act .wait) [] [.answerWait s.waits.length] := by
  intro d
  simp only [act]
  cases d with
  | answerWait i =>
    simp only [owes, any_getElem?_concat]
    by_cases hi : i = s.waits.length
    · simp [hi]
    · simp [hi, Ne.symm hi]
  | _ => simp [owes]

theorem waiting_of_owes_cancel {s : Scene} {i : Nat} {first : Bool}
    (h : 0 < s.owes (.answerCancel i first)) : s.cancels[i]? = some (first, .waiting) := by
  obtain ⟨⟨first', c⟩, hget, hc⟩ := (Option.any_eq_true _ _).1 (of_owed h)
  obtain ⟨rfl, hwaiting⟩ := of_decide_eq_true hc
  obtain rfl := Call.eq_waiting hwaiting
  exact hget

theorem trades_ended_cancel {s s' : Scene} {i : Nat} {first : Bool} {c : Call (Except Failure Unit)}
    {j : Job} (h : s.cancels[i]? = some (first, .waiting)) (hc : c.isWaiting = false)
    (hs' : s' = { s with job := j, cancels := s.cancels.set i (first, c) })
    (hj : j.cleanup = s.job.cleanup) : s.Trades s' [.answerCancel i first] [] := by
  intro d
  obtain ⟨hi, hget⟩ := List.getElem?_eq_some_iff.1 h
  rw [hs']
  cases d with
  | answerCancel k first' =>
    simp only [owes, any_getElem?_set hi]
    by_cases hk : k = i
    · subst hk
      cases first <;> cases first' <;> simp [h, hc]
    · simp [hk, Ne.symm hk]
  | callCleanup => simp [owes, hj]
  | _ => simp [owes]

theorem waiting_of_owes_wait {s : Scene} {i : Nat} (h : 0 < s.owes (.answerWait i)) :
    s.waits[i]? = some .waiting := by
  obtain ⟨c, hget, hwaiting⟩ := (Option.any_eq_true _ _).1 (of_owed h)
  rw [hget, Call.eq_waiting hwaiting]

theorem trades_ended_wait {s s' : Scene} {i : Nat} {c : Call JobOutcome}
    (h : s.waits[i]? = some .waiting) (hc : c.isWaiting = false)
    (hs' : s' = { s with waits := s.waits.set i c }) : s.Trades s' [.answerWait i] [] := by
  intro d
  obtain ⟨hi, -⟩ := List.getElem?_eq_some_iff.1 h
  rw [hs']
  cases d with
  | answerWait k =>
    simp only [owes, any_getElem?_set hi]
    by_cases hk : k = i
    · simp [hk, h, hc]
    · simp [hk, Ne.symm hk]
  | _ => simp [owes]

end Scene
end PackageHandling
