import PackageHandling.Proofs.Job.Frame
import PackageHandling.Proofs.Job.Outcome

/-!
# What callers of cancel depend on

The part of a job that its cleanup and the callers of cancel share, as a record of its own: what an
act can do to it, and what every such step keeps.
-/

namespace PackageHandling

inductive CleanupMark
  | requested | called | ended (e : CleanupEnd)

abbrev CleanupCourse := List (Nat × CleanupMark)

namespace CleanupEnd

def failure? : CleanupEnd → Option Failure
  | succeeded => none
  | failed f => some f
  | panicked message => some (.other ("cancel cleanup panicked: " ++ message) [])
  | callPanicked => none

/-- Whether there was a future to wait for. -/
def wasAwaited : CleanupEnd → Bool
  | callPanicked => false
  | _ => true

theorem wasAwaited_iff {e : CleanupEnd} : e.wasAwaited = true ↔ e ≠ .callPanicked := by
  cases e <;> simp [wasAwaited]

end CleanupEnd

def Call.told (error : Option Failure) : Except Failure Unit :=
  match error with
  | some f => .error f
  | none => .ok ()

namespace Job

theorem ended_finish (o : JobOutcome) (e : Option JobEvent) (j : Job) :
    (j.finish o e).ended = true := by
  by_cases h : j.outcome = none
  · rw [finish_of_running h]
    rfl
  · rw [finish_of_ended h]
    exact ended_iff.2 h

theorem cancelError_finish (o : JobOutcome) (e : Option JobEvent) (j : Job) :
    (j.finish o e).cancelError = j.cancelError := by
  obtain ⟨outcome, events, h⟩ := finish_frame o e j
  rw [h]

/-- The end of the callback gives the job an outcome, if there was a future to wait for. -/
theorem ended_settleCleanup (e : CleanupEnd) (j : Job) :
    (settleCleanup e j).1.ended = (j.ended || e.wasAwaited) := by
  cases e with
  | callPanicked => simp [settleCleanup, CleanupEnd.wasAwaited]
  | succeeded => exact (ended_finish .cancelled none j).trans (Bool.or_true _).symm
  | failed f => exact (ended_finish .cancelled none _).trans (Bool.or_true _).symm
  | panicked message => exact (ended_finish .cancelled none _).trans (Bool.or_true _).symm

theorem cancelError_settleCleanup (e : CleanupEnd) (j : Job) :
    (settleCleanup e j).1.cancelError = e.failure?.or j.cancelError := by
  cases e with
  | callPanicked => rfl
  | succeeded => exact cancelError_finish .cancelled none j
  | failed f => exact cancelError_finish .cancelled none _
  | panicked message => exact cancelError_finish .cancelled none _

theorem takeCancelError_eq (j : Job) :
    j.takeCancelError = ({ j with cancelError := none }, Call.told j.cancelError) := by
  obtain ⟨error, h⟩ : ∃ error, j.cancelError = error := ⟨_, rfl⟩
  cases error with
  | some f => simp only [takeCancelError, h, Call.told]
  | none =>
    have hsame : j = { j with cancelError := none } := by rw [← h]
    simp only [takeCancelError, h, Call.told]
    rw [← hsame]

/-- A callback that would take longer than the cancel timeout is cut off then, and has failed. -/
theorem run_boundCleanup {β ν : Type} (j : Job) (callback : Plan β ν CleanupEnd) (b : β) :
    let c := (j.boundCleanup callback).run b
    if (callback.run b).elapsed ≤ j.cancelTimeout then
      c.answer = (callback.run b).answer ∧ c.elapsed = (callback.run b).elapsed
    else
      c.answer = .failed (.elapsed "cancel work" j.cancelTimeout) ∧
        c.elapsed = j.cancelTimeout := by
  have hwithin := callback.run_within j.cancelTimeout b
  by_cases hle : (callback.run b).elapsed ≤ j.cancelTimeout
  · rw [if_pos hle] at hwithin
    simp only [if_pos hle, boundCleanup, Plan.bind_eq, Plan.run_bind, hwithin, Plan.pure_eq,
      Plan.run, Nat.add_zero, and_self]
  · rw [if_neg hle] at hwithin
    obtain ⟨hanswer, helapsed⟩ := hwithin
    simp only [if_neg hle, boundCleanup, Plan.bind_eq, Plan.run_bind, hanswer, helapsed,
      Plan.pure_eq, Plan.run, Nat.add_zero, and_self]

end Job

/-- The part of a scene that the callers of cancel depend on. -/
structure Teardown where
  timeout : Nat
  now : Nat
  stage : CleanupStage
  due : Option Nat
  error : Option Failure
  ended : Bool
  calls : List (Bool × Call (Except Failure Unit))
  course : CleanupCourse

namespace Teardown

variable (d : Teardown)

def request : Teardown :=
  { d with
    stage := .requested
    calls := d.calls ++ [(true, .waiting)]
    course := d.course ++ [(d.now, .requested)] }

def join : Teardown := { d with calls := d.calls ++ [(false, .waiting)] }

def call : Teardown :=
  { d with
    stage := .running
    due := some (d.now + d.timeout)
    course := d.course ++ [(d.now, .called)] }

def finish (e : CleanupEnd) : Teardown :=
  { d with
    stage := .ended
    due := none
    error := e.failure?.or d.error
    ended := d.ended || e.wasAwaited
    course := d.course ++ [(d.now, .ended e)] }

/-- Only the caller that asked for the cleanup takes its error. -/
def answer (i : Nat) (first : Bool) : Teardown :=
  { d with
    error := if first then none else d.error
    calls := d.calls.set i (first, .returned (if first then Call.told d.error else .ok ())) }

def leave (i : Nat) (first : Bool) : Teardown := { d with calls := d.calls.set i (first, .left) }

def pass (ms : Nat) : Teardown := { d with now := d.now + ms }

variable {d}

inductive Step (d : Teardown) : Teardown → Prop
  | rest : Step d d
  | settle (ended : Bool) (stays : d.ended = true → ended = true) : Step d { d with ended }
  | request (new : d.stage = .none) : Step d d.request
  | join (old : d.stage ≠ .none) : Step d d.join
  | call (requested : d.stage = .requested) : Step d d.call
  | finish (running : d.stage = .running) (e : CleanupEnd) : Step d (d.finish e)
  | answer (done : d.stage = .ended) (i : Nat) (first : Bool)
    (waits : d.calls[i]? = some (first, .waiting)) : Step d (d.answer i first)
  | leave (i : Nat) (first : Bool) (waits : d.calls[i]? = some (first, .waiting)) :
    Step d (d.leave i first)
  | pass (ms : Nat) (called : d.stage ≠ .requested)
    (inTime : ∀ due, d.due = some due → d.now + ms ≤ due) : Step d (d.pass ms)

theorem Step.timeout {d' : Teardown} (h : d.Step d') : d'.timeout = d.timeout := by
  cases h <;> rfl

end Teardown

/-- The callback is called when the cleanup is requested and never again, and ends within the
timeout. -/
inductive CleanupRuns (timeout now : Nat) : CleanupStage → Option Nat → CleanupCourse → Prop
  | unasked : CleanupRuns timeout now .none none []
  | requested : CleanupRuns timeout now .requested none [(now, .requested)]
  | called (t : Nat) (since : t ≤ now) (inTime : now ≤ t + timeout) :
    CleanupRuns timeout now .running (some (t + timeout)) [(t, .requested), (t, .called)]
  | ended (t t' : Nat) (e : CleanupEnd) (since : t ≤ t') (past : t' ≤ now)
    (inTime : t' ≤ t + timeout) :
    CleanupRuns timeout now .ended none [(t, .requested), (t, .called), (t', .ended e)]

namespace CleanupRuns

variable {timeout now : Nat} {stage : CleanupStage} {due : Option Nat} {course : CleanupCourse}

theorem stage_eq_ended (h : CleanupRuns timeout now stage due course) {t : Nat} {e : CleanupEnd}
    (he : (t, .ended e) ∈ course) : stage = .ended := by
  cases h with
  | unasked => cases he
  | requested => simp at he
  | called => simp at he
  | ended => rfl

theorem unasked_eq (h : CleanupRuns timeout now .none due course) : due = none ∧ course = [] := by
  cases h with
  | unasked => exact ⟨rfl, rfl⟩

theorem requested_eq (h : CleanupRuns timeout now .requested due course) :
    course = [(now, .requested)] := by
  cases h with
  | requested => rfl

theorem called_eq (h : CleanupRuns timeout now .running due course) :
    ∃ t, due = some (t + timeout) ∧ course = [(t, .requested), (t, .called)] ∧
      t ≤ now ∧ now ≤ t + timeout := by
  cases h with
  | called t since inTime => exact ⟨t, rfl, rfl, since, inTime⟩

theorem exists_end (h : CleanupRuns timeout now .ended due course) :
    ∃ t e, (t, .ended e) ∈ course := by
  cases h with
  | ended t t' e => exact ⟨t', e, by simp⟩

theorem eq_of_ended (h : CleanupRuns timeout now stage due course) {t t' : Nat} {e e' : CleanupEnd}
    (he : (t, .ended e) ∈ course) (he' : (t', .ended e') ∈ course) : e' = e := by
  cases h with
  | unasked | requested | called => simp at he
  | ended =>
    simp only [List.mem_cons, Prod.mk.injEq, reduceCtorEq, and_false, CleanupMark.ended.injEq,
      List.not_mem_nil, or_false, false_or] at he he'
    exact he'.2.trans he.2.symm

/-- Time passes only once the callback is called, and not beyond the limit. -/
theorem pass (h : CleanupRuns timeout now stage due course) {ms : Nat}
    (called : stage ≠ .requested) (inTime : ∀ limit, due = some limit → now + ms ≤ limit) :
    CleanupRuns timeout (now + ms) stage due course := by
  cases h with
  | unasked => exact .unasked
  | requested => exact absurd rfl called
  | called t since _ => exact .called t (by omega) (inTime _ rfl)
  | ended t t' e since past limit => exact .ended t t' e since (by omega) limit

end CleanupRuns

def LedByFirst {α : Type} (calls : List (Bool × α)) : Prop :=
  ∃ n, calls.map (·.1) = true :: List.replicate n false

namespace LedByFirst

variable {α : Type} {calls : List (Bool × α)}

theorem single (c : α) : LedByFirst [(true, c)] := ⟨0, rfl⟩

theorem join (h : LedByFirst calls) (c : α) : LedByFirst (calls ++ [(false, c)]) := by
  obtain ⟨n, hn⟩ := h
  refine ⟨n + 1, ?_⟩
  rw [List.map_append, hn, List.replicate_succ']
  rfl

theorem length_pos (h : LedByFirst calls) : 0 < calls.length := by
  obtain ⟨n, hn⟩ := h
  have hlength := congrArg List.length hn
  rw [List.length_map, List.length_cons] at hlength
  omega

theorem map_set {i : Nat} {first : Bool} {c : α} (hi : calls[i]? = some (first, c)) (c' : α) :
    (calls.set i (first, c')).map (·.1) = calls.map (·.1) := by
  have hfirst : (calls.map (·.1))[i]? = some first := by rw [List.getElem?_map, hi]; rfl
  obtain ⟨hlt, hget⟩ := List.getElem?_eq_some_iff.1 hfirst
  rw [List.map_set]
  exact hget ▸ List.set_getElem_self hlt

theorem set (h : LedByFirst calls) {i : Nat} {first : Bool} {c : α}
    (hi : calls[i]? = some (first, c)) (c' : α) : LedByFirst (calls.set i (first, c')) := by
  obtain ⟨n, hn⟩ := h
  exact ⟨n, (map_set hi c').trans hn⟩

theorem eq_zero (h : LedByFirst calls) {i : Nat} {c : α} (hi : calls[i]? = some (true, c)) :
    i = 0 := by
  obtain ⟨n, hn⟩ := h
  have hfirst : (calls.map (·.1))[i]? = some true := by rw [List.getElem?_map, hi]; rfl
  rw [hn] at hfirst
  cases i with
  | zero => rfl
  | succ i =>
    rw [List.getElem?_cons_succ] at hfirst
    have hmem := List.mem_of_getElem? hfirst
    exact absurd (List.eq_of_mem_replicate hmem) (by decide)

end LedByFirst

/-- Whoever still waits when a call has come to its end waited before, and is another. -/
theorem waiting_of_set {α : Type} {calls : List (Bool × Call α)} {i k : Nat} {first first' : Bool}
    {c c' : Call α} (hi : calls[i]? = some (first, c)) (hc' : c'.isWaiting = false)
    (hk : (calls.set i (first, c'))[k]? = some (first', .waiting)) :
    k ≠ i ∧ calls[k]? = some (first', .waiting) := by
  have hne : k ≠ i := by
    rintro rfl
    obtain ⟨hlt, -⟩ := List.getElem?_eq_some_iff.1 hi
    rw [List.getElem?_set_self hlt] at hk
    cases hk
    cases hc'
  exact ⟨hne, by rwa [List.getElem?_set_ne hne.symm] at hk⟩

namespace Teardown

variable {d : Teardown}

def verdict (first : Bool) (e : CleanupEnd) : Except Failure Unit :=
  if first then Call.told e.failure? else .ok ()

theorem verdict_error_iff (first : Bool) (e : CleanupEnd) :
    (∃ f, verdict first e = .error f) ↔
      first = true ∧ ((∃ f, e = .failed f) ∨ ∃ message, e = .panicked message) := by
  cases first with
  | false => simp [verdict]
  | true => cases e <;> simp [verdict, Call.told, CleanupEnd.failure?]

theorem verdict_first_iff {e : CleanupEnd} {f : Failure} :
    verdict true e = .error f ↔ e = .failed f ∨ ∃ message, e = .panicked message ∧
      f = .other ("cancel cleanup panicked: " ++ message) [] := by
  cases e <;> simp [verdict, Call.told, CleanupEnd.failure?, eq_comm]

/-- One cleanup for all callers, and no answer before its end. -/
structure Shared (d : Teardown) : Prop where
  runs : CleanupRuns d.timeout d.now d.stage d.due d.course
  callers : (d.stage = .none ∧ d.calls = []) ∨ (d.stage ≠ .none ∧ LedByFirst d.calls)
  answers : ∀ first r, (first, Call.returned r) ∈ d.calls →
    ∃ t e, (t, .ended e) ∈ d.course ∧ r = verdict first e
  fresh : d.stage ≠ .ended → d.error = none
  kept : ∀ t e, (t, .ended e) ∈ d.course → ∀ i : Nat,
    d.calls[i]? = some (true, .waiting) → d.error = e.failure?
  settled : ∀ t e, (t, .ended e) ∈ d.course → e.wasAwaited → d.ended = true

namespace Shared

theorem led (h : d.Shared) (asked : d.stage ≠ .none) : LedByFirst d.calls := by
  rcases h.callers with ⟨hnone, -⟩ | ⟨-, hled⟩
  · exact absurd hnone asked
  · exact hled

theorem unanswered (h : d.Shared) (before : d.stage ≠ .ended) (first : Bool)
    (r : Except Failure Unit) : (first, Call.returned r) ∉ d.calls := by
  intro hmem
  obtain ⟨t, e, he, -⟩ := h.answers first r hmem
  exact before (h.runs.stage_eq_ended he)

theorem settle (h : d.Shared) {ended : Bool} (stays : d.ended = true → ended = true) :
    Shared { d with ended } :=
  ⟨h.runs, h.callers, h.answers, h.fresh, h.kept,
    fun t e he hawaited => stays (h.settled t e he hawaited)⟩

theorem request (h : d.Shared) (new : d.stage = .none) : d.request.Shared := by
  have hcalls : d.calls = [] := by
    rcases h.callers with ⟨-, hcalls⟩ | ⟨hstage, -⟩
    · exact hcalls
    · exact absurd new hstage
  have herror : d.error = none := h.fresh (by simp [new])
  obtain ⟨hdue, hcourse⟩ := (new ▸ h.runs).unasked_eq
  simp only [Teardown.request, hcalls, hcourse, hdue, List.nil_append]
  exact ⟨.requested, .inr ⟨by simp, .single _⟩, by simp, fun _ => herror, by simp, by simp⟩

theorem join (h : d.Shared) (old : d.stage ≠ .none) : d.join.Shared := by
  have hled := h.led old
  refine ⟨h.runs, .inr ⟨old, hled.join _⟩, ?_, h.fresh, ?_, h.settled⟩
  · intro first r hmem
    have hold : (first, Call.returned r) ∈ d.calls := by simpa [Teardown.join] using hmem
    exact h.answers first r hold
  · intro t e he i hi
    obtain rfl := LedByFirst.eq_zero (hled.join _) hi
    rw [Teardown.join, List.getElem?_append_left hled.length_pos] at hi
    exact h.kept t e he 0 hi

theorem call (h : d.Shared) (requested : d.stage = .requested) : d.call.Shared := by
  have hled := h.led (by simp [requested])
  have herror : d.error = none := h.fresh (by simp [requested])
  have hnobody := h.unanswered (by simp [requested])
  have hcourse := (requested ▸ h.runs).requested_eq
  simp only [Teardown.call, hcourse]
  refine ⟨.called d.now (Nat.le_refl _) (Nat.le_add_right ..), .inr ⟨by simp, hled⟩, ?_,
    fun _ => herror, by simp, by simp⟩
  intro first r hmem
  exact absurd hmem (hnobody first r)

theorem finish (h : d.Shared) (running : d.stage = .running) (e : CleanupEnd) :
    (d.finish e).Shared := by
  have hled := h.led (by simp [running])
  have herror : d.error = none := h.fresh (by simp [running])
  have hnobody := h.unanswered (by simp [running])
  obtain ⟨t, -, hcourse, hsince, hinTime⟩ := (running ▸ h.runs).called_eq
  simp only [Teardown.finish, hcourse, herror, Option.or_none]
  have hend : ∀ t' e', (t', CleanupMark.ended e') ∈
      [(t, CleanupMark.requested), (t, .called)] ++ [(d.now, .ended e)] → e' = e := by simp
  refine ⟨.ended t d.now e hsince (Nat.le_refl _) hinTime, .inr ⟨by simp, hled⟩, ?_, by simp,
    ?_, ?_⟩
  · intro first r hmem
    exact absurd hmem (hnobody first r)
  · intro t' e' he' _ _
    rw [hend t' e' he']
  · intro t' e' he' hawaited
    rw [hend t' e' he'] at hawaited
    simp [hawaited]

theorem answer (h : d.Shared) (done : d.stage = .ended) {i : Nat} {first : Bool}
    (waits : d.calls[i]? = some (first, .waiting)) : (d.answer i first).Shared := by
  have hled := h.led (by simp [done])
  obtain ⟨t, e, he⟩ := (done ▸ h.runs).exists_end
  refine ⟨h.runs, .inr ⟨by simp [Teardown.answer, done], hled.set waits _⟩, ?_, ?_, ?_, h.settled⟩
  · intro first' r hmem
    rcases List.mem_or_eq_of_mem_set hmem with hold | hnew
    · exact h.answers first' r hold
    · refine ⟨t, e, he, ?_⟩
      cases hnew
      cases first with
      | true => rw [h.kept t e he i waits]; rfl
      | false => rfl
  · intro hstage
    exact absurd done hstage
  · intro t' e' he' k hk
    obtain ⟨hne, hold⟩ := waiting_of_set waits rfl hk
    cases first with
    | true => exact absurd ((hled.eq_zero hold).trans (hled.eq_zero waits).symm) hne
    | false => exact h.kept t' e' he' k hold

theorem leave (h : d.Shared) {i : Nat} {first : Bool}
    (waits : d.calls[i]? = some (first, .waiting)) : (d.leave i first).Shared := by
  refine ⟨h.runs, ?_, ?_, h.fresh, ?_, h.settled⟩
  · rcases h.callers with ⟨hnone, hcalls⟩ | ⟨hstage, hled⟩
    · simp [hcalls] at waits
    · exact .inr ⟨hstage, hled.set waits _⟩
  · intro first' r hmem
    rcases List.mem_or_eq_of_mem_set hmem with hold | hnew
    · exact h.answers first' r hold
    · cases hnew
  · intro t e he k hk
    exact h.kept t e he k (waiting_of_set waits rfl hk).2

theorem pass (h : d.Shared) {ms : Nat} (called : d.stage ≠ .requested)
    (inTime : ∀ due, d.due = some due → d.now + ms ≤ due) : (d.pass ms).Shared :=
  ⟨h.runs.pass called inTime, h.callers, h.answers, h.fresh, h.kept, h.settled⟩

theorem step {d' : Teardown} (h : d.Shared) (hstep : d.Step d') : d'.Shared := by
  cases hstep with
  | rest => exact h
  | settle ended stays => exact h.settle stays
  | request new => exact h.request new
  | join old => exact h.join old
  | call requested => exact h.call requested
  | finish running e => exact h.finish running e
  | answer done i first waits => exact h.answer done waits
  | leave i first waits => exact h.leave waits
  | pass ms called inTime => exact h.pass called inTime

end Shared
end Teardown

end PackageHandling
