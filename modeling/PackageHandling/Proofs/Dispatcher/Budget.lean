import PackageHandling.Dispatcher
import PackageHandling.Proofs.Plan.Budget

/-!
# Phases under the budget of a dispatcher

A handler that answers in time is passed on as it is, unless it reports a timeout; all else is the
negative answer of the phase, and of the setup of a job, which has no negative answer, the failure
itself.  The main statement is `phases_bounded`.
-/

namespace PackageHandling

variable {β α : Type}

/-- The question of a phase that has a negative answer, by the answers it can have. -/
inductive Inquiry : Type → Type
  | support : Inquiry Check
  | cost : Inquiry (Option Nat)
  | ready : Inquiry Readiness
  | fulfilled (was : Bool) : Inquiry Fulfillment
  | remove (reason : String) : Inquiry Removal

namespace Inquiry

def attempt (h : Handler β) (w : Worker β) (e : Expectation) : Inquiry α → Phase β α
  | support => h.support w e
  | cost => h.cost w e
  | ready => h.ready w e
  | fulfilled was => h.fulfilled w e was
  | remove reason => h.remove w e reason

def phase (d : Dispatcher β) (e : Expectation) : Inquiry α → Phase β α
  | support => d.support e
  | cost => d.cost e
  | ready => d.ready e
  | fulfilled was => d.fulfilled e was
  | remove reason => d.remove e reason

def label : Inquiry α → String
  | support => "doYouSupportExpectation"
  | cost => "getCostForExpectation"
  | ready => "isExpectationReadyToStartWorkingOn"
  | fulfilled _ => "isExpectationFulfilled"
  | remove _ => "removeExpectation"

/-- The negative answer, with a rejection where it has room for one: a cost that is not known has
none. -/
def negative : Inquiry α → Rejection → α
  | support, r => .error r
  | cost, _ => none
  | ready, r => .notReady r none false
  | fulfilled _, r => .error r
  | remove _, r => .error r

/-- All phases with a negative answer are bounded alike. -/
theorem phase_eq (d : Dispatcher β) (e : Expectation) (q : Inquiry α) :
    q.phase d e = d.phase q.label e q.negative (q.attempt (d.handlerOf e) d.worker e) := by
  cases q <;> rfl

end Inquiry

/-- An attempt is over within the budget, with something other than a timeout. -/
def Plan.Course.InTime (c : Plan.Course β Note (Except Failure α)) (budget : Nat) : Prop :=
  c.elapsed ≤ budget ∧ ∀ f, c.answer = .error f → f.isTimeout = false

namespace Dispatcher

variable {label : String} {e : Expectation} {negative : Rejection → α} {p : Phase β α} {s : β}

theorem run_phase_inTime (d : Dispatcher β)
    (h : (p.run s).InTime d.worker.config.innerActionTimeout) :
    (d.phase label e negative p).run s = p.run s := by
  obtain ⟨hle, hother⟩ := h
  simp only [phase, Plan.bind_eq, Plan.run_bind, Plan.attempt_of_le label hle]
  cases hanswer : (p.run s).answer with
  | ok a => simp [Plan.run, ← hanswer]
  | error f => simp [hother f hanswer, Plan.run, ← hanswer]

/-- A timeout, wherever it comes from, becomes the negative answer, and the log tells of it. -/
theorem run_phase_timeout (d : Dispatcher β) {f : Failure} (hf : f.isTimeout = true)
    (hanswer : ((p.attempt d.worker.config.innerActionTimeout label).run s).answer = .error f) :
    let attempt := (p.attempt d.worker.config.innerActionTimeout label).run s
    (d.phase label e negative p).run s = ⟨.ok (negative f.rejection), attempt.elapsed,
      attempt.state, attempt.notes ++ [.logged (.phaseTimedOut e.id label f.message)]⟩ := by
  simp [phase, Plan.run_bind, hanswer, hf, Plan.say, Plan.run, Plan.bind]

/-- What is not in time ends in a timeout: one of the handler's own, or that of the budget. -/
theorem attempt_not_inTime {budget : Nat} (label : String) (h : ¬ (p.run s).InTime budget) :
    ∃ f : Failure, f.isTimeout = true ∧ ((p.attempt budget label).run s).answer = .error f := by
  by_cases hle : (p.run s).elapsed ≤ budget
  · obtain ⟨f, hanswer, hf⟩ : ∃ f, (p.run s).answer = .error f ∧ f.isTimeout = true := by
      simpa [Plan.Course.InTime, hle] using h
    exact ⟨f, hf, by rw [Plan.attempt_of_le label hle, hanswer]⟩
  · exact ⟨.elapsed label budget, rfl, (Plan.attempt_of_gt label (Nat.not_le.1 hle)).1⟩

theorem elapsed_attempt (budget : Nat) (label : String) (p : Phase β α) (s : β) :
    ((p.attempt budget label).run s).elapsed = min (p.run s).elapsed budget := by
  by_cases hle : (p.run s).elapsed ≤ budget
  · rw [Plan.attempt_of_le label hle, Nat.min_eq_left hle]
  · have hlt := Nat.not_le.1 hle
    rw [(Plan.attempt_of_gt label hlt).2, Nat.min_eq_right (Nat.le_of_lt hlt)]

theorem elapsed_phase (d : Dispatcher β) :
    ((d.phase label e negative p).run s).elapsed =
      min (p.run s).elapsed d.worker.config.innerActionTimeout := by
  by_cases hin : (p.run s).InTime d.worker.config.innerActionTimeout
  · rw [d.run_phase_inTime hin, Nat.min_eq_left hin.1]
  · obtain ⟨f, hf, hanswer⟩ := attempt_not_inTime label hin
    rw [d.run_phase_timeout hf hanswer]
    exact elapsed_attempt ..

theorem phase_not_inTime (d : Dispatcher β)
    (h : ¬ (p.run s).InTime d.worker.config.innerActionTimeout) :
    ∃ f : Failure, f.isTimeout = true ∧ f.rejection.known = false ∧
      ((d.phase label e negative p).run s).answer = .ok (negative f.rejection) ∧
      ((d.phase label e negative p).run s).notes.getLast? =
        some (.logged (.phaseTimedOut e.id label f.message)) := by
  obtain ⟨f, hf, hanswer⟩ := attempt_not_inTime label h
  refine ⟨f, hf, rfl, ?_, ?_⟩
  · rw [d.run_phase_timeout hf hanswer]
  · rw [d.run_phase_timeout hf hanswer, List.getLast?_concat]

/-- What is not in time is never passed on as it is: it would be over too late, or a failure. -/
theorem run_phase_eq_iff (d : Dispatcher β) :
    (d.phase label e negative p).run s = p.run s ↔
      (p.run s).InTime d.worker.config.innerActionTimeout := by
  refine ⟨fun heq => Classical.byContradiction fun hout => ?_, d.run_phase_inTime⟩
  obtain ⟨a, hanswer⟩ : ∃ a, ((d.phase label e negative p).run s).answer = .ok a :=
    let ⟨f, _, _, hanswer, _⟩ := d.phase_not_inTime hout
    ⟨negative f.rejection, hanswer⟩
  have helapsed : ((d.phase label e negative p).run s).elapsed = min (p.run s).elapsed _ :=
    d.elapsed_phase
  rw [heq] at hanswer helapsed
  refine hout ⟨by omega, fun g hg => ?_⟩
  rw [hanswer] at hg
  cases hg

theorem phase_no_timeout (d : Dispatcher β) {f : Failure}
    (h : ((d.phase label e negative p).run s).answer = .error f) : f.isTimeout = false := by
  by_cases hin : (p.run s).InTime d.worker.config.innerActionTimeout
  · rw [d.run_phase_inTime hin] at h
    exact hin.2 f h
  · obtain ⟨g, -, -, hanswer, -⟩ := d.phase_not_inTime hin
    rw [hanswer] at h
    cases h

/-- A phase goes as its handler does, if that is in time; otherwise it has the negative answer, and
the setup of a job fails. -/
theorem phases_bounded (d : Dispatcher β) (e : Expectation) (s : β) :
    let budget := d.worker.config.innerActionTimeout
    let h := d.handlerOf e
    (∀ (α : Type) (q : Inquiry α),
      let own := (q.attempt h d.worker e).run s
      let course := (q.phase d e).run s
      course.elapsed = min own.elapsed budget ∧
      (course = own ↔ own.InTime budget) ∧
      (¬ own.InTime budget → ∃ f : Failure, f.isTimeout = true ∧ f.rejection.known = false ∧
        course.answer = .ok (q.negative f.rejection) ∧
        course.notes.getLast? = some (.logged (.phaseTimedOut e.id q.label f.message))) ∧
      ∀ f, course.answer = .error f → f.isTimeout = false) ∧
    let own := (h.work d.worker e).run s
    let course := (d.work e).run s
    course.elapsed = min own.elapsed budget ∧
      (own.elapsed ≤ budget → course = own) ∧
      (budget < own.elapsed → course.answer = .error (.elapsed "workOnExpectation" budget)) := by
  intro budget h
  refine ⟨fun α q => ?_, elapsed_attempt .., Plan.attempt_of_le _, fun hlt =>
    (Plan.attempt_of_gt _ hlt).1⟩
  simp only [q.phase_eq]
  exact ⟨d.elapsed_phase, d.run_phase_eq_iff, d.phase_not_inTime, fun f => d.phase_no_timeout⟩

end Dispatcher
end PackageHandling
