import PackageHandling.Job

/-!
# Jobs in their surroundings

A scene is a job with everything that can still act on it: its body, its armed progress timers,
its cleanup, and the callers that cancel it or wait for its outcome.  An act is one atomic step of
one of them, in any order; an act that is not possible now changes nothing.  Time passes only while
nothing is due.
-/

namespace PackageHandling

inductive Call (α : Type)
  | waiting | left | returned (answer : α)
  deriving Inhabited

namespace Call

variable {α : Type}

def isWaiting : Call α → Bool
  | waiting => true
  | _ => false

@[simp] theorem isWaiting_waiting : (waiting : Call α).isWaiting = true := rfl

@[simp] theorem isWaiting_left : (left : Call α).isWaiting = false := rfl

@[simp] theorem isWaiting_returned (answer : α) : (returned answer).isWaiting = false := rfl

theorem eq_waiting {c : Call α} (h : c.isWaiting) : c = waiting := by
  cases c with
  | waiting => rfl
  | left => cases h
  | returned answer => cases h

end Call

/-- A body takes its first own step some time after it was started. -/
inductive BodyStage
  | absent | scheduled | running | over (e : BodyEnd)
  deriving DecidableEq, Inhabited

inductive Happening
  | reported (hash : Option String) (fraction : Fraction)
  | emitted (event : JobEvent)
  deriving Inhabited

structure Scene where
  job : Job
  now : Nat := 0
  /-- When the armed progress timers are due. -/
  timers : List Nat := []
  body : BodyStage := .absent
  /-- When a running cleanup is cut off. -/
  cleanupDue : Option Nat := none
  /-- The calls of cancel, the one that started the cleanup marked. -/
  cancels : List (Bool × Call (Except Failure Unit)) := []
  waits : List (Call JobOutcome) := []
  history : List (Nat × Happening) := []
  deriving Inhabited

inductive Act
  | start | beginBody | report (r : JobReport) | endBody (e : BodyEnd)
  | fire (i : Nat)
  | cancel | callCleanup | endCleanup (e : CleanupEnd) | answerCancel (i : Nat)
  | leaveCancel (i : Nat)
  | wait | answerWait (i : Nat) | leaveWait (i : Nat)
  | pass (ms : Nat)

namespace Scene

def fresh (label : String) (config : Config) : Scene := { job := .create label config }

/-- The job moves on; what it emits is remembered with the time. -/
def become (s : Scene) (j : Job) : Scene :=
  { s with
    job := j
    history := s.history ++
      (j.events.drop s.job.events.length).map fun e => (s.now, .emitted e) }

/-- Whether nothing has to be done before so many milliseconds have passed. -/
def idle (s : Scene) (ms : Nat) : Bool :=
  s.timers.all (fun due => s.now + ms ≤ due) && s.cleanupDue.all (fun due => s.now + ms ≤ due) &&
    s.body != .scheduled && s.job.cleanup != .requested &&
    !(s.job.cleanup == .ended && s.cancels.any (·.2.isWaiting)) &&
    !(s.job.ended && s.waits.any (·.isWaiting))

def report (s : Scene) : JobReport → Scene
  | .progress hash fraction =>
    let (j, arm) := s.job.reportProgress hash fraction
    { s with
      job := j
      timers := s.timers ++ if arm then [s.now + j.progressInterval] else []
      history := s.history ++ [(s.now, .reported hash fraction)] }
  | .complete hash reason result => s.become (s.job.reportComplete hash reason result).1
  | .error reason => s.become (s.job.reportError reason).1

def fire (s : Scene) (i : Nat) : Scene :=
  match s.timers[i]? with
  | none => s
  | some due =>
    if s.now < due then s else { s.become s.job.flush with timers := s.timers.eraseIdx i }

/-- A caller is told of the end of the cleanup, the one that started it of its error too. -/
def answerCancel (s : Scene) (i : Nat) : Scene :=
  match s.cancels[i]?, s.job.cleanup with
  | some (true, .waiting), .ended =>
    let (j, result) := s.job.takeCancelError
    { s with job := j, cancels := s.cancels.set i (true, .returned result) }
  | some (false, .waiting), .ended =>
    { s with cancels := s.cancels.set i (false, .returned (.ok ())) }
  | _, _ => s

def leaveCancel (s : Scene) (i : Nat) : Scene :=
  match s.cancels[i]? with
  | some (first, .waiting) => { s with cancels := s.cancels.set i (first, .left) }
  | _ => s

def answerWait (s : Scene) (i : Nat) : Scene :=
  match s.waits[i]?, s.job.outcome with
  | some .waiting, some outcome => { s with waits := s.waits.set i (.returned outcome) }
  | _, _ => s

def leaveWait (s : Scene) (i : Nat) : Scene :=
  match s.waits[i]? with
  | some .waiting => { s with waits := s.waits.set i .left }
  | _ => s

def act (s : Scene) : Act → Scene
  | .start =>
    match s.job.start with
    | .ok (j, _) => { s with job := j, body := .scheduled }
    | .error _ => s
  | .beginBody => if s.body = .scheduled then { s with body := .running } else s
  | .report r => s.report r
  | .endBody e =>
    if s.body = .running then { s.become (s.job.endBody e).1 with body := .over e } else s
  | .fire i => s.fire i
  | .cancel =>
    let (j, first) := s.job.requestCancel
    { s with job := j, cancels := s.cancels ++ [(first, .waiting)] }
  | .callCleanup =>
    if s.job.cleanup = .requested then
      { s with job := s.job.beginCleanup.1, cleanupDue := some (s.now + s.job.cancelTimeout) }
    else s
  | .endCleanup e =>
    if s.job.cleanup = .running then
      { s.become (Job.settleCleanup e s.job).1.endCleanup with cleanupDue := none }
    else s
  | .answerCancel i => s.answerCancel i
  | .leaveCancel i => s.leaveCancel i
  | .wait => { s with waits := s.waits ++ [.waiting] }
  | .answerWait i => s.answerWait i
  | .leaveWait i => s.leaveWait i
  | .pass ms => if s.idle ms then { s with now := s.now + ms } else s

def run (s : Scene) (acts : List Act) : Scene := acts.foldl act s

@[simp] theorem run_nil (s : Scene) : s.run [] = s := rfl

@[simp] theorem run_cons (s : Scene) (a : Act) (acts : List Act) :
    s.run (a :: acts) = (s.act a).run acts := rfl

theorem run_append (s : Scene) (acts more : List Act) :
    s.run (acts ++ more) = (s.run acts).run more :=
  List.foldl_append

theorem run_keeps {P : Scene → Prop} (keep : ∀ s a, P s → P (s.act a)) {s : Scene} (h : P s)
    (acts : List Act) : P (s.run acts) := by
  induction acts generalizing s with
  | nil => exact h
  | cons a acts ih => exact ih (keep s a h)

theorem act_start (s : Scene) :
    s.act .start = s ∨ (s.job.started = false ∧
      s.act .start = { s with job := { s.job with started := true }, body := .scheduled }) := by
  by_cases hstarted : s.job.started
  · left
    simp only [act, Job.start, if_pos hstarted]
  · right
    simp only [act, Job.start, if_neg hstarted]
    exact ⟨by simpa using hstarted, trivial⟩

theorem act_fire (s : Scene) (i : Nat) :
    s.act (.fire i) = s ∨ ∃ due, s.timers[i]? = some due ∧ due ≤ s.now ∧
      s.act (.fire i) = { s.become s.job.flush with timers := s.timers.eraseIdx i } := by
  simp only [act, fire]
  split
  · exact .inl rfl
  · next due harmed =>
    split
    · exact .inl rfl
    · next hdue => exact .inr ⟨due, harmed, Nat.not_lt.1 hdue, rfl⟩

/-- Of the job, an answer to a caller of cancel takes the error at most. -/
theorem act_answerCancel (s : Scene) (i : Nat) :
    ∃ cancelError cancels,
      s.act (.answerCancel i) = { s with job := { s.job with cancelError }, cancels } := by
  simp only [act, answerCancel, Job.takeCancelError]
  split
  · split
    · exact ⟨none, _, rfl⟩
    · exact ⟨s.job.cancelError, _, rfl⟩
  · exact ⟨s.job.cancelError, _, rfl⟩
  · exact ⟨s.job.cancelError, s.cancels, rfl⟩

end Scene
end PackageHandling
