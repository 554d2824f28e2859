import PackageHandling.Proofs.Job.Scene

/-!
# The outcome of a job

However its body, its timers, its cleanup and its callers take turns, a job has at most one outcome.
The outcome stays, its event is the only terminal one and the last of all, and whoever waits for an
outcome is given this one: the main statement is `outcome_settled`.
-/

namespace PackageHandling

/-- The event that tells of an outcome; a cancelled job tells of none. -/
def JobOutcome.event? : JobOutcome → Option JobEvent
  | done hash reason result => some (.done hash reason result)
  | failed reason => some (.failed reason)
  | cancelled => none

theorem JobOutcome.isTerminal_of_event? {o : JobOutcome} {e : JobEvent} (h : o.event? = some e) :
    e.isTerminal := by
  cases o with
  | done hash reason result => obtain rfl := Option.some.inj h; rfl
  | failed reason => obtain rfl := Option.some.inj h; rfl
  | cancelled => cases h

namespace Job

/-- What a step can do to the outcome of a job and to its events, where it can only bring some
outcomes about. -/
inductive Moves (can : JobOutcome → Prop) (j j' : Job) : Prop
  | quiet (outcome : j'.outcome = j.outcome) (events : j'.events = j.events)
  | ends (o : JobOutcome) (possible : can o) (running : j.outcome = none)
      (outcome : j'.outcome = some o) (events : j'.events = j.events ++ o.event?.toList)
  | shows (running : j.outcome = none) (outcome : j'.outcome = none)
      (events : j'.events = j.events ++ [.progress j.hash j.fraction])

theorem ended_iff {j : Job} : j.ended = true ↔ j.outcome ≠ none := by
  simp [ended, Option.isSome_iff_ne_none]

theorem finish_of_ended {j : Job} (h : j.outcome ≠ none) (o : JobOutcome) (e : Option JobEvent) :
    j.finish o e = j := by
  rw [finish, if_pos (ended_iff.2 h)]

theorem finish_of_running {j : Job} (h : j.outcome = none) (o : JobOutcome) (e : Option JobEvent) :
    j.finish o e = { j with outcome := some o, events := j.events ++ e.toList } := by
  rw [finish, if_neg (by simp [ended, h])]

/-- A job that ends, whatever else was set just before. -/
theorem finish_moves {j k : Job} (houtcome : k.outcome = j.outcome) (hevents : k.events = j.events)
    (o : JobOutcome) : Moves (· = o) j (k.finish o o.event?) := by
  cases hj : j.outcome with
  | some o' =>
    have hk : k.outcome ≠ none := by simp [houtcome, hj]
    rw [finish_of_ended hk]
    exact .quiet houtcome hevents
  | none =>
    rw [finish_of_running (houtcome.trans hj)]
    exact .ends o rfl hj rfl (by rw [hevents])

theorem Moves.mono {can can' : JobOutcome → Prop} {j j' : Job} (h : Moves can j j')
    (hcan : ∀ o, can o → can' o) : Moves can' j j' := by
  cases h with
  | quiet outcome events => exact .quiet outcome events
  | ends o possible running outcome events => exact .ends o (hcan o possible) running outcome events
  | shows running outcome events => exact .shows running outcome events

theorem Moves.endCleanup {can : JobOutcome → Prop} {j k : Job} (h : Moves can j k) :
    Moves can j k.endCleanup := by
  cases h with
  | quiet outcome events => exact .quiet outcome events
  | ends o possible running outcome events => exact .ends o possible running outcome events
  | shows running outcome events => exact .shows running outcome events

theorem reportComplete_moves (hash : Option String) (reason : Reason) (result : Option Json)
    (j : Job) : Moves (· = .done hash reason result) j (reportComplete hash reason result j).1 :=
  finish_moves (j := j) (k := { j with hash, fraction := .one }) rfl rfl (.done hash reason result)

theorem reportError_moves (reason : Reason) (j : Job) :
    Moves (· = .failed reason) j (reportError reason j).1 :=
  finish_moves (k := j) rfl rfl (.failed reason)

theorem endBody_moves (e : BodyEnd) (j : Job) :
    Moves (fun o => ∃ reason, o = .failed reason) j (endBody e j).1 := by
  cases e with
  | returned => exact .quiet rfl rfl
  | failed full =>
    simp only [endBody]
    split
    · exact .quiet rfl rfl
    · exact (reportError_moves _ j).mono fun o ho => ⟨_, ho⟩
  | panicked message =>
    simp only [endBody]
    split
    · exact .quiet rfl rfl
    · exact (reportError_moves _ j).mono fun o ho => ⟨_, ho⟩

theorem failCleanup_moves (f : Failure) (j : Job) :
    Moves (· = .cancelled) j (failCleanup f j).1 :=
  finish_moves (j := j) (k := { j with cancelError := some f }) rfl rfl .cancelled

theorem settleCleanup_moves (e : CleanupEnd) (j : Job) :
    Moves (· = .cancelled) j (settleCleanup e j).1 := by
  cases e with
  | succeeded => exact finish_moves (j := j) (k := j) rfl rfl .cancelled
  | failed f => exact failCleanup_moves f j
  | panicked message => exact failCleanup_moves _ j
  | callPanicked => exact .quiet rfl rfl

theorem flush_moves (can : JobOutcome → Prop) (j : Job) : Moves can j j.flush := by
  simp only [flush]
  split
  · exact .quiet rfl rfl
  · next h =>
    have hj : j.outcome = none := by simpa [ended] using h
    exact .shows hj hj rfl

/-- Progress, and after an outcome its event and nothing more. -/
def InOrder (j : Job) : Prop :=
  ∃ shown, j.events = shown ++ (j.outcome.bind JobOutcome.event?).toList ∧
    ∀ e ∈ shown, e.isTerminal = false

theorem Moves.inOrder {can : JobOutcome → Prop} {j j' : Job} (h : Moves can j j')
    (hj : j.InOrder) : j'.InOrder := by
  obtain ⟨shown, hevents, hshown⟩ := hj
  cases h with
  | quiet outcome events => exact ⟨shown, by rw [events, outcome, hevents], hshown⟩
  | ends o possible running outcome events =>
    refine ⟨shown, ?_, hshown⟩
    rw [events, outcome, hevents, running]
    simp
  | shows running outcome events =>
    refine ⟨shown ++ [.progress j.hash j.fraction], ?_, ?_⟩
    · rw [events, outcome, hevents, running]
      simp
    · intro e he
      rcases List.mem_append.1 he with he | he
      · exact hshown e he
      · obtain rfl := List.mem_singleton.1 he
        rfl

theorem InOrder.terminal {j : Job} (h : j.InOrder) :
    j.events.filter JobEvent.isTerminal = (j.outcome.bind JobOutcome.event?).toList := by
  obtain ⟨shown, hevents, hshown⟩ := h
  have hnone : shown.filter JobEvent.isTerminal = [] :=
    List.filter_eq_nil_iff.2 fun e he => by simp [hshown e he]
  rw [hevents, List.filter_append, hnone, List.nil_append, List.filter_eq_self]
  intro e he
  obtain ⟨o, -, ho⟩ := Option.bind_eq_some_iff.1 (Option.mem_toList.1 he)
  exact JobOutcome.isTerminal_of_event? ho

theorem Moves.of_ended {can : JobOutcome → Prop} {j j' : Job} (h : Moves can j j') {o : JobOutcome}
    (hj : j.outcome = some o) : j'.outcome = some o ∧ j'.events = j.events := by
  cases h with
  | quiet outcome events => exact ⟨outcome.trans hj, events⟩
  | ends o' possible running outcome events => rw [running] at hj; cases hj
  | shows running outcome events => rw [running] at hj; cases hj

end Job

def Act.CanEnd : Act → JobOutcome → Prop
  | report (.complete hash reason result), o => o = .done hash reason result
  | report (.error reason), o => o = .failed reason
  | endBody _, o => ∃ reason, o = .failed reason
  | endCleanup _, o => o = .cancelled
  | _, _ => False

namespace Scene

theorem act_moves (s : Scene) (a : Act) : Job.Moves a.CanEnd s.job (s.act a).job := by
  cases a with
  | start =>
    rcases s.act_start with hact | ⟨-, hact⟩
    · rw [hact]
      exact .quiet rfl rfl
    · rw [hact]
      exact .quiet rfl rfl
  | beginBody =>
    simp only [act]
    split <;> exact .quiet rfl rfl
  | report r =>
    cases r with
    | progress hash fraction => exact .quiet rfl rfl
    | complete hash reason result => exact Job.reportComplete_moves hash reason result s.job
    | error reason => exact Job.reportError_moves reason s.job
  | endBody e =>
    simp only [act]
    split
    · exact Job.endBody_moves e s.job
    · exact .quiet rfl rfl
  | fire i =>
    rcases s.act_fire i with hact | ⟨due, -, -, hact⟩
    · rw [hact]
      exact .quiet rfl rfl
    · rw [hact]
      exact Job.flush_moves _ s.job
  | cancel =>
    simp only [act, Job.requestCancel]
    split <;> exact .quiet rfl rfl
  | callCleanup =>
    simp only [act]
    split <;> exact .quiet rfl rfl
  | endCleanup e =>
    simp only [act]
    split
    · exact (Job.settleCleanup_moves e s.job).endCleanup
    · exact .quiet rfl rfl
  | answerCancel i =>
    obtain ⟨cancelError, cancels, hact⟩ := s.act_answerCancel i
    rw [hact]
    exact .quiet rfl rfl
  | leaveCancel i =>
    simp only [act, leaveCancel]
    split <;> exact .quiet rfl rfl
  | wait => exact .quiet rfl rfl
  | answerWait i =>
    simp only [act, answerWait]
    split <;> exact .quiet rfl rfl
  | leaveWait i =>
    simp only [act, leaveWait]
    split <;> exact .quiet rfl rfl
  | pass ms =>
    simp only [act]
    split <;> exact .quiet rfl rfl

theorem run_of_ended {s : Scene} {o : JobOutcome} (h : s.job.outcome = some o) (acts : List Act) :
    (s.run acts).job.outcome = some o ∧ (s.run acts).job.events = s.job.events := by
  refine run_keeps (P := fun t => t.job.outcome = some o ∧ t.job.events = s.job.events) ?_
    ⟨h, rfl⟩ acts
  intro t a ht
  obtain ⟨houtcome, hevents⟩ := (act_moves t a).of_ended ht.1
  exact ⟨houtcome, hevents.trans ht.2⟩

theorem run_inOrder {s : Scene} (h : s.job.InOrder) (acts : List Act) : (s.run acts).job.InOrder :=
  run_keeps (P := fun t => t.job.InOrder) (fun t a => (act_moves t a).inOrder) h acts

/-- Whoever was given an outcome was given the job's. -/
def Answered (s : Scene) : Prop := ∀ o, .returned o ∈ s.waits → s.job.outcome = some o

/-- Calls for the outcome come, leave, or are answered with the outcome that is there. -/
theorem act_waits (s : Scene) (a : Act) :
    (s.act a).waits = s.waits ∨ (s.act a).waits = s.waits ++ [.waiting] ∨
      ∃ i c, (s.act a).waits = s.waits.set i c ∧
        (c = .left ∨ ∃ o, c = .returned o ∧ s.job.outcome = some o) := by
  cases a with
  | wait => exact .inr (.inl rfl)
  | answerWait i =>
    simp only [act, answerWait]
    split
    · next o _ ho => exact .inr (.inr ⟨i, .returned o, rfl, .inr ⟨o, rfl, ho⟩⟩)
    · exact .inl rfl
  | leaveWait i =>
    simp only [act, leaveWait]
    split
    · exact .inr (.inr ⟨i, .left, rfl, .inl rfl⟩)
    · exact .inl rfl
  | report r => cases r <;> exact .inl rfl
  | start | beginBody | endBody e | fire i | cancel | callCleanup | endCleanup e | answerCancel i
  | leaveCancel i | pass ms =>
    left
    simp only [act, fire, answerCancel, leaveCancel, become]
    repeat' split
    all_goals rfl

theorem act_answered (s : Scene) (a : Act) (h : s.Answered) : (s.act a).Answered := by
  intro o ho
  have hs : s.job.outcome = some o := by
    rcases act_waits s a with hw | hw | ⟨i, c, hw, hc⟩
    · exact h o (hw ▸ ho)
    · exact h o (by simpa [hw] using ho)
    · rcases List.mem_or_eq_of_mem_set (hw ▸ ho) with hmem | rfl
      · exact h o hmem
      · rcases hc with hc | ⟨o', hc, hs⟩
        · cases hc
        · cases hc
          exact hs
  exact ((act_moves s a).of_ended hs).1

theorem answerWait_of_ended {s : Scene} {o : JobOutcome} {i : Nat} (h : s.job.outcome = some o)
    (hi : s.waits[i]? = some .waiting) :
    (s.act (.answerWait i)).waits[i]? = some (.returned o) := by
  obtain ⟨hlt, -⟩ := List.getElem?_eq_some_iff.1 hi
  simp only [act, answerWait, hi, h]
  exact List.getElem?_set_self hlt

theorem answerWait_of_running {s : Scene} (h : s.job.outcome = none) (i : Nat) :
    s.act (.answerWait i) = s := by
  simp only [act, answerWait, h]
  split
  · next ho => cases ho
  · rfl

/-- An outcome stays and ends the events of its job, its event is the only terminal one, and whoever
waits for an outcome is given this one. -/
theorem outcome_settled (label : String) (config : Config) (acts more : List Act) :
    let s := (fresh label config).run acts
    (∀ o, s.job.outcome = some o →
      (s.run more).job.outcome = some o ∧ (s.run more).job.events = s.job.events) ∧
    s.job.events.filter JobEvent.isTerminal = (s.job.outcome.bind JobOutcome.event?).toList ∧
    (∀ o, .returned o ∈ s.waits → s.job.outcome = some o) ∧
    (∀ o i, s.job.outcome = some o → s.waits[i]? = some .waiting →
      (s.act (.answerWait i)).waits[i]? = some (.returned o)) := by
  intro s
  have horder : (fresh label config).job.InOrder := ⟨[], rfl, by simp⟩
  have hanswered : (fresh label config).Answered := by simp [Answered, fresh]
  exact ⟨fun o ho => run_of_ended ho more, (run_inOrder horder acts).terminal,
    run_keeps act_answered hanswered acts, fun o i ho hi => answerWait_of_ended ho hi⟩

end Scene
end PackageHandling
