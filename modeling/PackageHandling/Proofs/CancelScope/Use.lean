import PackageHandling.CancelScope

/-!
# Cancel scopes in use

A scope is called by everyone who holds it, and by its own handler while that runs.  However the
calls follow each other, one handler is accepted and it runs once, and the token is tripped exactly
when a cancel has succeeded: the main statement is `run_settled`.
-/

namespace PackageHandling

/-- What the running handler calls itself comes between its start and its end. -/
inductive ScopeAct (η : Type)
  | register (handler : η) | cancel | handlerReturned | handlerPanicked

/-- A cancel that starts the handler is answered when that returns, and never if it panics. -/
inductive ScopeEvent (η : Type)
  | registered (handler : η) (answer : Except Failure Unit) | started (handler : η)
  | cancelled (answer : Except Failure Unit) | unwound

namespace ScopeEvent

variable {η : Type}

def accepted? : ScopeEvent η → Option η
  | registered handler (.ok _) => some handler
  | _ => none

def started? : ScopeEvent η → Option η
  | started handler => some handler
  | _ => none

def acceptedIn (es : List (ScopeEvent η)) : List η := es.filterMap accepted?

def startedIn (es : List (ScopeEvent η)) : List η := es.filterMap started?

def SucceededIn (es : List (ScopeEvent η)) : Prop := .cancelled (.ok ()) ∈ es

end ScopeEvent

open ScopeEvent

structure ScopeUse (η : Type) where
  scope : CancelScope η := {}
  /-- The handler that a cancel is running. -/
  running : Option η := none
  events : List (ScopeEvent η) := []

namespace ScopeUse

variable {η : Type} {u : ScopeUse η} {handler : η}

def tell (e : ScopeEvent η) (u : ScopeUse η) : ScopeUse η := { u with events := u.events ++ [e] }

def trip (u : ScopeUse η) : ScopeUse η := { u with scope := u.scope.endCancel }

def leave (u : ScopeUse η) : ScopeUse η := { u with running := none }

def act (u : ScopeUse η) : ScopeAct η → ScopeUse η
  | .register handler =>
    match u.scope.register handler with
    | .ok scope => { u with scope }.tell (.registered handler (.ok ()))
    | .error f => u.tell (.registered handler (.error f))
  | .cancel =>
    match u.scope.beginCancel with
    | .error f => u.tell (.cancelled (.error f))
    | .ok (scope, none) => { u with scope }.trip.tell (.cancelled (.ok ()))
    | .ok (scope, some handler) =>
      { u with scope, running := some handler }.tell (.started handler)
  | .handlerReturned => if u.running.isSome then u.trip.leave.tell (.cancelled (.ok ())) else u
  | .handlerPanicked => if u.running.isSome then u.leave.tell .unwound else u

def run (u : ScopeUse η) (acts : List (ScopeAct η)) : ScopeUse η := acts.foldl act u

theorem run_keeps {P : ScopeUse η → Prop} (keep : ∀ u a, P u → P (u.act a)) (h : P u)
    (acts : List (ScopeAct η)) : P (u.run acts) := by
  induction acts generalizing u with
  | nil => exact h
  | cons a acts ih => exact ih (keep u a h)

@[simp] theorem acceptedIn_tell (e : ScopeEvent η) (u : ScopeUse η) :
    acceptedIn (u.tell e).events = acceptedIn u.events ++ e.accepted?.toList := by
  cases h : e.accepted? <;> simp [acceptedIn, tell, h]

@[simp] theorem startedIn_tell (e : ScopeEvent η) (u : ScopeUse η) :
    startedIn (u.tell e).events = startedIn u.events ++ e.started?.toList := by
  cases h : e.started? <;> simp [startedIn, tell, h]

@[simp] theorem succeededIn_tell (e : ScopeEvent η) (u : ScopeUse η) :
    SucceededIn (u.tell e).events ↔ SucceededIn u.events ∨ e = .cancelled (.ok ()) := by
  simp [SucceededIn, tell, eq_comm]

@[simp] theorem scope_tell (e : ScopeEvent η) (u : ScopeUse η) : (u.tell e).scope = u.scope := rfl

@[simp] theorem tripped_trip (u : ScopeUse η) : u.trip.scope.tripped = true := rfl

@[simp] theorem events_trip (u : ScopeUse η) : u.trip.events = u.events := rfl

@[simp] theorem scope_leave (u : ScopeUse η) : u.leave.scope = u.scope := rfl

@[simp] theorem events_leave (u : ScopeUse η) : u.leave.events = u.events := rfl

theorem act_register_of_empty (h : u.scope.slot = .empty) (handler : η) :
    u.act (.register handler) =
      { u with scope := { u.scope with slot := .registered handler } }.tell
        (.registered handler (.ok ())) := by
  simp only [act, CancelScope.register, h]

theorem act_register_of_taken (h : u.scope.slot ≠ .empty) (handler : η) :
    u.act (.register handler) =
      u.tell (.registered handler (.error .cancelHandlerAlreadySet)) := by
  rw [act, CancelScope.register]
  cases hslot : u.scope.slot with
  | empty => exact absurd hslot h
  | registered kept => rfl
  | fired => rfl

theorem act_cancel_of_empty (h : u.scope.slot = .empty) :
    u.act .cancel = u.tell (.cancelled (.error .cancelHandlerMissing)) := by
  simp only [act, CancelScope.beginCancel, h]

theorem act_cancel_of_registered (h : u.scope.slot = .registered handler) :
    u.act .cancel =
      { u with scope := { u.scope with slot := .fired }, running := some handler }.tell
        (.started handler) := by
  simp only [act, CancelScope.beginCancel, h]

theorem act_cancel_of_fired (h : u.scope.slot = .fired) :
    u.act .cancel = u.trip.tell (.cancelled (.ok ())) := by
  simp only [act, CancelScope.beginCancel, h]

theorem act_handlerReturned (h : u.running = some handler) :
    u.act .handlerReturned = u.trip.leave.tell (.cancelled (.ok ())) := by
  simp [act, h]

theorem act_of_idle (h : u.running = none) :
    u.act .handlerReturned = u ∧ u.act .handlerPanicked = u := by
  simp [act, h]

theorem events_act (u : ScopeUse η) (a : ScopeAct η) : u.events <+: (u.act a).events := by
  cases a <;> simp only [act, tell, trip, leave] <;> split <;>
    first | exact List.prefix_append _ _ | exact List.prefix_rfl

theorem events_run (u : ScopeUse η) (acts : List (ScopeAct η)) :
    u.events <+: (u.run acts).events :=
  run_keeps (P := fun v => u.events <+: v.events) (fun v a h => h.trans (v.events_act a))
    List.prefix_rfl acts

structure Unstarted (u : ScopeUse η) : Prop where
  quiet : u.scope.tripped = false
  idle : u.running = none
  started : startedIn u.events = []
  failed : ¬ SucceededIn u.events

theorem Unstarted.tell (h : u.Unstarted) {e : ScopeEvent η} (hstarted : e.started? = none)
    (hfailed : e ≠ .cancelled (.ok ())) : (u.tell e).Unstarted :=
  ⟨h.quiet, h.idle, by simp [h.started, hstarted],
    by simp [h.failed, hfailed]⟩

structure Started (handler : η) (u : ScopeUse η) : Prop where
  slot : u.scope.slot = .fired
  running : ∀ h, u.running = some h → h = handler
  accepted : acceptedIn u.events = [handler]
  started : startedIn u.events = [handler]
  order : ∃ before after, u.events = before ++ .started handler :: after ∧ ¬ SucceededIn before

theorem Started.tell (h : u.Started handler) {e : ScopeEvent η} (haccepted : e.accepted? = none)
    (hstarted : e.started? = none) : (u.tell e).Started handler := by
  obtain ⟨before, after, hevents, hbefore⟩ := h.order
  refine ⟨h.slot, h.running, ?_, ?_, before, after ++ [e], ?_, hbefore⟩
  · simp [h.accepted, haccepted]
  · simp [h.started, hstarted]
  · simp [ScopeUse.tell, hevents]

theorem Started.trip (h : u.Started handler) : u.trip.Started handler :=
  ⟨h.slot, h.running, h.accepted, h.started, h.order⟩

theorem Started.leave (h : u.Started handler) : u.leave.Started handler :=
  ⟨h.slot, fun _ hnone => (by cases hnone), h.accepted, h.started, h.order⟩

/-- Before a handler is accepted, while it is kept, and from its start on. -/
inductive Phase (u : ScopeUse η) : Prop
  | empty (slot : u.scope.slot = .empty) (accepted : acceptedIn u.events = []) (h : u.Unstarted)
  | registered (handler : η) (slot : u.scope.slot = .registered handler)
    (accepted : acceptedIn u.events = [handler]) (h : u.Unstarted)
  | fired (handler : η) (tripped : u.scope.tripped = true ↔ SucceededIn u.events)
    (h : u.Started handler)

theorem phase_fresh : ({} : ScopeUse η).Phase :=
  .empty rfl rfl ⟨rfl, rfl, rfl, List.not_mem_nil⟩

theorem Phase.act (h : u.Phase) (a : ScopeAct η) : (u.act a).Phase := by
  cases h with
  | empty slot accepted h =>
    cases a with
    | register handler =>
      rw [act_register_of_empty slot]
      have hkept : { u with scope := { u.scope with slot := .registered handler } }.Unstarted :=
        ⟨h.quiet, h.idle, h.started, h.failed⟩
      exact .registered handler rfl (by simp [accepted, accepted?]) (hkept.tell rfl nofun)
    | cancel =>
      rw [act_cancel_of_empty slot]
      exact .empty slot (by simp [accepted, accepted?]) (h.tell rfl nofun)
    | handlerReturned =>
      rw [(act_of_idle h.idle).1]
      exact .empty slot accepted h
    | handlerPanicked =>
      rw [(act_of_idle h.idle).2]
      exact .empty slot accepted h
  | registered kept slot accepted h =>
    cases a with
    | register handler =>
      rw [act_register_of_taken (by simp [slot])]
      exact .registered kept slot (by simp [accepted, accepted?]) (h.tell rfl nofun)
    | cancel =>
      rw [act_cancel_of_registered slot]
      refine .fired kept (by simp [h.quiet, h.failed]) ⟨rfl, ?_, ?_, ?_, ?_⟩
      · exact fun h hh => (Option.some.inj hh).symm
      · simp [accepted, accepted?]
      · simp [h.started, started?]
      · exact ⟨u.events, [], rfl, h.failed⟩
    | handlerReturned =>
      rw [(act_of_idle h.idle).1]
      exact .registered kept slot accepted h
    | handlerPanicked =>
      rw [(act_of_idle h.idle).2]
      exact .registered kept slot accepted h
  | fired kept tripped h =>
    cases a with
    | register handler =>
      rw [act_register_of_taken (by simp [h.slot])]
      exact .fired kept (by simp [tripped]) (h.tell rfl rfl)
    | cancel =>
      rw [act_cancel_of_fired h.slot]
      exact .fired kept (by simp) (h.trip.tell rfl rfl)
    | handlerReturned =>
      rw [ScopeUse.act]
      split
      · exact .fired kept (by simp)
          (h.trip.leave.tell rfl rfl)
      · exact .fired kept tripped h
    | handlerPanicked =>
      rw [ScopeUse.act]
      split
      · exact .fired kept (by simp [tripped]) (h.leave.tell rfl rfl)
      · exact .fired kept tripped h

theorem Phase.run (h : u.Phase) (acts : List (ScopeAct η)) : (u.run acts).Phase :=
  run_keeps (fun _ a h => h.act a) h acts

theorem Phase.tripped_iff (h : u.Phase) : u.scope.tripped = true ↔ SucceededIn u.events := by
  cases h with
  | empty _ _ h => simp [h.quiet, h.failed]
  | registered _ _ _ h => simp [h.quiet, h.failed]
  | fired _ tripped _ => exact tripped

theorem Phase.started_prefix (h : u.Phase) :
    (acceptedIn u.events).length ≤ 1 ∧ startedIn u.events <+: acceptedIn u.events := by
  cases h with
  | empty _ accepted h => simp [accepted, h.started]
  | registered _ _ accepted h => simp [accepted, h.started]
  | fired _ _ h => simp [h.accepted, h.started]

theorem Phase.of_none_accepted (h : u.Phase) (hnone : acceptedIn u.events = []) :
    u.scope.slot = .empty := by
  cases h with
  | empty slot _ _ => exact slot
  | registered _ _ accepted _ => simp [hnone] at accepted
  | fired _ _ h => simp [h.accepted] at hnone

theorem Phase.slot_ne_empty (h : u.Phase) (hsome : acceptedIn u.events ≠ []) :
    u.scope.slot ≠ .empty := by
  cases h with
  | empty _ accepted _ => exact absurd accepted hsome
  | registered _ slot _ _ => simp [slot]
  | fired _ _ h => simp [h.slot]

theorem Phase.of_accepted (h : u.Phase) (haccepted : acceptedIn u.events = [handler])
    (hnone : startedIn u.events = []) : u.scope.slot = .registered handler ∧ u.Unstarted := by
  cases h with
  | empty _ accepted _ => simp [haccepted] at accepted
  | registered kept slot accepted h =>
    obtain rfl : handler = kept := by simpa [haccepted] using accepted
    exact ⟨slot, h⟩
  | fired _ _ h => simp [h.started] at hnone

theorem Phase.of_started (h : u.Phase) (hsome : startedIn u.events ≠ []) :
    ∃ kept, u.Started kept := by
  cases h with
  | empty _ _ h => exact absurd h.started hsome
  | registered _ _ _ h => exact absurd h.started hsome
  | fired kept _ h => exact ⟨kept, h⟩

theorem Phase.of_succeeded (h : u.Phase) (hsucceeded : SucceededIn u.events) :
    startedIn u.events ≠ [] := by
  cases h with
  | empty _ _ h => exact absurd hsucceeded h.failed
  | registered _ _ _ h => exact absurd hsucceeded h.failed
  | fired kept _ h => simp [h.started]

theorem Phase.of_running (h : u.Phase) (hrunning : u.running = some handler) :
    u.Started handler := by
  cases h with
  | empty _ _ h => simp [h.idle] at hrunning
  | registered _ _ _ h => simp [h.idle] at hrunning
  | fired kept _ h => exact h.running handler hrunning ▸ h

/-- In every order of calls one handler at most is accepted, and it runs once; a cancel before that
is refused, and the token is tripped exactly when a cancel has succeeded. -/
theorem run_settled (acts more : List (ScopeAct η)) :
    let u := ({} : ScopeUse η).run acts
    u.events <+: (u.run more).events ∧
    ((acceptedIn u.events).length ≤ 1 ∧ startedIn u.events <+: acceptedIn u.events) ∧
    (acceptedIn u.events = [] →
      u.act .cancel = u.tell (.cancelled (.error .cancelHandlerMissing)) ∧
      ∀ handler, acceptedIn ((u.act .cancel).act (.register handler)).events = [handler]) ∧
    (∀ handler, acceptedIn u.events = [handler] → startedIn u.events = [] →
      ¬ SucceededIn u.events ∧ (u.act .cancel).running = some handler ∧
      startedIn (u.act .cancel).events = [handler]) ∧
    (acceptedIn u.events ≠ [] → ∀ handler,
      u.act (.register handler) =
        u.tell (.registered handler (.error .cancelHandlerAlreadySet))) ∧
    (SucceededIn u.events → startedIn u.events ≠ []) ∧
    (startedIn u.events ≠ [] → u.act .cancel = u.trip.tell (.cancelled (.ok ()))) ∧
    (u.scope.tripped = true ↔ SucceededIn u.events) ∧
    ∀ handler, u.running = some handler →
      u.act .handlerReturned = u.trip.leave.tell (.cancelled (.ok ())) ∧
      ∃ before during, u.events = before ++ .started handler :: during ∧
        ¬ SucceededIn before ∧ (u.scope.tripped = true → SucceededIn during) := by
  intro u
  have h : u.Phase := phase_fresh.run acts
  refine ⟨u.events_run more, h.started_prefix, ?_, ?_, ?_, h.of_succeeded, ?_, h.tripped_iff, ?_⟩
  · intro hnone
    have hslot : u.scope.slot = .empty := h.of_none_accepted hnone
    have hrefused := act_cancel_of_empty hslot
    refine ⟨hrefused, fun handler => ?_⟩
    rw [hrefused, act_register_of_empty (u := u.tell _) hslot]
    simp [hnone, accepted?]
  · intro handler haccepted hnone
    obtain ⟨hslot, hunstarted⟩ := h.of_accepted haccepted hnone
    rw [act_cancel_of_registered hslot]
    exact ⟨hunstarted.failed, rfl, by simp [hnone, started?]⟩
  · exact fun hsome => act_register_of_taken (h.slot_ne_empty hsome)
  · intro hsome
    obtain ⟨kept, hkept⟩ := h.of_started hsome
    exact act_cancel_of_fired hkept.slot
  · intro handler hrunning
    obtain ⟨before, during, hevents, hbefore⟩ := (h.of_running hrunning).order
    refine ⟨act_handlerReturned hrunning, before, during, hevents, hbefore, fun htripped => ?_⟩
    have hsucceeded := h.tripped_iff.1 htripped
    rw [hevents, SucceededIn, List.mem_append, List.mem_cons] at hsucceeded
    exact (hsucceeded.resolve_left hbefore).resolve_left nofun

end ScopeUse
end PackageHandling
