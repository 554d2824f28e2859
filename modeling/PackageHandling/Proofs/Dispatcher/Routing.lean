import PackageHandling.Proofs.Dispatcher.Budget
import PackageHandling.Proofs.Reach.Cost
import PackageHandling.Rehearsal.Handlers

/-!
# Routing

A table of handlers is accepted exactly if every handler is in the slot of its own type.  A
dispatcher over such a table then takes each of the six phases to the handler in the slot of the
expectation's type, and to no other: the main statement is `phases_routed`.
-/

namespace PackageHandling

variable {β α : Type}

/-! ### Slots -/

namespace Handlers

variable {hs : Handlers β} {f : Failure}

def slots (hs : Handlers β) : List (ExpectationType × Handler β) :=
  [(.fileCopy, hs.fileCopy), (.fileVerify, hs.fileVerify), (.mediaFileScan, hs.mediaFileScan),
    (.mediaFileDeepScan, hs.mediaFileDeepScan), (.mediaFileThumbnail, hs.mediaFileThumbnail),
    (.mediaFilePreview, hs.mediaFilePreview), (.quantelClipCopy, hs.quantelClipCopy),
    (.quantelClipThumbnail, hs.quantelClipThumbnail),
    (.quantelClipPreview, hs.quantelClipPreview), (.jsonDataCopy, hs.jsonDataCopy),
    (.renderHtml, hs.renderHtml)]

def InPlace (hs : Handlers β) : Prop := ∀ slot ∈ hs.slots, slot.2.type = slot.1

/-- This slot holds a handler of another type, and every slot before it one of its own. -/
def FirstMisplaced (hs : Handlers β) (t actual : ExpectationType) : Prop :=
  ∃ before h after, hs.slots = before ++ (t, h) :: after ∧
    (∀ slot ∈ before, slot.2.type = slot.1) ∧ h.type = actual ∧ actual ≠ t

theorem slots_eq (hs : Handlers β) : hs.slots = ExpectationType.all.map fun t => (t, hs.get t) :=
  rfl

theorem mem_slots_iff {slot : ExpectationType × Handler β} :
    slot ∈ hs.slots ↔ slot.2 = hs.get slot.1 := by
  rw [slots_eq, List.mem_map]
  constructor
  · rintro ⟨t, -, rfl⟩
    rfl
  · intro h
    exact ⟨slot.1, ExpectationType.mem_all _, Prod.ext rfl h.symm⟩

theorem inPlace_iff : hs.InPlace ↔ ∀ t, (hs.get t).type = t := by
  constructor
  · intro h t
    exact h (t, hs.get t) (mem_slots_iff.2 rfl)
  · intro h slot hslot
    rw [mem_slots_iff.1 hslot]
    exact h slot.1

theorem validate_eq (hs : Handlers β) :
    hs.validate = match hs.slots.find? fun slot => slot.2.type ≠ slot.1 with
      | some slot => .error (.wrongExpectationType slot.1 slot.2.type)
      | none => .ok () := by
  have hfind : (hs.slots.find? fun slot => slot.2.type ≠ slot.1) =
      (ExpectationType.all.find? fun t => (hs.get t).type ≠ t).map fun t => (t, hs.get t) := by
    rw [slots_eq, List.find?_map]
    rfl
  rw [hfind, validate]
  cases ExpectationType.all.find? fun t => (hs.get t).type ≠ t <;> rfl

theorem validate_eq_ok_iff : hs.validate = .ok () ↔ hs.InPlace := by
  have hnone : (hs.slots.find? fun slot => slot.2.type ≠ slot.1) = none ↔ hs.InPlace := by
    simp [List.find?_eq_none, InPlace]
  rw [validate_eq, ← hnone]
  cases hs.slots.find? fun slot => slot.2.type ≠ slot.1 <;> simp

theorem validate_eq_error_iff : hs.validate = .error f ↔
    ∃ t actual, hs.FirstMisplaced t actual ∧ f = .wrongExpectationType t actual := by
  rw [validate_eq]
  constructor
  · intro h
    split at h
    · next slot hfind =>
      obtain ⟨hwrong, before, after, hslots, hbefore⟩ := List.find?_eq_some_iff_append.1 hfind
      exact ⟨slot.1, slot.2.type, ⟨before, slot.2, after, hslots, by simpa using hbefore, rfl,
        of_decide_eq_true hwrong⟩, (Except.error.inj h).symm⟩
    · cases h
  · rintro ⟨t, actual, ⟨before, h, after, hslots, hbefore, rfl, hwrong⟩, rfl⟩
    have hfind : (hs.slots.find? fun slot => slot.2.type ≠ slot.1) = some (t, h) :=
      List.find?_eq_some_iff_append.2
        ⟨decide_eq_true hwrong, before, after, hslots, by simpa using hbefore⟩
    rw [hfind]

end Handlers

/-! ### Calls of phases -/

/-- A call of one of the six phases: a question that has a negative answer, or the setup of a
job. -/
inductive PhaseCall (β : Type) : Type → Type 1
  | ask {α : Type} (q : Inquiry α) : PhaseCall β α
  | work : PhaseCall β (Assignment β)

namespace PhaseCall

def attempt (h : Handler β) (w : Worker β) (e : Expectation) : PhaseCall β α → Phase β α
  | ask q => q.attempt h w e
  | work => h.work w e

def phase (d : Dispatcher β) (e : Expectation) : PhaseCall β α → Phase β α
  | ask q => q.phase d e
  | work => d.work e

def bound (d : Dispatcher β) (e : Expectation) : PhaseCall β α → Phase β α → Phase β α
  | ask q, p => d.phase q.label e q.negative p
  | work, p => p.attempt d.worker.config.innerActionTimeout "workOnExpectation"

theorem phase_eq (d : Dispatcher β) (e : Expectation) (c : PhaseCall β α) :
    c.phase d e = c.bound d e (c.attempt (d.handlerOf e) d.worker e) := by
  cases c with
  | ask q => exact q.phase_eq d e
  | work => rfl

/-- Nothing of a dispatcher but its worker plays a part in that. -/
theorem bound_congr {d d' : Dispatcher β} (h : d'.worker = d.worker) (e : Expectation)
    (c : PhaseCall β α) (p : Phase β α) : c.bound d' e p = c.bound d e p := by
  cases c with
  | ask q => simp only [bound, Dispatcher.phase, h]
  | work => simp only [bound, h]

/-- What an attempt does to the state at once is done before the budget starts to count. -/
theorem run_bound_modify (d : Dispatcher β) (e : Expectation) (c : PhaseCall β α) (m : β → β)
    (p : Phase β α) (s : β) :
    (c.bound d e ((Plan.modify m).bind fun _ => p)).run s = (c.bound d e p).run (m s) := by
  -- the step takes no time, so the whole budget is left for what follows
  cases c with
  | ask q => rfl
  | work => rfl

end PhaseCall

/-! ### Handlers with something around their phases -/

/-- What is done around a phase: it is given the call, the worker and the expectation. -/
abbrev Wrapper (β : Type) :=
  ∀ {α : Type}, PhaseCall β α → Worker β → Expectation → Phase β α → Phase β α

def Handler.around (f : Wrapper β) (h : Handler β) : Handler β where
  type := h.type
  support w e := f (.ask .support) w e (h.support w e)
  cost w e := f (.ask .cost) w e (h.cost w e)
  ready w e := f (.ask .ready) w e (h.ready w e)
  fulfilled w e was := f (.ask (.fulfilled was)) w e (h.fulfilled w e was)
  work w e := f .work w e (h.work w e)
  remove w e reason := f (.ask (.remove reason)) w e (h.remove w e reason)

theorem PhaseCall.attempt_around (f : Wrapper β) (h : Handler β) (w : Worker β) (e : Expectation)
    (c : PhaseCall β α) : c.attempt (h.around f) w e = f c w e (c.attempt h w e) := by
  cases c with
  | ask q => cases q <;> rfl
  | work => rfl

/-- A call that a handler gets: the slot it sits in, the phase, and what it is given. -/
structure HandlerCall (β : Type) where
  slot : ExpectationType
  answer : Type
  call : PhaseCall β answer
  worker : Worker β
  expectation : Expectation

namespace Handlers

def around (f : ExpectationType → Wrapper β) (hs : Handlers β) : Handlers β :=
  .ofFn fun t => (hs.get t).around (f t)

/-- Every handler leaves a mark on the state for each call that it gets, such as an entry in a
log. -/
def marked (mark : HandlerCall β → β → β) (hs : Handlers β) : Handlers β :=
  hs.around fun t _ c w e p => (Plan.modify (mark ⟨t, _, c, w, e⟩)).bind fun _ => p

def guarded (hs : Handlers β) : Handlers β :=
  hs.around fun t _ _ _ e p => Rehearsal.Copy.guarded (hs.get t).type e p

theorem InPlace.around {hs : Handlers β} (h : hs.InPlace) (f : ExpectationType → Wrapper β) :
    (hs.around f).InPlace := by
  rw [inPlace_iff] at h ⊢
  intro t
  rw [Handlers.around, get_ofFn]
  exact h t

end Handlers

def Handler.UsesStandardCost (h : Handler β) : Prop :=
  ∀ w e, h.cost w e = w.guardedCost h.type e

namespace Dispatcher

variable {worker : Worker β} {hs : Handlers β} {d : Dispatcher β} {e : Expectation} {f : Failure}

theorem ofHandlers_eq_ok_iff : ofHandlers worker hs = .ok d ↔
    hs.InPlace ∧ d.worker = worker ∧ d.handler = hs.get := by
  rw [ofHandlers.eq_def]
  split
  · next f refused =>
    refine ⟨nofun, fun h => ?_⟩
    rw [Handlers.validate_eq_ok_iff.2 h.1] at refused
    cases refused
  · next valid =>
    constructor
    · rintro ⟨⟩
      exact ⟨Handlers.validate_eq_ok_iff.1 valid, rfl, rfl⟩
    · obtain ⟨worker', handler', _⟩ := d
      rintro ⟨-, rfl, rfl⟩
      rfl

theorem ofHandlers_eq_error_iff : ofHandlers worker hs = .error f ↔
    ∃ t actual, hs.FirstMisplaced t actual ∧ f = .wrongExpectationType t actual := by
  rw [← Handlers.validate_eq_error_iff, ofHandlers.eq_def]
  split
  · next f' refused =>
    rw [refused]
    exact ⟨fun h => congrArg _ (Except.error.inj h), fun h => congrArg _ (Except.error.inj h)⟩
  · next valid =>
    exact ⟨nofun, fun h => nomatch valid.symm.trans h⟩

theorem exists_ofHandlers_iff (worker : Worker β) :
    (∃ d, ofHandlers worker hs = .ok d) ↔ hs.InPlace := by
  constructor
  · rintro ⟨d, accepted⟩
    exact (ofHandlers_eq_ok_iff.1 accepted).1
  · intro h
    exact ⟨⟨worker, hs.get, Handlers.inPlace_iff.1 h⟩, ofHandlers_eq_ok_iff.2 ⟨h, rfl, rfl⟩⟩

/-- With something around the phases of all handlers a table is accepted as before, and of what is
done around them only that of the one handler, the call and its arguments shows. -/
theorem exists_around (accepted : ofHandlers worker hs = .ok d) (f : ExpectationType → Wrapper β) :
    ∃ d', ofHandlers worker (hs.around f) = .ok d' ∧ ∀ e (α : Type) (c : PhaseCall β α),
      c.phase d' e = c.bound d e (f e.type c worker e (c.attempt (d.handlerOf e) worker e)) := by
  obtain ⟨hplaced, hworker, hhandler⟩ := ofHandlers_eq_ok_iff.1 accepted
  obtain ⟨d', haccepted⟩ := (exists_ofHandlers_iff worker).2 (hplaced.around f)
  obtain ⟨-, hworker', hhandler'⟩ := ofHandlers_eq_ok_iff.1 haccepted
  refine ⟨d', haccepted, fun e α c => ?_⟩
  have hwrapped : d'.handlerOf e = (d.handlerOf e).around (f e.type) := by
    rw [handlerOf, hhandler', Handlers.around, Handlers.get_ofFn, handlerOf, hhandler]
  rw [c.phase_eq, hwrapped, c.attempt_around, hworker', c.bound_congr (hworker'.trans hworker.symm)]

theorem requireType_handlerOf (d : Dispatcher β) (e : Expectation) :
    e.requireType (d.handlerOf e).type = .ok () :=
  if_pos (d.type_handlerOf e).symm

theorem run_cost (h : (d.handlerOf e).UsesStandardCost) (s : β) :
    (d.cost e).run s = ⟨.ok (d.worker.standardCost e), 0, s, []⟩ := by
  have hown : (d.handlerOf e).cost d.worker e = .done (.ok (d.worker.standardCost e)) := by
    rw [h, Worker.guardedCost, d.requireType_handlerOf]
    rfl
  have hinTime : (((d.handlerOf e).cost d.worker e).run s).InTime
      d.worker.config.innerActionTimeout := by
    rw [hown]
    exact ⟨Nat.zero_le _, nofun⟩
  rw [cost, d.run_phase_inTime hinTime, hown]
  rfl

/-- A table makes a dispatcher exactly if every slot holds a handler of its own type, and each phase
is then one call of the one handler whose type is that of the expectation. -/
theorem phases_routed (worker : Worker β) (hs : Handlers β) :
    ((∃ d, ofHandlers worker hs = .ok d) ↔ ∀ slot ∈ hs.slots, slot.2.type = slot.1) ∧
    (∀ f, ofHandlers worker hs = .error f ↔
      ∃ t actual, hs.FirstMisplaced t actual ∧ f = .wrongExpectationType t actual) ∧
    ∀ d, ofHandlers worker hs = .ok d → ∀ e,
      let h := d.handlerOf e
      (e.type, h) ∈ hs.slots ∧ h.type = e.type ∧
      (∀ slot ∈ hs.slots, slot.2.type = e.type → slot = (e.type, h)) ∧
      (∀ mark, ∃ d', ofHandlers worker (hs.marked mark) = .ok d' ∧
        ∀ (α : Type) (c : PhaseCall β α) s,
          (c.phase d' e).run s = (c.phase d e).run (mark ⟨e.type, α, c, worker, e⟩ s)) ∧
      e.requireType h.type = .ok () ∧
      (∃ d', ofHandlers worker hs.guarded = .ok d' ∧
        ∀ (α : Type) (c : PhaseCall β α), c.phase d' e = c.phase d e) ∧
      (h.UsesStandardCost → ∀ s, (d.cost e).run s = ⟨.ok (worker.standardCost e), 0, s, []⟩) := by
  refine ⟨exists_ofHandlers_iff worker, fun f => ofHandlers_eq_error_iff, fun d accepted e => ?_⟩
  intro h
  obtain ⟨hplaced, hworker, hhandler⟩ := ofHandlers_eq_ok_iff.1 accepted
  have hh : h = hs.get e.type := congrFun hhandler e.type
  have hguard : e.requireType h.type = .ok () := d.requireType_handlerOf e
  refine ⟨Handlers.mem_slots_iff.2 hh, d.type_handlerOf e, fun slot hslot htype => ?_,
    fun mark => ?_, hguard, ?_, fun hstandard s => hworker ▸ run_cost hstandard s⟩
  · -- another handler of this type would sit in the slot of the type that it reports
    have hslotType : slot.1 = e.type := (hplaced slot hslot).symm.trans htype
    have hslotHandler : slot.2 = h := by rw [Handlers.mem_slots_iff.1 hslot, hslotType, hh]
    exact Prod.ext hslotType hslotHandler
  · obtain ⟨d', haccepted, hphase⟩ := exists_around accepted _
    refine ⟨d', haccepted, fun α c s => ?_⟩
    rw [hphase, c.run_bound_modify, c.phase_eq, hworker]
  · obtain ⟨d', haccepted, hphase⟩ := exists_around accepted _
    refine ⟨d', haccepted, fun α c => ?_⟩
    rw [hphase, c.phase_eq, hworker, ← hh, Rehearsal.Copy.guarded, hguard]

/-- Copy handlers in all slots; of two handlers that are exchanged the first slot is named. -/
theorem phases_routed_among_copies :
    let factory : Factory (List ExpectationType) :=
      { create := fun _ s => (.error .cancelHandlerMissing, s) }
    let w : Worker (List ExpectationType) := ⟨"worker", ⟨none, []⟩, Config.default fun _ => none,
      .ofList [(.http, factory), (.localFolder, factory)]⟩
    let hs : Handlers (List ExpectationType) := .ofFn (Rehearsal.copyHandler 0)
    let crossed := { hs with fileVerify := hs.renderHtml, renderHtml := hs.fileVerify }
    let log (call : HandlerCall (List ExpectationType)) (entries : List ExpectationType) :=
      entries ++ [call.slot]
    ∃ d d', ofHandlers w hs = .ok d ∧ ofHandlers w (hs.marked log) = .ok d' ∧
      (d.handlerOf .fromWeb).UsesStandardCost ∧
      (d'.cost .fromWeb).run [] = ⟨.ok (some 120), 0, [.fileCopy], []⟩ ∧
      ofHandlers w crossed = .error (.wrongExpectationType .fileVerify .renderHtml) := by
  intro factory w hs crossed log
  obtain ⟨hplaced, -, hrouted⟩ := phases_routed w hs
  have hslots : ∀ slot ∈ hs.slots, slot.2.type = slot.1 := Handlers.inPlace_iff.2 fun t => by
    rw [Handlers.get_ofFn]
    rfl
  obtain ⟨d, accepted⟩ := hplaced.2 hslots
  have hstandard : (d.handlerOf .fromWeb).UsesStandardCost := by
    rw [handlerOf, (ofHandlers_eq_ok_iff.1 accepted).2.2, Handlers.get_ofFn]
    exact fun _ _ => rfl
  have hprice : w.standardCost .fromWeb = some 120 := by decide
  obtain ⟨-, -, -, hmarked, -, -, hcost⟩ := hrouted d accepted .fromWeb
  obtain ⟨d', accepted', hcalled⟩ := hmarked log
  have hentry : (d'.cost .fromWeb).run [] = (d.cost .fromWeb).run [.fileCopy] :=
    hcalled _ (.ask .cost) []
  obtain ⟨-, hrefused, -⟩ := phases_routed w crossed
  have hbefore : ∀ slot ∈ [(ExpectationType.fileCopy, hs.fileCopy)], slot.2.type = slot.1 :=
    fun slot hslot => List.mem_singleton.1 hslot ▸ rfl
  have hfirst : crossed.FirstMisplaced .fileVerify .renderHtml :=
    ⟨_, hs.renderHtml, _, rfl, hbefore, rfl, by decide⟩
  refine ⟨d, d', accepted, accepted', hstandard, ?_, (hrefused _).2 ⟨_, _, hfirst, rfl⟩⟩
  rw [hentry, hcost hstandard, hprice]

end Dispatcher
end PackageHandling
