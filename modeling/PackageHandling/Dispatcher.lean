import PackageHandling.Handler

/-!
# Dispatch

A dispatcher has one handler per expectation type and gives each phase the inner action budget.
A phase that runs out of time, or whose handler says so, has the negative answer of the phase.
-/

namespace PackageHandling

/-- A table with one handler for each type of expectation, each in the slot of a type. -/
structure Handlers (β : Type) where
  fileCopy : Handler β
  fileVerify : Handler β
  mediaFileScan : Handler β
  mediaFileDeepScan : Handler β
  mediaFileThumbnail : Handler β
  mediaFilePreview : Handler β
  quantelClipCopy : Handler β
  quantelClipThumbnail : Handler β
  quantelClipPreview : Handler β
  jsonDataCopy : Handler β
  renderHtml : Handler β

namespace Handlers

variable {β : Type}

/-- The handler to turn to for a type. -/
def get (hs : Handlers β) : ExpectationType → Handler β
  | .fileCopy => hs.fileCopy
  | .fileVerify => hs.fileVerify
  | .mediaFileScan => hs.mediaFileScan
  | .mediaFileDeepScan => hs.mediaFileDeepScan
  | .mediaFileThumbnail => hs.mediaFileThumbnail
  | .mediaFilePreview => hs.mediaFilePreview
  | .quantelClipCopy => hs.quantelClipCopy
  | .quantelClipThumbnail => hs.quantelClipThumbnail
  | .quantelClipPreview => hs.quantelClipPreview
  | .jsonDataCopy => hs.jsonDataCopy
  | .renderHtml => hs.renderHtml

/-- A table filled slot by slot from the type of the slot. -/
def ofFn (handler : ExpectationType → Handler β) : Handlers β where
  fileCopy := handler .fileCopy
  fileVerify := handler .fileVerify
  mediaFileScan := handler .mediaFileScan
  mediaFileDeepScan := handler .mediaFileDeepScan
  mediaFileThumbnail := handler .mediaFileThumbnail
  mediaFilePreview := handler .mediaFilePreview
  quantelClipCopy := handler .quantelClipCopy
  quantelClipThumbnail := handler .quantelClipThumbnail
  quantelClipPreview := handler .quantelClipPreview
  jsonDataCopy := handler .jsonDataCopy
  renderHtml := handler .renderHtml

@[simp] theorem get_ofFn (handler : ExpectationType → Handler β) :
    (ofFn handler).get = handler := by
  funext t
  cases t <;> rfl

/-- Refuse a table in which a handler sits in the slot of another type; the first such slot in the
fixed order of types is named. -/
def validate (hs : Handlers β) : Except Failure Unit :=
  match ExpectationType.all.find? fun t => (hs.get t).type ≠ t with
  | some t => .error (.wrongExpectationType t (hs.get t).type)
  | none => .ok ()

theorem type_get {hs : Handlers β} (valid : hs.validate = .ok ()) (t : ExpectationType) :
    (hs.get t).type = t := by
  rw [validate] at valid
  split at valid
  · cases valid
  · next hnone => simpa using List.find?_eq_none.1 hnone t (ExpectationType.mem_all t)

end Handlers

structure Dispatcher (β : Type) where
  worker : Worker β
  handler : ExpectationType → Handler β
  placed : ∀ t, (handler t).type = t

namespace Dispatcher

variable {β α : Type}

/-- A dispatcher over a table in which every handler is in the slot of its own type. -/
def ofHandlers (worker : Worker β) (hs : Handlers β) : Except Failure (Dispatcher β) :=
  match valid : hs.validate with
  | .error f => .error f
  | .ok () => .ok { worker, handler := hs.get, placed := Handlers.type_get valid }

/-- The same over a table that is filled from the types. -/
def create (worker : Worker β) (handler : ExpectationType → Handler β) :
    Except Failure (Dispatcher β) :=
  ofHandlers worker (.ofFn handler)

/-- How a dispatcher shows itself to a developer; its handlers are left out. -/
def inspect (d : Dispatcher β) : String :=
  Text.inspectPart "GenericWorker" [("context", d.worker.inspect)]

def handlerOf (d : Dispatcher β) (e : Expectation) : Handler β := d.handler e.type

theorem type_handlerOf (d : Dispatcher β) (e : Expectation) : (d.handlerOf e).type = e.type :=
  d.placed e.type

/-- A phase under the inner action budget, in which a timeout is a negative answer. -/
def phase (d : Dispatcher β) (label : String) (e : Expectation) (negative : Rejection → α)
    (p : Phase β α) : Plan β Note (Except Failure α) := do
  match ← p.attempt d.worker.config.innerActionTimeout label with
  | .ok a => return .ok a
  | .error f =>
    if f.isTimeout then
      .say (.logged (.phaseTimedOut e.id label f.message))
      return .ok (negative f.rejection)
    return .error f

def support (d : Dispatcher β) (e : Expectation) : Phase β Check :=
  d.phase "doYouSupportExpectation" e .error ((d.handlerOf e).support d.worker e)

/-- A worker that does not know its cost in time should not be picked. -/
def cost (d : Dispatcher β) (e : Expectation) : Phase β (Option Nat) :=
  d.phase "getCostForExpectation" e (fun _ => none) ((d.handlerOf e).cost d.worker e)

def ready (d : Dispatcher β) (e : Expectation) : Phase β Readiness :=
  d.phase "isExpectationReadyToStartWorkingOn" e .refused ((d.handlerOf e).ready d.worker e)

def fulfilled (d : Dispatcher β) (e : Expectation) (was : Bool) : Phase β Fulfillment :=
  d.phase "isExpectationFulfilled" e .error ((d.handlerOf e).fulfilled d.worker e was)

/-- The budget is for setting the job up, not for the job; without time there is no job. -/
def work (d : Dispatcher β) (e : Expectation) : Phase β (Assignment β) :=
  ((d.handlerOf e).work d.worker e).attempt d.worker.config.innerActionTimeout "workOnExpectation"

def remove (d : Dispatcher β) (e : Expectation) (reason : String) : Phase β Removal :=
  d.phase "removeExpectation" e .error ((d.handlerOf e).remove d.worker e reason)

/-- The job of an assignment, not yet started. -/
def job (d : Dispatcher β) (a : Assignment β) : Job := .create a.label d.worker.config

end Dispatcher
end PackageHandling
