import PackageHandling.Failure

/-!
# Cancel scopes

A scope holds at most one cleanup handler.  The first cancel runs it and then trips the token;
a cancel before any registration fails and leaves the scope as it was.
-/

namespace PackageHandling

inductive HandlerSlot (η : Type)
  | empty | registered (handler : η) | fired
  deriving DecidableEq, Inhabited

structure CancelScope (η : Type) where
  slot : HandlerSlot η := .empty
  tripped : Bool := false
  deriving DecidableEq, Inhabited

namespace CancelScope

variable {η : Type}

def register (handler : η) (s : CancelScope η) : Except Failure (CancelScope η) :=
  match s.slot with
  | .empty => .ok { s with slot := .registered handler }
  | .registered _ | .fired => .error .cancelHandlerAlreadySet

/-- The first half of a cancel: the handler that is now to run, if any.  From here on the scope
takes no other handler. -/
def beginCancel (s : CancelScope η) : Except Failure (CancelScope η × Option η) :=
  match s.slot with
  | .empty => .error .cancelHandlerMissing
  | .registered handler => .ok ({ s with slot := .fired }, some handler)
  | .fired => .ok (s, none)

/-- The second half, after the handler. -/
def endCancel (s : CancelScope η) : CancelScope η := { s with tripped := true }

/-- A cancel whose handler leaves the scope alone. -/
def cancel (s : CancelScope η) : Except Failure (CancelScope η × Option η) := do
  let (s, handler) ← s.beginCancel
  return (s.endCancel, handler)

theorem cancel_of_registered {s : CancelScope η} {handler : η} (h : s.slot = .registered handler) :
    s.cancel = .ok (⟨.fired, true⟩, some handler) := by
  rw [cancel, beginCancel, h]
  rfl

theorem cancel_of_fired {s : CancelScope η} (h : s.slot = .fired) :
    s.cancel = .ok (s.endCancel, none) := by
  rw [cancel, beginCancel, h]
  rfl

end CancelScope
end PackageHandling
