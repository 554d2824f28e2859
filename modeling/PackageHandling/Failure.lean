import PackageHandling.Expectation

/-!
# Failures

What ends an operation instead of answering it.
-/

namespace PackageHandling

/-- A timeout keeps its budget in microseconds.  Contexts wrap a message from the inside out. -/
inductive Failure
  | timeout (label : String) (micros : Nat)
  | cancelHandlerMissing | cancelHandlerAlreadySet
  | cancelled (label : String)
  | alreadyStarted (label : String)
  | accessorNotRegistered (type : AccessType)
  | unsupported (type : AccessType) (operation : String)
  | unexpectedAccessorType (expected actual : AccessType)
  | wrongExpectationType (expected actual : ExpectationType)
  | backend (accessorId message : String)
  | manager (managerId message : String)
  | config (message : String)
  | io (message : String)
  | json (message : String)
  | other (message : String) (contexts : List String)
  deriving DecidableEq, Inhabited

namespace Failure

/-- A budget of so many milliseconds ran out. -/
def elapsed (label : String) (ms : Nat) : Failure := .timeout label (ms * 1000)

def ofMismatch (m : Mismatch) : Failure := .json m.message

def isTimeout : Failure → Bool
  | timeout .. => true
  | _ => false

def message : Failure → String
  | timeout label micros => s!"Timeout after {micros / 1000}ms: {label}"
  | cancelHandlerMissing => "Cancel called before a cancel handler was registered"
  | cancelHandlerAlreadySet => "A cancel handler is already registered"
  | cancelled label => "Cancelled: " ++ label
  | alreadyStarted label => "Work \"" ++ label ++ "\" has already been started"
  | accessorNotRegistered type => "No accessor handle registered for type " ++ type.name
  | unsupported type operation => operation ++ " is not supported by " ++ type.name ++ " accessors"
  | unexpectedAccessorType expected actual =>
    "Unexpected accessor type " ++ actual.name ++ ", expected " ++ expected.name
  | wrongExpectationType expected actual =>
    "Wrong expectation type: expected " ++ expected.name ++ ", got " ++ actual.name
  | backend id message => "Backend error on accessor " ++ id ++ ": " ++ message
  | manager id message => "Manager " ++ id ++ " call failed: " ++ message
  | config message => "Configuration error: " ++ message
  | io message => "IO error: " ++ message
  | json message => "JSON error: " ++ message
  | other message contexts => contexts.getLast?.getD message

/-- The message with all its causes, outermost first; a wrapped fault names its cause again. -/
def fullMessage : Failure → String
  | io message => "IO error: " ++ message ++ ": " ++ message
  | json message => "JSON error: " ++ message ++ ": " ++ message
  | other message contexts => ": ".intercalate (contexts.reverse ++ [message])
  | f => f.message

/-- What an operator is told. -/
def summary : Failure → String
  | timeout .. => "Operation timed out"
  | cancelled _ => "Work was cancelled"
  | accessorNotRegistered _ | unsupported .. => "Accessor type is not supported by this worker"
  | backend .. | io _ => "Error accessing the package"
  | manager .. => "Could not reach the Expectation Manager"
  | config _ => "Worker configuration error"
  | _ => "Internal error"

def reason (f : Failure) : Reason := ⟨f.summary, f.message⟩

/-- A failure as an answer is always unknown. -/
def rejection (f : Failure) : Rejection := ⟨f.reason, false⟩

/-- The name of the kind of failure. -/
def kind : Failure → String
  | timeout .. => "Timeout"
  | cancelHandlerMissing => "CancelHandlerMissing"
  | cancelHandlerAlreadySet => "CancelHandlerAlreadySet"
  | cancelled _ => "Cancelled"
  | alreadyStarted _ => "AlreadyStarted"
  | accessorNotRegistered _ => "AccessorNotRegistered"
  | unsupported .. => "Unsupported"
  | unexpectedAccessorType .. => "UnexpectedAccessorType"
  | wrongExpectationType .. => "WrongExpectationType"
  | backend .. => "Backend"
  | manager .. => "Manager"
  | config _ => "Config"
  | io _ => "Io"
  | json _ => "Json"
  | other .. => "Other"

end Failure

/-- The guard of work that suits one type of expectation. -/
def Expectation.requireType (e : Expectation) (expected : ExpectationType) : Except Failure Unit :=
  if e.type = expected then .ok () else .error (.wrongExpectationType expected e.type)

end PackageHandling
