import PackageHandling.CancelScope

/-!
# Pipes

A pipe copies a package from the stream of its source to the stream of its target, chunk by
chunk, and then flushes and closes the target.  It goes on by events: what the streams do, and
that a cancel is noticed.  A cancel trips the tokens of both streams.
-/

namespace PackageHandling

/-- A chunk under way is what is left of it to be written, and how long it was. -/
inductive PipeStage
  | reading | writing (left : List UInt8) (length : Nat) | flushing | closing
  | ended (result : Except Failure Nat)
  deriving Inhabited

/-- An empty chunk is the end of the source. -/
inductive PipeEvent
  | read (chunk : List UInt8) | readFailed (message : String)
  | accepted (count : Nat) | writeFailed (message : String)
  | flushed | flushFailed (message : String) | closed | closeFailed (message : String)
  | cancelNoticed

structure Pipe where
  stage : PipeStage := .reading
  /-- What the target has accepted, the latest byte first. -/
  taken : List UInt8 := []
  copied : Nat := 0
  /-- The totals that were announced, one for each chunk. -/
  progress : List Nat := []
  scope : CancelScope Unit := {}
  sourceCancelled : Bool := false
  targetCancelled : Bool := false

namespace Pipe

/-- The most that is read at once. -/
def chunkLimit : Nat := 64 * 1024

/-- A pipe between two streams, of which either may have been cancelled before. -/
def join (sourceCancelled targetCancelled : Bool) : Pipe :=
  { scope := { slot := .registered () }, sourceCancelled, targetCancelled }

/-- What the target has accepted, in its order. -/
def accepted (p : Pipe) : List UInt8 := p.taken.reverse

def result? (p : Pipe) : Option (Except Failure Nat) :=
  match p.stage with
  | .ended r => some r
  | _ => none

def finish (result : Except Failure Nat) (p : Pipe) : Pipe := { p with stage := .ended result }

/-- The target accepts some bytes of the chunk; the last of them complete it. -/
def accept (left : List UInt8) (length count : Nat) (p : Pipe) : Pipe :=
  if left.length ≤ count then
    { p with
      stage := .reading
      taken := left.reverse ++ p.taken
      copied := p.copied + length
      progress := p.progress ++ [p.copied + length] }
  else
    { p with
      stage := .writing (left.drop count) length
      taken := (left.take count).reverse ++ p.taken }

/-- The cancel is noticed while the pipe waits for a stream, once it was tripped. -/
def notice (p : Pipe) : Option Pipe :=
  if p.scope.tripped then some (p.finish (.error (.cancelled "pipe package"))) else none

/-- What an event leads to; nothing if it cannot come at this stage. -/
def step (e : PipeEvent) (p : Pipe) : Option Pipe :=
  match p.stage, e with
  | .reading, .read chunk =>
    some { p with stage := if chunk.isEmpty then .flushing else .writing chunk chunk.length }
  | .reading, .readFailed m => some (p.finish (.error (.io m)))
  | .reading, .cancelNoticed => p.notice
  | .writing _ _, .accepted 0 => some (p.finish (.error (.io "write zero")))
  | .writing left length, .accepted count => some (p.accept left length count)
  | .writing _ _, .writeFailed m => some (p.finish (.error (.io m)))
  | .writing _ _, .cancelNoticed => p.notice
  | .flushing, .flushed => some { p with stage := .closing }
  | .flushing, .flushFailed m => some (p.finish (.error (.io m)))
  | .closing, .closed => some (p.finish (.ok p.copied))
  | .closing, .closeFailed m => some (p.finish (.error (.io m)))
  | _, _ => none

/-- Cancel from outside: the first one trips both streams. -/
def cancel (p : Pipe) : Except Failure Unit × Pipe :=
  match p.scope.cancel with
  | .error f => (.error f, p)
  | .ok (scope, none) => (.ok (), { p with scope })
  | .ok (scope, some ()) =>
    (.ok (), { p with scope, sourceCancelled := true, targetCancelled := true })

@[simp] theorem accepted_accept (left : List UInt8) (length count : Nat) (p : Pipe) :
    (p.accept left length count).accepted = p.accepted ++ left.take count := by
  unfold accept
  split
  · next h => simp [accepted, List.take_of_length_le h]
  · simp [accepted]

end Pipe
end PackageHandling
