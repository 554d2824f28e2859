import PackageHandling.Pipe

/-!
# Pipes and their streams

A scene is a pipe with what its source has still to hand out.  An act is one step of the source,
of the target or of somebody who cancels, and the pipe may notice a cancel, or not, whenever it
waits for a stream; an act that is not possible now changes nothing.
-/

namespace PackageHandling

/-- What a source hands out, read by read, and the error of the read after that; without one, that
read is the end of the stream. -/
structure PipeSource where
  chunks : List (List UInt8)
  nonempty : ∀ c ∈ chunks, c ≠ []
  failure : Option String := none

namespace PipeSource

def bytes (s : PipeSource) : List UInt8 := s.chunks.flatten

def ending (s : PipeSource) : PipeEvent :=
  match s.failure with
  | none => .read []
  | some message => .readFailed message

end PipeSource

inductive PipeAct
  | read | write (answer : Except String Nat) | flush (answer : Except String Unit)
  | close (answer : Except String Unit) | notice | cancel

structure PipeScene where
  pipe : Pipe
  rest : List (List UInt8)

namespace Pipe

variable {p q : Pipe}

/-- What a step can do: every failure ends the pipe and changes nothing else. -/
inductive Steps (p : Pipe) : PipeEvent → Pipe → Prop
  | read (stage : p.stage = .reading) (chunk : List UInt8) :
    Steps p (.read chunk)
      { p with stage := if chunk.isEmpty then .flushing else .writing chunk chunk.length }
  | accepted {left : List UInt8} {length : Nat} (stage : p.stage = .writing left length)
    (count : Nat) : Steps p (.accepted count) (p.accept left length count)
  | flushed (stage : p.stage = .flushing) : Steps p .flushed { p with stage := .closing }
  | closed (stage : p.stage = .closing) : Steps p .closed (p.finish (.ok p.copied))
  | failed (e : PipeEvent) (f : Failure) : Steps p e (p.finish (.error f))

theorem steps_of_notice {e : PipeEvent} (h : p.notice = some q) : p.Steps e q := by
  rw [notice] at h
  split at h
  · cases h
    exact .failed e _
  · cases h

theorem steps_of_step {e : PipeEvent} (h : p.step e = some q) : p.Steps e q := by
  unfold step at h
  split at h
  · next hstage =>
    cases h
    exact .read hstage _
  · cases h
    exact .failed _ _
  · exact steps_of_notice h
  · cases h
    exact .failed _ _
  · next hstage =>
    cases h
    exact .accepted hstage _
  · cases h
    exact .failed _ _
  · exact steps_of_notice h
  · next hstage =>
    cases h
    exact .flushed hstage
  · cases h
    exact .failed _ _
  · next hstage =>
    cases h
    exact .closed hstage
  · cases h
    exact .failed _ _
  · cases h

end Pipe

namespace PipeScene

def start (s : PipeSource) (sourceCancelled targetCancelled : Bool) : PipeScene :=
  ⟨.join sourceCancelled targetCancelled, s.chunks⟩

def tell (e : PipeEvent) (t : PipeScene) : PipeScene :=
  { t with pipe := (t.pipe.step e).getD t.pipe }

def read (s : PipeSource) (t : PipeScene) : PipeScene :=
  match t.pipe.stage, t.rest with
  | .reading, chunk :: rest => { t with rest }.tell (.read chunk)
  | .reading, [] => t.tell s.ending
  | _, _ => t

def act (s : PipeSource) (t : PipeScene) : PipeAct → PipeScene
  | .read => t.read s
  | .write (.ok count) => t.tell (.accepted count)
  | .write (.error message) => t.tell (.writeFailed message)
  | .flush (.ok ()) => t.tell .flushed
  | .flush (.error message) => t.tell (.flushFailed message)
  | .close (.ok ()) => t.tell .closed
  | .close (.error message) => t.tell (.closeFailed message)
  | .notice => t.tell .cancelNoticed
  | .cancel => { t with pipe := t.pipe.cancel.2 }

def run (s : PipeSource) (t : PipeScene) (acts : List PipeAct) : PipeScene :=
  acts.foldl (act s) t

theorem run_keeps {s : PipeSource} {P : PipeScene → Prop} (keep : ∀ t a, P t → P (t.act s a))
    {t : PipeScene} (h : P t) (acts : List PipeAct) : P (t.run s acts) := by
  induction acts generalizing t with
  | nil => exact h
  | cons a acts ih => exact ih (keep t a h)

inductive Moves (s : PipeSource) (t : PipeScene) : PipeAct → PipeScene → Prop
  | stays (a : PipeAct) : Moves s t a t
  | chunk {chunk : List UInt8} {rest : List (List UInt8)} (stage : t.pipe.stage = .reading)
    (more : t.rest = chunk :: rest) :
    Moves s t .read
      ⟨{ t.pipe with stage := if chunk.isEmpty then .flushing else .writing chunk chunk.length },
        rest⟩
  | drained (stage : t.pipe.stage = .reading) (rest : t.rest = []) (ends : s.failure = none) :
    Moves s t .read { t with pipe := { t.pipe with stage := .flushing } }
  | accepted {left : List UInt8} {length : Nat} (stage : t.pipe.stage = .writing left length)
    (count : Nat) :
    Moves s t (.write (.ok count)) { t with pipe := t.pipe.accept left length count }
  | flushed (stage : t.pipe.stage = .flushing) :
    Moves s t (.flush (.ok ())) { t with pipe := { t.pipe with stage := .closing } }
  | closed (stage : t.pipe.stage = .closing) :
    Moves s t (.close (.ok ())) { t with pipe := t.pipe.finish (.ok t.pipe.copied) }
  | failed (a : PipeAct) (f : Failure) : Moves s t a { t with pipe := t.pipe.finish (.error f) }
  | cancelled : Moves s t .cancel { t with pipe := t.pipe.cancel.2 }

variable {s : PipeSource} {t : PipeScene} {a : PipeAct}

theorem moves_tell {e : PipeEvent}
    (h : ∀ q, t.pipe.Steps e q → t.Moves s a { t with pipe := q }) : t.Moves s a (t.tell e) := by
  rw [tell]
  cases hstep : t.pipe.step e with
  | none => exact .stays a
  | some q => exact h q (Pipe.steps_of_step hstep)

theorem moves_read (s : PipeSource) (t : PipeScene) : t.Moves s .read (t.read s) := by
  unfold read
  split
  · next chunk rest hstage hrest =>
    simp only [tell, Pipe.step, hstage]
    exact .chunk hstage hrest
  · next hstage hrest =>
    rw [PipeSource.ending]
    cases hfailure : s.failure with
    | none =>
      exact moves_tell fun
        | _, .read _ _ => .drained hstage hrest hfailure
        | _, .failed _ f => .failed _ f
    | some message => exact moves_tell fun | _, .failed _ f => .failed _ f
  · exact .stays _

theorem moves_act (s : PipeSource) (t : PipeScene) (a : PipeAct) : t.Moves s a (t.act s a) := by
  cases a with
  | read => exact moves_read s t
  | write answer =>
    cases answer with
    | ok count =>
      exact moves_tell fun
        | _, .accepted stage _ => .accepted stage count
        | _, .failed _ f => .failed _ f
    | error message => exact moves_tell fun | _, .failed _ f => .failed _ f
  | flush answer =>
    cases answer with
    | ok _ =>
      exact moves_tell fun
        | _, .flushed stage => .flushed stage
        | _, .failed _ f => .failed _ f
    | error message => exact moves_tell fun | _, .failed _ f => .failed _ f
  | close answer =>
    cases answer with
    | ok _ =>
      exact moves_tell fun
        | _, .closed stage => .closed stage
        | _, .failed _ f => .failed _ f
    | error message => exact moves_tell fun | _, .failed _ f => .failed _ f
  | notice => exact moves_tell fun | _, .failed _ f => .failed _ f
  | cancel => exact .cancelled

end PipeScene
end PackageHandling
