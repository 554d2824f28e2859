import PackageHandling.Pipe
import PackageHandling.Rehearsal.Lifecycle

/-!
# Hauls

A pipe between a scripted source and a scripted target on the virtual clock, perhaps cancelled
from outside at a given time.
-/

namespace PackageHandling
namespace Rehearsal

/-- What a source does next: it waits, hands out so many bytes, or fails. -/
inductive SourceStep
  | wait (ms : Nat) | bytes (count : Nat) | fail (message : String)

/-- How a target takes its bytes.  Each write waits first; a quota is never exceeded. -/
structure TargetScript where
  delay : Nat := 0
  mostAtOnce : Option Nat := none
  quota : Option Nat := none
  quotaMessage : String := ""
  flushError : Option String := none
  closeError : Option String := none

structure Haul where
  pipe : Pipe
  /-- How many bytes were read, and how many of them written. -/
  read : Nat := 0
  written : Nat := 0
  /-- How many writes succeeded, and how often the target was flushed and closed. -/
  writes : Nat := 0
  flushes : Nat := 0
  closes : Nat := 0
  log : List LogEvent := []
  cancel : Option (Except Failure Unit) := none
  elapsed : Nat := 0

namespace Haul

/-- The byte of the source stream at a place. -/
def byteAt (i : Nat) : UInt8 := ((7 * i + 3) % 251).toUInt8

/-- A part of the source stream. -/
def bytesFrom (start count : Nat) : List UInt8 := (List.range' start count).map byteAt

/-- A check sum of bytes. -/
def checkSum (bytes : List UInt8) : Nat :=
  bytes.foldl (fun s b => (31 * s + b.toNat) % 4294967291) 0

def tell (e : PipeEvent) (h : Haul) : Haul := { h with pipe := (h.pipe.step e).getD h.pipe }

/-- An event of the pipe, with a count. -/
def event (e : PipeEvent) (count : Haul → Haul) (next : Process Haul) : Process Haul :=
  .modify (fun _ h => (count h).tell e) next

/-- The cancel is noticed. -/
def noticed : Process Haul :=
  .modify (fun _ h =>
    tell .cancelNoticed { h with log := h.log ++ [.transferCancelled h.pipe.copied] }) .stop

/-- A wait for a stream, unless a cancel comes first. -/
def during (ms : Nat) (next : Process Haul) : Process Haul :=
  Process.awaiting (·.pipe.scope.tripped) (some ms) fun tripped => if tripped then noticed else next

/-- Flush and close. -/
def conclude (t : TargetScript) : Process Haul :=
  let flushed (h : Haul) : Haul := { h with flushes := h.flushes + 1 }
  let closed (h : Haul) : Haul := { h with closes := h.closes + 1 }
  match t.flushError with
  | some m => event (.flushFailed m) flushed .stop
  | none => event .flushed flushed <| match t.closeError with
    | some m => event (.closeFailed m) closed .stop
    | none => event .closed closed .stop

/-- How much the target takes of so many bytes after so many others; nothing beyond its quota. -/
def room (t : TargetScript) (taken offered : Nat) : Option Nat :=
  let offered := match t.mostAtOnce with
    | some n => min n offered
    | none => offered
  match t.quota with
  | some quota => if quota ≤ taken then none else some (min (quota - taken) offered)
  | none => some offered

/-- Write what is left of a chunk; a write that takes nothing is the last. -/
def writeAll (t : TargetScript) (next : Process Haul) (left : Nat) : Process Haul :=
  if left = 0 then next
  else
    during t.delay <| .look fun _ h =>
      match room t h.written left with
      | none => event (.writeFailed t.quotaMessage) id .stop
      | some count =>
        event (.accepted count)
          (fun h => { h with writes := h.writes + 1, written := h.written + count })
          (if count = 0 then .stop else writeAll t next (left - count))
termination_by left

/-- Read so many bytes, no more than a chunk at once, and write each chunk. -/
def haulBytes (t : TargetScript) (next : Process Haul) (count : Nat) : Process Haul :=
  if count = 0 then next
  else
    let size := min Pipe.chunkLimit count
    during 0 <| .modify (fun _ h =>
      tell (.read (bytesFrom h.read size)) { h with read := h.read + size })
      (writeAll t (haulBytes t next (count - size)) size)
termination_by count
decreasing_by
  have : 0 < Pipe.chunkLimit := by decide
  omega

/-- The pipe at work; zero bytes are the end of the source, and so is the end of its script. -/
def work (t : TargetScript) : List SourceStep → Process Haul
  | [] => during 0 (event (.read []) id (conclude t))
  | .wait ms :: rest => during ms (work t rest)
  | .fail m :: _ => during 0 (event (.readFailed m) id .stop)
  | .bytes 0 :: _ => during 0 (event (.read []) id (conclude t))
  | .bytes count :: rest => haulBytes t (work t rest) count

/-- Let the pipe work by itself, cancel it when it is time, and see it through. -/
def oversee (source : List SourceStep) (t : TargetScript) (cancelAt : Option Nat) : Process Haul :=
  let finish : Process Haul :=
    .await (·.pipe.result?.isSome) none (.modify (fun now h => { h with elapsed := now }) .stop)
  .spawn (work t source) <| match cancelAt with
    | none => finish
    | some time =>
      .wait time (.modify (fun _ h =>
        let (r, pipe) := h.pipe.cancel
        { h with pipe, cancel := some r }) finish)

/-- The haul when all is done. -/
def run (pipe : Pipe) (source : List SourceStep) (t : TargetScript) (cancelAt : Option Nat) :
    Haul :=
  ((Timeline.start { pipe } (oversee source t cancelAt)).run patience).state

end Haul
end Rehearsal
end PackageHandling
