import PackageHandling.Process

/-!
# Timelines

A timeline runs processes one at a time on a virtual clock.  The main process goes before the
others when the clock moves; the others go in the order in which they became ready.  When none
can go, the clock jumps to the next deadline.
-/

namespace PackageHandling

/-- A process that waits for a condition, a deadline or both. -/
structure Paused (σ : Type) where
  isMain : Bool
  condition : σ → Bool
  deadline : Option Nat
  next : Process σ

structure Timeline (σ : Type) where
  now : Nat := 0
  state : σ
  main : Option (Process σ) := none
  ready : List (Process σ) := []
  /-- Those that let the ready ones go first. -/
  yielded : List (Process σ) := []
  /-- In the order in which they paused. -/
  paused : List (Paused σ) := []
  /-- Whether the main process has had its turn and the ready ones have theirs. -/
  mainHadTurn : Bool := false
  finished : Bool := false

namespace Timeline

variable {σ : Type}

/-- Make paused processes ready, in their order. -/
def wake (woken : List (Paused σ)) (t : Timeline σ) : Timeline σ :=
  { t with
    main := ((woken.find? (·.isMain)).map (·.next)).or t.main
    ready := t.ready ++ (woken.filter (!·.isMain)).map (·.next) }

/-- Change the state; those that wait for what now holds become ready. -/
def put (s : σ) (t : Timeline σ) : Timeline σ :=
  let (woken, paused) := t.paused.partition (·.condition s)
  { t with state := s, paused }.wake woken

def pause (isMain : Bool) (condition : σ → Bool) (limit : Option Nat) (next : Process σ)
    (t : Timeline σ) : Timeline σ :=
  { t with paused := t.paused ++ [⟨isMain, condition, limit.map (t.now + ·), next⟩] }

/-- Run a process up to its next pause. -/
def advance (isMain : Bool) : Process σ → Timeline σ → Timeline σ
  | .stop, t => { t with finished := t.finished || isMain }
  | .look k, t => advance isMain (k t.now t.state) t
  | .set s p, t => advance isMain p (t.put s)
  | .wait ms p, t =>
    if ms = 0 then advance isMain p t else t.pause isMain (fun _ => false) (some ms) p
  | .await condition limit p, t =>
    if condition t.state || limit = some 0 then advance isMain p t
    else t.pause isMain condition limit p
  | .spawn child p, t => advance isMain p { t with ready := t.ready ++ [child] }
  | .giveWay p, t =>
    if isMain then { t with main := some p } else { t with yielded := t.yielded ++ [p] }

/-- The earliest deadline. -/
def nextDeadline? (t : Timeline σ) : Option Nat := (t.paused.filterMap (·.deadline)).min?

/-- Move the clock, and wake those whose deadline has come. -/
def jump (time : Nat) (t : Timeline σ) : Timeline σ :=
  let (woken, paused) := t.paused.partition fun p => p.deadline.any (· ≤ time)
  { t with now := max t.now time, paused }.wake woken

/-- One turn of one process, or one move of the clock; none when the main process has come to
its end, or nothing can ever go on. -/
def turn (t : Timeline σ) : Option (Timeline σ) :=
  if t.finished then none
  else if !t.mainHadTurn then
    match t.main with
    | some p => some (advance true p { t with main := none, mainHadTurn := true })
    | none => some { t with mainHadTurn := true }
  else
    match t.ready with
    | p :: rest => some (advance false p { t with ready := rest })
    | [] =>
      if t.yielded.isEmpty && t.main.isNone then
        (t.nextDeadline?).map fun time => { t.jump time with mainHadTurn := false }
      else some { t with ready := t.yielded, yielded := [], mainHadTurn := false }

/-- At most so many turns. -/
def run : Nat → Timeline σ → Timeline σ
  | 0, t => t
  | fuel + 1, t =>
    match t.turn with
    | some t' => run fuel t'
    | none => t

/-- A main process at the start of time. -/
def start (state : σ) (main : Process σ) : Timeline σ := { state, main := some main }

@[simp] theorem state_put (s : σ) (t : Timeline σ) : (t.put s).state = s := rfl

end Timeline
end PackageHandling
