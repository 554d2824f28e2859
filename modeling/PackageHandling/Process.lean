import PackageHandling.Plan

/-!
# Processes

A process takes atomic steps on a state that it shares with other processes, and pauses for the
clock, for a condition on the state, or for the others to go first.
-/

namespace PackageHandling

inductive Process (σ : Type) where
  | stop
  | look (next : Nat → σ → Process σ)
  | set (state : σ) (next : Process σ)
  | wait (ms : Nat) (next : Process σ)
  | await (condition : σ → Bool) (limit : Option Nat) (next : Process σ)
  | spawn (child next : Process σ)
  | giveWay (next : Process σ)

/-- A process that comes to an answer and goes on from there. -/
abbrev Activity (σ α : Type) := (α → Process σ) → Process σ

namespace Process

variable {σ τ ν α β : Type}

/-- A step that reads and changes the state at once. -/
def step (f : Nat → σ → α × σ) : Activity σ α := fun next =>
  look fun now s => set (f now s).2 (next (f now s).1)

/-- A step without an answer. -/
def modify (f : Nat → σ → σ) (next : Process σ) : Process σ :=
  look fun now s => set (f now s) next

/-- Wait for a condition; the answer is whether it holds, or the limit came first. -/
def awaiting (condition : σ → Bool) (limit : Option Nat) : Activity σ Bool := fun next =>
  await condition limit (look fun _ s => next (condition s))

/-- Where a plan finds its state in a larger one, and what its notes lead to. -/
structure Setting (σ τ ν : Type) where
  get : τ → σ
  put : σ → τ → τ
  hear : ν → Process τ → Process τ

/-- A plan as a process. -/
def perform (place : Setting σ τ ν) : Plan σ ν α → Activity τ α
  | .done a, next => next a
  | .look k, next => look fun _ t => perform place (k (place.get t)) next
  | .set s p, next => modify (fun _ t => place.put s t) (perform place p next)
  | .note n p, next => place.hear n (perform place p next)
  | .wait ms p, next => wait ms (perform place p next)

end Process
end PackageHandling
