import PackageHandling.Failure

/-!
# Timed plans

A plan is a tree of atomic steps on a state, of notes for an observer and of waits.  `run`
gives its answer, the time it takes, the state it leaves and its notes.  `within` cuts a plan
off at a budget; what ends in the same millisecond as the budget is not cut off, and of two
budgets that end together the inner one reports.
-/

namespace PackageHandling

inductive Plan (σ ν α : Type) where
  | done (answer : α)
  | look (next : σ → Plan σ ν α)
  | set (state : σ) (next : Plan σ ν α)
  | note (n : ν) (next : Plan σ ν α)
  | wait (ms : Nat) (next : Plan σ ν α)

namespace Plan

variable {σ ν μ α β : Type}

def bind : Plan σ ν α → (α → Plan σ ν β) → Plan σ ν β
  | done a, f => f a
  | look k, f => look fun s => (k s).bind f
  | set s p, f => set s (p.bind f)
  | note n p, f => note n (p.bind f)
  | wait ms p, f => wait ms (p.bind f)

instance : Monad (Plan σ ν) where
  pure := done
  bind := bind

@[simp] theorem pure_eq (a : α) : (pure a : Plan σ ν α) = done a := rfl

@[simp] theorem bind_eq (p : Plan σ ν α) (f : α → Plan σ ν β) : p >>= f = p.bind f := rfl

theorem bind_done (p : Plan σ ν α) : p.bind done = p := by
  induction p <;> simp_all [bind]

theorem bind_assoc {γ : Type} (p : Plan σ ν α) (f : α → Plan σ ν β) (g : β → Plan σ ν γ) :
    (p.bind f).bind g = p.bind fun a => (f a).bind g := by
  induction p <;> simp_all [bind]

/-- A step that reads and changes the state at once. -/
def atomically (f : σ → α × σ) : Plan σ ν α := look fun s => set (f s).2 (done (f s).1)

def modify (f : σ → σ) : Plan σ ν Unit := look fun s => set (f s) (done ())

def say (n : ν) : Plan σ ν Unit := note n (done ())

/-- A delay of zero is no wait. -/
def delay (ms : Nat) : Plan σ ν Unit := wait ms (done ())

/-- What a plan comes to. -/
structure Course (σ ν α : Type) where
  answer : α
  elapsed : Nat
  state : σ
  notes : List ν

def run : Plan σ ν α → σ → Course σ ν α
  | done a, s => ⟨a, 0, s, []⟩
  | look k, s => (k s).run s
  | set s p, _ => p.run s
  | note n p, s => { p.run s with notes := n :: (p.run s).notes }
  | wait ms p, s => { p.run s with elapsed := ms + (p.run s).elapsed }

/-- One plan after another: the times add up and the notes follow each other. -/
theorem run_bind (p : Plan σ ν α) (f : α → Plan σ ν β) (s : σ) :
    (p.bind f).run s =
      let first := p.run s
      let second := (f first.answer).run first.state
      ⟨second.answer, first.elapsed + second.elapsed, second.state,
        first.notes ++ second.notes⟩ := by
  induction p generalizing s <;> simp_all [bind, run, Nat.add_assoc]

/-- A plan cut off at a budget: no answer if it would still have to wait. -/
def within (budget : Nat) : Plan σ ν α → Plan σ ν (Option α)
  | done a => done (some a)
  | look k => look fun s => (k s).within budget
  | set s p => set s (p.within budget)
  | note n p => note n (p.within budget)
  | wait ms p => if ms ≤ budget then wait ms (p.within (budget - ms)) else wait budget (done none)

/-- A budget that suffices changes nothing; one that does not is used up. -/
theorem run_within (p : Plan σ ν α) (budget : Nat) (s : σ) :
    if (p.run s).elapsed ≤ budget then
      (p.within budget).run s = { p.run s with answer := some (p.run s).answer }
    else ((p.within budget).run s).answer = none ∧ ((p.within budget).run s).elapsed = budget := by
  induction p generalizing budget s with
  | done a => simp [within, run]
  | look k ih => exact ih s budget s
  | set t p ih => exact ih budget t
  | note n p ih =>
    have h := ih budget s
    by_cases hle : (p.run s).elapsed ≤ budget <;> simp_all [within, run]
  | wait ms p ih =>
    by_cases hms : ms ≤ budget
    · have h := ih (budget - ms) s
      by_cases hle : (p.run s).elapsed ≤ budget - ms
      · have : ms + (p.run s).elapsed ≤ budget := by omega
        simp_all [within, run]
      · have hn : ¬ ms + (p.run s).elapsed ≤ budget := by omega
        rw [if_neg hle] at h
        simp only [within, run, if_pos hms, if_neg hn]
        exact ⟨h.1, by omega⟩
    · have hn : ¬ ms + (p.run s).elapsed ≤ budget := by omega
      simp [within, run, if_neg hms, hn]

def mapNotes (f : ν → μ) : Plan σ ν α → Plan σ μ α
  | done a => done a
  | look k => look fun s => (k s).mapNotes f
  | set s p => set s (p.mapNotes f)
  | note n p => note (f n) (p.mapNotes f)
  | wait ms p => wait ms (p.mapNotes f)

/-- A plan with a budget; running out of it is a failure. -/
def limited (budget : Nat) (label : String) (p : Plan σ ν α) : Plan σ ν (Except Failure α) := do
  match ← p.within budget with
  | some a => return .ok a
  | none => return .error (.elapsed label budget)

/-- An attempt with a budget. -/
def attempt (budget : Nat) (label : String) (p : Plan σ ν (Except Failure α)) :
    Plan σ ν (Except Failure α) := do
  match ← p.within budget with
  | some a => return a
  | none => return .error (.elapsed label budget)

/-- A check with a budget; running out of it is an unknown rejection. -/
def check (budget : Nat) (label : String) (p : Plan σ ν Check) : Plan σ ν Check := do
  match ← p.within budget with
  | some a => return a
  | none =>
    return .error (.ofUnknown ("Timeout when running " ++ label)
      (Failure.elapsed label budget).message)

end Plan
end PackageHandling
