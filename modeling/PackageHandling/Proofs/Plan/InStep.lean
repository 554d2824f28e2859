import PackageHandling.Proofs.Plan.Recording

/-!
# Plans that keep in step

A plan on a larger state keeps in step with another plan if both note the same and wait for the same
times, whatever they do to their states in between.  A condition on the two states, and on the
notes so far, is kept at every moment at which one of them can be cut off; another one is met by
their answers at the end.
-/

namespace PackageHandling
namespace Plan

variable {σ σ' ν μ τ α α' γ γ' : Type}

inductive InStep (held : σ' → σ → List ν → Prop)
    (reached : α' → α → σ' → σ → List ν → Prop) :
    Plan σ' ν α' → Plan σ ν α → σ' → σ → List ν → Prop
  | done {a' a t s l} (meets : reached a' a t s l) :
    InStep held reached (.done a') (.done a) t s l
  | look {k' p t s l} (next : InStep held reached (k' t) p t s l) :
    InStep held reached (.look k') p t s l
  | lookToo {p' k t s l} (next : InStep held reached p' (k s) t s l) :
    InStep held reached p' (.look k) t s l
  | set {t' p' p t s l} (next : InStep held reached p' p t' s l) :
    InStep held reached (.set t' p') p t s l
  | setToo {s' p' p t s l} (next : InStep held reached p' p t s' l) :
    InStep held reached p' (.set s' p) t s l
  | note {p' p t s l} (n : ν) (next : InStep held reached p' p t s (l ++ [n])) :
    InStep held reached (.note n p') (.note n p) t s l
  | wait {p' p t s l} (ms : Nat) (now : held t s l) (next : InStep held reached p' p t s l) :
    InStep held reached (.wait ms p') (.wait ms p) t s l

namespace InStep

/-- What is reached under a budget: the answers of both plans, or the moment at which both are cut
off. -/
inductive Within (held : σ' → σ → List ν → Prop) (reached : α' → α → σ' → σ → List ν → Prop) :
    Option α' → Option α → σ' → σ → List ν → Prop
  | answered {a' a t s l} (meets : reached a' a t s l) :
    Within held reached (some a') (some a) t s l
  | cutOff {t s l} (now : held t s l) : Within held reached none none t s l

variable {held held' : σ' → σ → List ν → Prop}
variable {reached reached' : α' → α → σ' → σ → List ν → Prop}
variable {p' : Plan σ' ν α'} {p : Plan σ ν α} {t : σ'} {s : σ} {l : List ν}

theorem mono (h : InStep held reached p' p t s l) (hheld : ∀ t s l, held t s l → held' t s l)
    (hreached : ∀ a' a t s l, reached a' a t s l → reached' a' a t s l) :
    InStep held' reached' p' p t s l := by
  induction h with
  | done meets => exact .done (hreached _ _ _ _ _ meets)
  | look _ ih => exact .look ih
  | lookToo _ ih => exact .lookToo ih
  | set _ ih => exact .set ih
  | setToo _ ih => exact .setToo ih
  | note n _ ih => exact .note n ih
  | wait ms now _ ih => exact .wait ms (hheld _ _ _ now) ih

theorem bind {after : γ' → γ → σ' → σ → List ν → Prop} {k' : α' → Plan σ' ν γ'}
    {k : α → Plan σ ν γ} (h : InStep held reached p' p t s l)
    (hk : ∀ a' a t s l, reached a' a t s l → InStep held after (k' a') (k a) t s l) :
    InStep held after (p'.bind k') (p.bind k) t s l := by
  induction h with
  | done meets => exact hk _ _ _ _ _ meets
  | look _ ih => exact .look ih
  | lookToo _ ih => exact .lookToo ih
  | set _ ih => exact .set ih
  | setToo _ ih => exact .setToo ih
  | note n _ ih => exact .note n ih
  | wait ms now _ ih => exact .wait ms now ih

theorem within (h : InStep held reached p' p t s l) (budget : Nat) :
    InStep held (Within held reached) (p'.within budget) (p.within budget) t s l := by
  induction h generalizing budget with
  | done meets => exact .done (.answered meets)
  | look _ ih => exact .look (ih budget)
  | lookToo _ ih => exact .lookToo (ih budget)
  | set _ ih => exact .set (ih budget)
  | setToo _ ih => exact .setToo (ih budget)
  | note n _ ih => exact .note n (ih budget)
  | wait ms now _ ih =>
    rw [Plan.within, Plan.within]
    by_cases hms : ms ≤ budget
    · rw [if_pos hms, if_pos hms]
      exact .wait ms now (ih (budget - ms))
    · rw [if_neg hms, if_neg hms]
      exact .wait budget now (.done (.cutOff now))

/-- The courses of both plans take the same time and note the same. -/
theorem run (h : InStep held reached p' p t s l) :
    (p'.run t).elapsed = (p.run s).elapsed ∧ (p'.run t).notes = (p.run s).notes ∧
      reached (p'.run t).answer (p.run s).answer (p'.run t).state (p.run s).state
        (l ++ (p.run s).notes) := by
  induction h with
  | done meets =>
    refine ⟨rfl, rfl, ?_⟩
    simp only [Plan.run, List.append_nil]
    exact meets
  | look _ ih => exact ih
  | lookToo _ ih => exact ih
  | set _ ih => exact ih
  | setToo _ ih => exact ih
  | note n _ ih =>
    obtain ⟨helapsed, hnotes, hreached⟩ := ih
    rw [List.append_assoc] at hreached
    exact ⟨helapsed, congrArg (n :: ·) hnotes, hreached⟩
  | wait ms _ _ ih =>
    obtain ⟨helapsed, hnotes, hreached⟩ := ih
    exact ⟨congrArg (ms + ·) helapsed, hnotes, hreached⟩

/-- Beside a record that it leaves alone, a plan keeps in step with itself.  Its notes are of a form
that a condition on the notes so far allows. -/
theorem beside {held : σ × List τ → σ → List ν → Prop} {allowed : List ν → Prop} {j : List τ}
    (form : μ → ν) (hallowed : ∀ l n, allowed l → allowed (l ++ [form n]))
    (hheld : ∀ s l, allowed l → held (s, j) s l) (p : Plan σ μ α) {s : σ} {l : List ν}
    (hl : allowed l) :
    InStep held (fun a' a t s l => a' = a ∧ t = (s, j) ∧ allowed l)
      (p.mapNotes form).beside (p.mapNotes form) (s, j) s l := by
  induction p generalizing s l with
  | done a => exact .done ⟨rfl, rfl, hl⟩
  | look k ih => exact .look (.lookToo (ih s hl))
  | set s' p ih => exact .look (.set (.setToo (ih hl)))
  | note n p ih => exact .note _ (ih (hallowed l n hl))
  | wait ms p ih => exact .wait ms (hheld s l hl) (ih hl)

end InStep
end Plan
end PackageHandling
