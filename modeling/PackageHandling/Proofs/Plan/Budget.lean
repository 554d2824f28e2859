import PackageHandling.Plan

/-!
# Plans under a budget

A plan whose budget suffices runs as it would without it; any other is over when the budget is.
-/

namespace PackageHandling
namespace Plan

variable {σ ν α : Type} {budget : Nat} {s : σ}

theorem within_of_le {p : Plan σ ν α} (h : (p.run s).elapsed ≤ budget) :
    (p.within budget).run s = { p.run s with answer := some (p.run s).answer } := by
  have hw := p.run_within budget s
  rwa [if_pos h] at hw

theorem late_of_gt {p : Plan σ ν α} (h : budget < (p.run s).elapsed) :
    ((p.within budget).run s).answer = none ∧ ((p.within budget).run s).elapsed = budget := by
  have hw := p.run_within budget s
  rwa [if_neg (Nat.not_le.2 h)] at hw

theorem attempt_of_le {p : Plan σ ν (Except Failure α)} (label : String)
    (h : (p.run s).elapsed ≤ budget) : (p.attempt budget label).run s = p.run s := by
  simp only [attempt, bind_eq, run_bind, within_of_le h, pure_eq, run, Nat.add_zero,
    List.append_nil]

theorem attempt_of_gt {p : Plan σ ν (Except Failure α)} (label : String)
    (h : budget < (p.run s).elapsed) :
    ((p.attempt budget label).run s).answer = .error (.elapsed label budget) ∧
      ((p.attempt budget label).run s).elapsed = budget := by
  obtain ⟨hanswer, helapsed⟩ := late_of_gt h
  simp only [attempt, bind_eq, run_bind, hanswer, helapsed, pure_eq, run, Nat.add_zero, and_self]

end Plan
end PackageHandling
