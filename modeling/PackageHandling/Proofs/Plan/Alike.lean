import PackageHandling.Plan

/-!
# Plans that do the same

Two plans do the same if they take the same steps, whatever these find, and come to answers that
are related.  From one state they then take the same time, note the same and leave the same state
behind; and a budget cuts both of them off at the same point.
-/

namespace PackageHandling
namespace Plan

variable {σ ν α α' γ γ' : Type}

inductive Alike (R : α → α' → Prop) : Plan σ ν α → Plan σ ν α' → Prop
  | done {a : α} {a' : α'} (same : R a a') : Alike R (.done a) (.done a')
  | look {k : σ → Plan σ ν α} {k' : σ → Plan σ ν α'} (next : ∀ s, Alike R (k s) (k' s)) :
    Alike R (.look k) (.look k')
  | set {p : Plan σ ν α} {p' : Plan σ ν α'} (s : σ) (next : Alike R p p') :
    Alike R (.set s p) (.set s p')
  | note {p : Plan σ ν α} {p' : Plan σ ν α'} (n : ν) (next : Alike R p p') :
    Alike R (.note n p) (.note n p')
  | wait {p : Plan σ ν α} {p' : Plan σ ν α'} (ms : Nat) (next : Alike R p p') :
    Alike R (.wait ms p) (.wait ms p')

namespace Alike

variable {R : α → α' → Prop} {S : γ → γ' → Prop} {p : Plan σ ν α} {p' : Plan σ ν α'}

theorem refl (p : Plan σ ν α) : Alike Eq p p := by
  induction p with
  | done a => exact .done rfl
  | look k ih => exact .look ih
  | set s p ih => exact .set s ih
  | note n p ih => exact .note n ih
  | wait ms p ih => exact .wait ms ih

theorem bind {f : α → Plan σ ν γ} {f' : α' → Plan σ ν γ'} (h : Alike R p p')
    (hf : ∀ a a', R a a' → Alike S (f a) (f' a')) : Alike S (p.bind f) (p'.bind f') := by
  induction h with
  | done same => exact hf _ _ same
  | look _ ih => exact .look ih
  | set s _ ih => exact .set s ih
  | note n _ ih => exact .note n ih
  | wait ms _ ih => exact .wait ms ih

theorem within (h : Alike R p p') (budget : Nat) :
    Alike (Option.Rel R) (p.within budget) (p'.within budget) := by
  induction h generalizing budget with
  | done same => exact .done (.some same)
  | look _ ih => exact .look fun s => ih s budget
  | set s _ ih => exact .set s (ih budget)
  | note n _ ih => exact .note n (ih budget)
  | wait ms _ ih =>
    rw [Plan.within, Plan.within]
    split
    · exact .wait ms (ih _)
    · exact .wait budget (.done .none)

theorem run (h : Alike R p p') (s : σ) :
    R (p.run s).answer (p'.run s).answer ∧ (p.run s).elapsed = (p'.run s).elapsed ∧
      (p.run s).state = (p'.run s).state ∧ (p.run s).notes = (p'.run s).notes := by
  induction h generalizing s with
  | done same => exact ⟨same, rfl, rfl, rfl⟩
  | look _ ih => exact ih s s
  | set t _ ih => exact ih t
  | note n _ ih =>
    obtain ⟨hanswer, helapsed, hstate, hnotes⟩ := ih s
    exact ⟨hanswer, helapsed, hstate, congrArg (n :: ·) hnotes⟩
  | wait ms _ ih =>
    obtain ⟨hanswer, helapsed, hstate, hnotes⟩ := ih s
    exact ⟨hanswer, congrArg (ms + ·) helapsed, hstate, hnotes⟩

end Alike
end Plan
end PackageHandling
