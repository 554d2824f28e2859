import PackageHandling.Lookup

/-!
# The order of a lookup

Pairs are visited by priority; pairs of one priority keep container order and, in a container,
configured order.  Only one list of pairs is in that order, and it is the one a lookup visits.
-/

namespace PackageHandling
namespace Pair

def priority (p : Pair) : Int := p.accessor.effectivePriority

def ofPriority (k : Int) (pairs : List Pair) : List Pair := pairs.filter (·.priority = k)

theorem mem_ofPriority {k : Int} {p : Pair} {pairs : List Pair} :
    p ∈ ofPriority k pairs ↔ p ∈ pairs ∧ p.priority = k := by
  simp [ofPriority]

/-- Ascending priority, and nothing moved, lost or added within one priority. -/
structure InOrder (containers : List PackageContainer) (pairs : List Pair) : Prop where
  ascending : pairs.Pairwise fun a b => a.priority ≤ b.priority
  ties : ∀ k, ofPriority k pairs = ofPriority k (ofContainers containers)

def goesFirst (a b : Pair) : Bool := decide (a.priority ≤ b.priority)

theorem prioritized_eq (containers : List PackageContainer) :
    prioritized containers = (ofContainers containers).mergeSort goesFirst := rfl

theorem goesFirst_iff {a b : Pair} : goesFirst a b = true ↔ a.priority ≤ b.priority :=
  decide_eq_true_iff

theorem goesFirst_trans (a b c : Pair) (hab : goesFirst a b) (hbc : goesFirst b c) :
    goesFirst a c :=
  goesFirst_iff.2 (Int.le_trans (goesFirst_iff.1 hab) (goesFirst_iff.1 hbc))

theorem goesFirst_total (a b : Pair) : goesFirst a b || goesFirst b a := by
  rw [Bool.or_eq_true, goesFirst_iff, goesFirst_iff]
  exact Int.le_total ..

/-- The sort is stable: it keeps the pairs of one priority as they are. -/
theorem ofPriority_mergeSort (k : Int) (pairs : List Pair) :
    ofPriority k (pairs.mergeSort goesFirst) = ofPriority k pairs := by
  have hequal : (ofPriority k pairs).Pairwise fun a b => goesFirst a b := by
    refine List.Pairwise.imp_of_mem ?_ (List.pairwise_of_forall fun _ _ => trivial)
    intro a b ha hb _
    have hsame := (mem_ofPriority.1 ha).2.trans (mem_ofPriority.1 hb).2.symm
    exact goesFirst_iff.2 (Int.le_of_eq hsame)
  have hsub := (List.sublist_mergeSort goesFirst_trans goesFirst_total hequal
    List.filter_sublist).filter (·.priority = k)
  have hlength : (ofPriority k pairs).length = (ofPriority k (pairs.mergeSort goesFirst)).length :=
    ((List.mergeSort_perm pairs _).symm.filter _).length_eq
  refine (List.Sublist.eq_of_length ?_ hlength).symm
  simpa only [ofPriority, List.filter_filter, Bool.and_self] using hsub

theorem prioritized_inOrder (containers : List PackageContainer) :
    InOrder containers (prioritized containers) where
  ascending := by
    rw [prioritized_eq]
    exact (List.pairwise_mergeSort goesFirst_trans goesFirst_total _).imp goesFirst_iff.1
  ties k := by rw [prioritized_eq, ofPriority_mergeSort]

theorem priority_le_of_ofPriority_eq {x y : Pair} {xs ys : List Pair}
    (hx : ∀ z ∈ xs, x.priority ≤ z.priority)
    (h : ofPriority y.priority (x :: xs) = ofPriority y.priority (y :: ys)) :
    x.priority ≤ y.priority := by
  have hy : y ∈ ofPriority y.priority (x :: xs) := by
    rw [h]
    exact mem_ofPriority.2 ⟨List.mem_cons_self, rfl⟩
  rcases List.mem_cons.1 (mem_ofPriority.1 hy).1 with rfl | hmem
  · exact Int.le_refl _
  · exact hx y hmem

/-- Ascending lists with the same pairs of each priority are the same. -/
theorem eq_of_ofPriority_eq {ps qs : List Pair}
    (hp : ps.Pairwise fun a b => a.priority ≤ b.priority)
    (hq : qs.Pairwise fun a b => a.priority ≤ b.priority)
    (h : ∀ k, ofPriority k ps = ofPriority k qs) : ps = qs := by
  induction ps generalizing qs with
  | nil =>
    cases qs with
    | nil => rfl
    | cons b qs => exact absurd (h b.priority) (by simp [ofPriority])
  | cons a ps ih =>
    cases qs with
    | nil => exact absurd (h a.priority) (by simp [ofPriority])
    | cons b qs =>
      obtain ⟨ha, hps⟩ := List.pairwise_cons.1 hp
      obtain ⟨hb, hqs⟩ := List.pairwise_cons.1 hq
      have hab : a.priority = b.priority :=
        Int.le_antisymm (priority_le_of_ofPriority_eq ha (h b.priority))
          (priority_le_of_ofPriority_eq hb (h a.priority).symm)
      have hhead := h a.priority
      rw [ofPriority, ofPriority, List.filter_cons_of_pos (by simp),
        List.filter_cons_of_pos (by simp [hab])] at hhead
      obtain ⟨rfl, -⟩ := List.cons.inj hhead
      congr 1
      refine ih hps hqs fun k => ?_
      have hk := h k
      by_cases hak : a.priority = k <;> simpa [ofPriority, hak] using hk

theorem InOrder.unique {containers : List PackageContainer} {ps qs : List Pair}
    (hp : InOrder containers ps) (hq : InOrder containers qs) : ps = qs :=
  eq_of_ofPriority_eq hp.ascending hq.ascending fun k => (hp.ties k).trans (hq.ties k).symm

end Pair
end PackageHandling
