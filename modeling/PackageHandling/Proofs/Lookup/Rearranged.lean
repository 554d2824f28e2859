import Mathlib.Data.List.Forall2
import Mathlib.Data.List.Nodup
import Mathlib.Data.List.Permutation
import PackageHandling.Proofs.Handle.Calls
import PackageHandling.Proofs.Lookup.Order
import PackageHandling.Proofs.Plan.Alike
import PackageHandling.Proofs.Readiness.Versions

/-!
# Rearranged containers

Where all priorities differ, there is one order to visit the pairs in, however the containers and
the accessors in them are arranged.  So a lookup does the same in every arrangement, operation by
operation, and comes to the same answer: the main statement is `lookup_rearranged`.
-/

namespace PackageHandling

structure PackageContainer.Rearranged (c d : PackageContainer) : Prop where
  id : c.id = d.id
  label : c.label = d.label
  accessors : c.accessors.entries.Perm d.accessors.entries

/-- The same containers in any order, each of them with its accessors in any order. -/
def PackageContainer.AllRearranged (cs ds : List PackageContainer) : Prop :=
  ∃ es, cs.Perm es ∧ es.Forall₂ Rearranged ds

namespace Pair

structure Rearranged (p q : Pair) : Prop where
  container : p.container.Rearranged q.container
  accessorId : p.accessorId = q.accessorId
  accessor : p.accessor = q.accessor

theorem Rearranged.priority_eq {p q : Pair} (h : p.Rearranged q) : p.priority = q.priority := by
  rw [priority, priority, h.accessor]

def ofContainer (c : PackageContainer) : List Pair :=
  c.accessors.entries.map fun e => ⟨c, e.1, e.2⟩

theorem ofContainers_cons (c : PackageContainer) (cs : List PackageContainer) :
    ofContainers (c :: cs) = ofContainer c ++ ofContainers cs := rfl

theorem ofContainer_rearranged {c d : PackageContainer} (h : c.Rearranged d) :
    ∃ ps, (ofContainer c).Perm ps ∧ ps.Forall₂ Rearranged (ofContainer d) := by
  let pair (e : String × Accessor) : Pair := ⟨c, e.1, e.2⟩
  refine ⟨d.accessors.entries.map pair, h.accessors.map pair, ?_⟩
  rw [ofContainer, List.forall₂_map_left_iff, List.forall₂_map_right_iff, List.forall₂_same]
  exact fun e _ => ⟨h, rfl, rfl⟩

theorem ofContainers_forall₂ {cs ds : List PackageContainer}
    (h : cs.Forall₂ PackageContainer.Rearranged ds) :
    ∃ ps, (ofContainers cs).Perm ps ∧ ps.Forall₂ Rearranged (ofContainers ds) := by
  induction h with
  | nil => exact ⟨[], .refl _, .nil⟩
  | cons hcd _ ih =>
    obtain ⟨ps, hps, hrearranged⟩ := ofContainer_rearranged hcd
    obtain ⟨qs, hqs, hrest⟩ := ih
    exact ⟨ps ++ qs, hps.append hqs, List.rel_append hrearranged hrest⟩

theorem ofContainers_rearranged {cs ds : List PackageContainer}
    (h : PackageContainer.AllRearranged cs ds) :
    ∃ ps, (ofContainers cs).Perm ps ∧ ps.Forall₂ Rearranged (ofContainers ds) := by
  obtain ⟨es, hperm, hforall⟩ := h
  obtain ⟨ps, hps, hrearranged⟩ := ofContainers_forall₂ hforall
  exact ⟨ps, (hperm.flatMap_right _).trans hps, hrearranged⟩

theorem map_priority_eq {ps qs : List Pair} (h : ps.Forall₂ Rearranged qs) :
    ps.map priority = qs.map priority := by
  induction h with
  | nil => rfl
  | cons hpq _ ih => rw [List.map_cons, List.map_cons, hpq.priority_eq, ih]

theorem pairwise_priority_iff {ps : List Pair} :
    (ps.Pairwise fun a b => a.priority ≤ b.priority) ↔ (ps.map priority).Pairwise (· ≤ ·) :=
  List.pairwise_map.symm

theorem eq_of_perm {ps qs : List Pair} (hperm : ps.Perm qs) (distinct : (ps.map priority).Nodup)
    (hp : ps.Pairwise fun a b => a.priority ≤ b.priority)
    (hq : qs.Pairwise fun a b => a.priority ≤ b.priority) : ps = qs := by
  refine List.Perm.eq_of_pairwise ?_ hp hq hperm
  intro a b ha hb hab hba
  exact List.inj_on_of_nodup_map distinct ha (hperm.mem_iff.2 hb) (Int.le_antisymm hab hba)

/-- In all arrangements the pairs are visited in the same order. -/
theorem prioritized_rearranged {cs ds : List PackageContainer}
    (h : PackageContainer.AllRearranged cs ds)
    (distinct : ((ofContainers cs).map priority).Nodup) :
    (prioritized cs).Forall₂ Rearranged (prioritized ds) := by
  obtain ⟨ps, hps, hrearranged⟩ := ofContainers_rearranged h
  have hsorted : (prioritized cs).Perm (ofContainers cs) := List.mergeSort_perm _ _
  obtain ⟨qs, hpairs, hqs⟩ := List.perm_comp_forall₂ (hsorted.trans hps) hrearranged
  have hsame : (prioritized cs).map priority = qs.map priority := map_priority_eq hpairs
  have hascending : qs.Pairwise fun a b => a.priority ≤ b.priority := by
    rw [pairwise_priority_iff, ← hsame, ← pairwise_priority_iff]
    exact (prioritized_inOrder cs).ascending
  have hdistinct : (qs.map priority).Nodup := by
    rw [← hsame]
    exact (hsorted.map priority).nodup_iff.2 distinct
  have hqs : qs = prioritized ds :=
    eq_of_perm (hqs.trans (List.mergeSort_perm _ _).symm) hdistinct hascending
      (prioritized_inOrder ds).ascending
  exact hqs ▸ hpairs

end Pair

/-- The custom check has the same answer for a pair in every order of its container's accessors. -/
def LookupChecks.IgnoresOrder (c : LookupChecks) : Prop :=
  ∀ check, c.custom = some check → ∀ p q : Pair, p.Rearranged q → check p = check q

def LookupResult.Same {β : Type} : LookupResult β → LookupResult β → Prop
  | .ok a, .ok b => a.pair.Rearranged b.pair ∧ a.handle = b.handle
  | .error r, .error r' => r = r'
  | _, _ => False

namespace Worker

variable {β : Type} {checks : LookupChecks} {p q : Pair}

/-- Only the custom check looks at the pair, all other steps look at its handle. -/
theorem runStep_congr (w : Worker β) (handle : Handle β) {step : LookupStep}
    (hcustom : ∀ check, step = .custom check → check p = check q) :
    w.runStep p handle step = w.runStep q handle step := by
  cases step with
  | custom check => rw [runStep, runStep, hcustom check rfl]
  | basic | read | packageRead | version expected | write | containerWrite => rfl

theorem runSteps_congr (w : Worker β) (handle : Handle β) {steps : List LookupStep}
    (hcustom : ∀ check, .custom check ∈ steps → check p = check q) :
    w.runSteps p handle steps = w.runSteps q handle steps := by
  induction steps with
  | nil => rfl
  | cons step rest ih =>
    have hhead : w.runStep p handle step = w.runStep q handle step :=
      w.runStep_congr handle fun check hstep => hcustom check (hstep ▸ List.mem_cons_self)
    rw [runSteps, runSteps, hhead, ih fun check hmem => hcustom check (List.mem_cons_of_mem _ hmem)]

theorem custom_mem_steps {check : Pair → Check} (h : .custom check ∈ checks.steps) :
    checks.custom = some check := by
  simpa [LookupChecks.steps] using h

theorem reject_rearranged (h : p.Rearranged q) (r : Rejection) : p.reject r = q.reject r := by
  rw [Pair.reject, Pair.reject, Pair.mark, Pair.mark, h.container.label, h.accessorId, h.accessor]

theorem tryPair_rearranged (w : Worker β) (hchecks : checks.IgnoresOrder) (purpose : Purpose)
    (h : p.Rearranged q) : w.tryPair checks purpose p = w.tryPair checks purpose q := by
  have hsteps (handle : Handle β) :=
    w.runSteps_congr handle fun check hmem => hchecks check (custom_mem_steps hmem) p q h
  have hreject : p.reject = q.reject := funext (reject_rearranged h)
  have hbinding : w.bindingOf purpose p = w.bindingOf purpose q := by
    rw [bindingOf, bindingOf, h.accessorId, h.accessor]
  simp only [tryPair, hsteps, hreject, hbinding]

open Plan (Alike)

theorem visit_rearranged (w : Worker β) (hchecks : checks.IgnoresOrder) (purpose : Purpose)
    (last : Rejection) {ps qs : List Pair} (h : ps.Forall₂ Pair.Rearranged qs) :
    Alike LookupResult.Same (w.visit checks purpose last ps) (w.visit checks purpose last qs) := by
  induction h generalizing last with
  | nil => exact .done rfl
  | cons hpq _ ih =>
    rw [visit, visit, w.tryPair_rearranged hchecks purpose hpq, hpq.accessorId,
      hpq.container.label]
    refine (Alike.refl _).bind fun result result' hresult => ?_
    subst hresult
    cases result with
    | ok handle => exact .note _ (.done ⟨hpq, rfl⟩)
    | error r => exact .note _ (ih r)

theorem visit_of_ne_nil (w : Worker β) (purpose : Purpose) (last last' : Rejection)
    {ps : List Pair} (h : ps ≠ []) :
    w.visit checks purpose last ps = w.visit checks purpose last' ps := by
  cases ps with
  | nil => exact absurd rfl h
  | cons p ps => rfl

/-- With different priorities a lookup goes the same way however the containers are arranged and the
accessors in them. -/
theorem lookup_rearranged (w : Worker β) {cs ds : List PackageContainer}
    (h : PackageContainer.AllRearranged cs ds) (nonempty : Pair.ofContainers cs ≠ [])
    (distinct : ((Pair.ofContainers cs).map Pair.priority).Nodup)
    (hchecks : checks.IgnoresOrder) (purpose : Purpose) (s : β) :
    let c := (w.lookup cs checks purpose).run s
    let d := (w.lookup ds checks purpose).run s
    c.calls = d.calls ∧ c.answer.Same d.answer ∧ c.elapsed = d.elapsed ∧ c.state = d.state ∧
      c.notes = d.notes := by
  intro c d
  have hpairs := Pair.prioritized_rearranged h distinct
  have hsome : Pair.prioritized cs ≠ [] := by
    intro hnil
    have hperm : (Pair.prioritized cs).Perm (Pair.ofContainers cs) := List.mergeSort_perm _ _
    exact nonempty (List.nil_perm.1 (hnil ▸ hperm))
  have hvisit : Alike LookupResult.Same (w.visitAll cs checks purpose)
      (w.visitAll ds checks purpose) := by
    rw [visitAll, visitAll, w.visit_of_ne_nil purpose (noAccessors cs) (noAccessors ds) hsome]
    exact w.visit_rearranged hchecks purpose _ hpairs
  have hlookup : Alike LookupResult.Same (w.lookup cs checks purpose)
      (w.lookup ds checks purpose) := by
    refine (hvisit.within _).bind fun result result' hresult => ?_
    cases hresult with
    | none => exact .done rfl
    | some hsame => exact .done hsame
  obtain ⟨hanswer, helapsed, hstate, hnotes⟩ := hlookup.run s
  exact ⟨congrArg (List.filterMap Note.operation?) hnotes, hanswer, helapsed, hstate, hnotes⟩

end Worker

def Accessor.folder (place : Int) : Accessor :=
  { priority := some place, connection := .localFolder none none none }

namespace PackageContainer

def inbox : PackageContainer := ⟨"inbox", "Inbox", .ofList [("only", .folder 0)]⟩

def store (accessors : List (String × Accessor)) : PackageContainer :=
  ⟨"store", "Store", .ofList accessors⟩

def listed : List PackageContainer := [inbox, store [("slow", .folder 2), ("fast", .folder 1)]]

def relisted : List PackageContainer := [store [("fast", .folder 1), ("slow", .folder 2)], inbox]

end PackageContainer

def LookupChecks.twofold : LookupChecks where
  read := true
  custom := some fun p =>
    if p.container.accessors.entries.length = 2 then .ok ()
    else .error (.ofKnown "No alternative" "There is one accessor only")

namespace Worker

open PackageContainer (AllRearranged listed relisted)

/-- The inbox goes first and is rejected, in whatever order the store has its two folders. -/
theorem lookup_rearranged_listed :
    let w := reporting fun _ => .json 0
    let c := (w.lookup listed .twofold default).run 0
    let d := (w.lookup relisted .twofold default).run 0
    AllRearranged listed relisted ∧ Pair.ofContainers listed ≠ [] ∧
      ((Pair.ofContainers listed).map Pair.priority).Nodup ∧ LookupChecks.twofold.IgnoresOrder ∧
      c.answer.toOption.map (·.pair.accessorId) = some "fast" ∧
      c.calls = d.calls ∧ c.answer.Same d.answer := by
  intro w c d
  have h : AllRearranged listed relisted :=
    ⟨listed.reverse, .swap ..,
      .cons ⟨rfl, rfl, .swap ..⟩ (.cons ⟨rfl, rfl, .refl _⟩ .nil)⟩
  have hnonempty : Pair.ofContainers listed ≠ [] := by decide
  have hdistinct : ((Pair.ofContainers listed).map Pair.priority).Nodup := by decide
  have hchecks : LookupChecks.twofold.IgnoresOrder := by
    intro check hcheck p q hpq
    obtain rfl := Option.some.inj hcheck
    simp only [hpq.container.accessors.length_eq]
  have hfast : c.answer.toOption.map (·.pair.accessorId) = some "fast" := by
    unfold c w
    cbv
  obtain ⟨hcalls, hanswer, -⟩ := w.lookup_rearranged h hnonempty hdistinct hchecks default 0
  exact ⟨h, hnonempty, hdistinct, hchecks, hfast, hcalls, hanswer⟩

end Worker
end PackageHandling
