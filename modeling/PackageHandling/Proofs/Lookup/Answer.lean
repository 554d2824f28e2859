import PackageHandling.Proofs.Handle.Calls
import PackageHandling.Proofs.Lookup.Order
import PackageHandling.Proofs.Lookup.Reference
import PackageHandling.Proofs.Plan.Budget

/-!
# The answer of a lookup

A lookup answers what its reference gives, after the time that the reference gives, for every
backend: the main statement is `lookup_answers`.
-/

namespace PackageHandling
namespace Plan

variable {σ ν μ α : Type}

theorem abandonedAt_mapNotes (f : ν → μ) (p : Plan σ ν α) (ms : Nat) (s : σ) :
    (p.mapNotes f).abandonedAt ms s = p.abandonedAt ms s := by
  induction p generalizing ms s <;> simp_all [mapNotes, abandonedAt]

/-- What a plan leaves behind when its budget runs out. -/
theorem state_within (p : Plan σ ν α) (budget : Nat) (s : σ) :
    ((p.within budget).run s).state =
      if (p.run s).elapsed ≤ budget then (p.run s).state else p.abandonedAt budget s := by
  induction p generalizing budget s with
  | done a => simp [within, run]
  | look k ih => exact ih s budget s
  | set t p ih => exact ih budget t
  | note n p ih => exact ih budget s
  | wait ms p ih =>
    by_cases hms : ms ≤ budget
    · have hiff : ms + (p.run s).elapsed ≤ budget ↔ (p.run s).elapsed ≤ budget - ms := by omega
      simp only [within, if_pos hms, run, abandonedAt, ih, hiff]
    · have hn : ¬ ms + (p.run s).elapsed ≤ budget := by omega
      simp only [within, if_neg hms, run, abandonedAt, if_neg hn]

theorem within_of_gt {p : Plan σ ν α} {budget : Nat} {s : σ} (h : ¬ (p.run s).elapsed ≤ budget) :
    ((p.within budget).run s).answer = none ∧ ((p.within budget).run s).elapsed = budget ∧
      ((p.within budget).run s).state = p.abandonedAt budget s := by
  obtain ⟨hanswer, helapsed⟩ := late_of_gt (Nat.not_le.1 h)
  exact ⟨hanswer, helapsed, by rw [state_within, if_neg h]⟩

end Plan

namespace Reference

variable {β α : Type}

/-- A course that ends as a verdict says. -/
structure Verdict.Describes (v : Verdict β) (c : Plan.Course β Note Check) : Prop where
  answer : failureOf c.answer = v.failure
  elapsed : c.elapsed = v.elapsed
  state : c.state = v.state

theorem timeoutText_eq (budget : Nat) (label : String) :
    (Failure.elapsed label budget).message = timeoutText budget label := by
  have hmessage : (Failure.elapsed label budget).message =
      "Timeout after " ++ toString (budget * 1000 / 1000) ++ "ms: " ++ label := rfl
  rw [hmessage, Nat.mul_div_cancel budget (Nat.succ_pos 999), timeoutText]

theorem ofUnknown_late (budget : Nat) (label : String) :
    Rejection.ofUnknown ("Timeout when running " ++ label) (Failure.elapsed label budget).message =
      lateCheck budget label := by
  rw [timeoutText_eq]
  rfl

theorem rejection_elapsed (label : String) (budget : Nat) :
    (Failure.elapsed label budget).rejection =
      ⟨⟨"Operation timed out", timeoutText budget label⟩, false⟩ := by
  rw [← timeoutText_eq]
  rfl

theorem reject_eq_labelled (p : Pair) (r : Rejection) : p.reject r = labelled p r := by
  simp [Pair.reject, Pair.mark, Rejection.prepend, Reason.prepend, labelled, Accessor.displayLabel,
    String.append_assoc]

theorem abandonedAt_call (h : Handle β) (o : Operation) (p : Backend β α) (ms : Nat) (s : β) :
    (h.call o p).abandonedAt ms s = p.abandonedAt ms s :=
  Plan.abandonedAt_mapNotes _ p ms s

theorem instant_describes (h : Handle β) (o : Operation) (check : β → Check × β) (s : β) :
    (instant check s).Describes ((h.call o (.atomically check)).run s) := by
  rw [Handle.run_call]
  exact ⟨rfl, rfl, rfl⟩

/-- A budget over a call, whatever is then made of its answer. -/
theorem remote_describes (h : Handle β) (o : Operation) (p : Backend β α) (budget : Nat)
    (late : Rejection) (judge : α → Option Rejection) (f : Option α → Plan β Note Check)
    (hlate : f none = .done (.error late))
    (hjudge : ∀ a, ∃ c, f (some a) = .done c ∧ failureOf c = judge a) (s : β) :
    (remote budget late p judge s).Describes ((((h.call o p).within budget).bind f).run s) := by
  have hcall := h.run_call o p s
  rw [Plan.run_bind, remote]
  by_cases hle : (p.run s).elapsed ≤ budget
  · have hover : ((h.call o p).run s).elapsed ≤ budget := by rw [hcall]; exact hle
    have hw := Plan.within_of_le hover
    obtain ⟨c, hc, hf⟩ := hjudge (p.run s).answer
    rw [if_pos hle, hw, hcall]
    simp only [hc, Plan.run, Nat.add_zero]
    exact ⟨hf, rfl, rfl⟩
  · have hlong : ¬ ((h.call o p).run s).elapsed ≤ budget := by rw [hcall]; exact hle
    obtain ⟨hanswer, helapsed, hstate⟩ := Plan.within_of_gt hlong
    rw [if_neg hle]
    simp only [hanswer, helapsed, hstate, hlate, Plan.run, Nat.add_zero, abandonedAt_call]
    exact ⟨rfl, rfl, rfl⟩

/-- The step of a lookup that a stage stands for, where it is requested. -/
def Stage.step? (c : LookupChecks) : Stage → Option LookupStep
  | basic => some .basic
  | read => if c.read then some .read else none
  | packageRead => if c.packageRead then some .packageRead else none
  | version => c.version.map .version
  | write => if c.write then some .write else none
  | containerWrite => if c.containerWrite then some .containerWrite else none
  | custom => c.custom.map .custom

theorem steps_eq (c : LookupChecks) : c.steps = Stage.all.filterMap (Stage.step? c) := by
  obtain ⟨read, packageRead, version, write, containerWrite, custom⟩ := c
  cases read <;> cases packageRead <;> cases version <;> cases write <;> cases containerWrite <;>
    cases custom <;> rfl

theorem requested_iff (c : LookupChecks) (st : Stage) :
    Stage.requested c st = (Stage.step? c st).isSome := by
  cases st <;> simp [Stage.requested, Stage.step?] <;> split <;> simp_all

theorem stage_describes (w : Worker β) (checks : LookupChecks) (p : Pair) (h : Handle β)
    {st : Stage} {step : LookupStep} (hstep : Stage.step? checks st = some step) (s : β) :
    (stage w checks p h st s).Describes ((w.runStep p h step).run s) := by
  cases st with
  | basic =>
    obtain rfl := Option.some.inj hstep
    exact instant_describes h .checkBasic h.basicCheck s
  | read =>
    obtain ⟨-, hs⟩ := Option.ite_none_right_eq_some.1 hstep
    obtain rfl := Option.some.inj hs
    exact instant_describes h .checkRead h.readCheck s
  | packageRead =>
    obtain ⟨-, hs⟩ := Option.ite_none_right_eq_some.1 hstep
    obtain rfl := Option.some.inj hs
    exact remote_describes h .checkPackageRead h.packageReadCheck _ _ failureOf _
      (by simp only [ofUnknown_late]; rfl) (fun a => ⟨a, rfl, rfl⟩) s
  | version =>
    obtain ⟨expected, hexpected, rfl⟩ := Option.map_eq_some_iff.1 hstep
    rw [Worker.runStep, Handle.getVersion, Plan.attempt, Plan.bind_eq, Plan.bind_eq,
      Plan.bind_assoc]
    refine remote_describes h .actualVersion h.actualVersion _ _ (judgeVersion checks.version) _
      ?_ ?_ s
    · simp only [Plan.pure_eq, Plan.bind, rejection_elapsed]
      rfl
    · intro a
      cases a with
      | error f => exact ⟨_, rfl, rfl⟩
      | ok actual => exact ⟨expected.accepts actual, rfl, by rw [judgeVersion, hexpected]; rfl⟩
  | write =>
    obtain ⟨-, hs⟩ := Option.ite_none_right_eq_some.1 hstep
    obtain rfl := Option.some.inj hs
    exact instant_describes h .checkWrite h.writeCheck s
  | containerWrite =>
    obtain ⟨-, hs⟩ := Option.ite_none_right_eq_some.1 hstep
    obtain rfl := Option.some.inj hs
    exact remote_describes h .checkContainerWrite h.containerWriteCheck _ _ failureOf _
      (by simp only [ofUnknown_late]; rfl) (fun a => ⟨a, rfl, rfl⟩) s
  | custom =>
    obtain ⟨check, hcheck, rfl⟩ := Option.map_eq_some_iff.1 hstep
    exact ⟨by simp [stage, hcheck, Worker.runStep, Plan.run], rfl, rfl⟩

theorem failureOf_eq_none {c : Check} (h : failureOf c = none) : c = .ok () := by
  cases c with
  | error r => cases h
  | ok u => rfl

theorem failureOf_eq_some {c : Check} {r : Rejection} (h : failureOf c = some r) :
    c = .error r := by
  cases c with
  | error r' => exact congrArg _ (Option.some.inj h)
  | ok u => cases h

theorem stages_describes (w : Worker β) (checks : LookupChecks) (p : Pair) (h : Handle β)
    (sts : List Stage) (s : β) :
    (stages w checks p h (sts.filter (Stage.requested checks)) s).Describes
      ((w.runSteps p h (sts.filterMap (Stage.step? checks))).run s) := by
  induction sts generalizing s with
  | nil => exact ⟨rfl, rfl, rfl⟩
  | cons st sts ih =>
    cases hstep : Stage.step? checks st with
    | none =>
      rw [List.filterMap_cons_none hstep, List.filter_cons_of_neg (by simp [requested_iff, hstep])]
      exact ih s
    | some step =>
      rw [List.filterMap_cons_some hstep, List.filter_cons_of_pos (by simp [requested_iff, hstep]),
        stages, Worker.runSteps, Plan.bind_eq, Plan.run_bind]
      obtain ⟨hanswer, helapsed, hstate⟩ := stage_describes w checks p h hstep s
      cases hf : (stage w checks p h st s).failure with
      | some r =>
        have hr := failureOf_eq_some (hanswer.trans hf)
        simp only [Option.isSome_some, if_true, hr, Plan.pure_eq, Plan.run, Nat.add_zero]
        exact ⟨hf.symm, helapsed, hstate⟩
      | none =>
        have hok := failureOf_eq_none (hanswer.trans hf)
        obtain ⟨hanswer', helapsed', hstate'⟩ := ih (stage w checks p h st s).state
        simp only [Option.isSome_none, Bool.false_eq_true, if_false, hok, hstate]
        exact ⟨hanswer', by simp only [helapsed, helapsed'], hstate'⟩

structure Trial.Describes (t : Trial β) (c : Plan.Course β Note (Except Rejection (Handle β))) :
    Prop where
  answer : c.answer = t.result
  elapsed : c.elapsed = t.elapsed
  state : c.state = t.state

theorem run_createHandle (w : Worker β) (purpose : Purpose) (p : Pair) (s : β) :
    ∃ notes, (w.registry.createHandle (w.bindingOf purpose p)).run s =
      ⟨(create w purpose p s).1, 0, (create w purpose p s).2, notes⟩ := by
  simp only [Registry.createHandle, Registry.find, create, Worker.bindingOf]
  cases w.registry.registration? p.accessor.accessType with
  | none => exact ⟨[], rfl⟩
  | some entry =>
    simp only [Plan.say, Plan.atomically, Plan.bind_eq, Plan.bind, Plan.run]
    obtain ⟨made, t⟩ := entry.factory.create ⟨w.id, p.accessorId, p.accessor, purpose⟩ s
    cases made with
    | error f => exact ⟨_, rfl⟩
    | ok h =>
      by_cases hkind : h.accessType = p.accessor.accessType
      · simp only [hkind, ↓reduceIte]
        exact ⟨_, rfl⟩
      · simp only [hkind, ↓reduceIte]
        exact ⟨_, rfl⟩

theorem tryOne_describes (w : Worker β) (checks : LookupChecks) (purpose : Purpose) (p : Pair)
    (s : β) :
    (tryOne w checks purpose p s).Describes ((w.tryPair checks purpose p).run s) := by
  obtain ⟨notes, hcreate⟩ := run_createHandle w purpose p s
  rw [Worker.tryPair, Plan.bind_eq, Plan.run_bind, hcreate, tryOne]
  obtain ⟨made, t⟩ := create w purpose p s
  cases made with
  | error f =>
    simp only [reject_eq_labelled]
    exact ⟨rfl, rfl, rfl⟩
  | ok h =>
    obtain ⟨hanswer, helapsed, hstate⟩ := stages_describes w checks p h Stage.all t
    simp only [Plan.bind_eq, Plan.run_bind, steps_eq]
    cases hf : (stages w checks p h (Stage.all.filter (Stage.requested checks)) t).failure with
    | some r =>
      simp only [failureOf_eq_some (hanswer.trans hf), reject_eq_labelled, Nat.zero_add]
      exact ⟨rfl, helapsed, hstate⟩
    | none =>
      simp only [failureOf_eq_none (hanswer.trans hf), Nat.zero_add]
      exact ⟨rfl, helapsed, hstate⟩

theorem answerOr_passed {t : Trial β} {h : Handle β} (ht : t.result = .ok h) (last : Rejection)
    (ts : List (Trial β)) : answerOr last (t :: ts) = .ok ⟨t.pair, h⟩ := by
  simp [answerOr, Trial.selection?, ht, Except.toOption]

theorem rejection?_isSome {t : Trial β} (ht : t.selection? = none) : t.rejection?.isSome := by
  rw [Trial.rejection?]
  cases hresult : t.result with
  | ok h => simp [Trial.selection?, hresult, Except.toOption] at ht
  | error r => rfl

theorem answerOr_failed {t : Trial β} {r : Rejection} (ht : t.result = .error r) (last : Rejection)
    (ts : List (Trial β)) : answerOr last (t :: ts) = answerOr r ts := by
  have hnone : t.selection? = none := by simp [Trial.selection?, ht, Except.toOption]
  rw [answerOr, List.findSome?_cons, hnone, answerOr]
  cases ts with
  | nil => simp [Trial.rejection?, ht]
  | cons t' ts =>
    cases hfound : (t' :: ts).findSome? Trial.selection? with
    | some selected => rfl
    | none =>
      -- the last trial failed as well, so the rejection to start from plays no part
      have hmem := List.getLast_mem (List.cons_ne_nil t' ts)
      have hlast := List.findSome?_eq_none_iff.1 hfound _ hmem
      obtain ⟨r', hr'⟩ := Option.isSome_iff_exists.1 (rejection?_isSome hlast)
      simp [List.getLast?_eq_some_getLast (List.cons_ne_nil t' ts), hr']

theorem duration_passed {t : Trial β} {h : Handle β} (ht : t.result = .ok h) (ts : List (Trial β)) :
    duration (t :: ts) = t.elapsed := by
  simp [duration, Trial.passed, ht, Except.toBool]

theorem duration_failed {t : Trial β} {r : Rejection} (ht : t.result = .error r)
    (ts : List (Trial β)) : duration (t :: ts) = t.elapsed + duration ts := by
  simp [duration, Trial.passed, ht, Except.toBool]

theorem tryOne_pair (w : Worker β) (checks : LookupChecks) (purpose : Purpose) (p : Pair) (s : β) :
    (tryOne w checks purpose p s).pair = p := by
  rw [tryOne]
  split
  · rfl
  · dsimp only
    split <;> rfl

/-- The visit of the pairs, with any rejection to start from. -/
theorem run_visit (w : Worker β) (checks : LookupChecks) (purpose : Purpose) (last : Rejection)
    (pairs : List Pair) (s : β) :
    ((w.visit checks purpose last pairs).run s).answer =
        answerOr last (trials w checks purpose pairs s) ∧
      ((w.visit checks purpose last pairs).run s).elapsed =
        duration (trials w checks purpose pairs s) := by
  induction pairs generalizing last s with
  | nil => exact ⟨rfl, rfl⟩
  | cons p pairs ih =>
    obtain ⟨hanswer, helapsed, hstate⟩ := tryOne_describes w checks purpose p s
    simp only [Worker.visit, Plan.bind_eq, Plan.run_bind, trials, hanswer, helapsed, hstate]
    cases hresult : (tryOne w checks purpose p s).result with
    | ok h =>
      rw [answerOr_passed hresult, duration_passed hresult, tryOne_pair]
      exact ⟨rfl, rfl⟩
    | error r =>
      obtain ⟨hrest, htime⟩ := ih r (tryOne w checks purpose p s).state
      rw [answerOr_failed hresult, duration_failed hresult, ← hrest, ← htime]
      exact ⟨rfl, rfl⟩

/-- The answer is the first pair in the order that passes every requested step, else the last
rejection; beyond the budget of the lookup it is a timeout. -/
theorem lookup_answers (w : Worker β) (containers : List PackageContainer) (checks : LookupChecks)
    (purpose : Purpose) (s : β) :
    ∃ pairs, Pair.InOrder containers pairs ∧
      (∀ others, Pair.InOrder containers others → others = pairs) ∧
      let ts := trials w checks purpose pairs s
      let course := (w.lookup containers checks purpose).run s
      let budget := w.config.innerActionTimeout
      course.answer =
          (if duration ts ≤ budget then answerOr (nothingToTry containers) ts
            else .error (late budget)) ∧
        course.elapsed = min (duration ts) budget := by
  have hordered := Pair.prioritized_inOrder containers
  refine ⟨Pair.prioritized containers, hordered, fun others h => h.unique hordered, ?_⟩
  obtain ⟨hanswer, helapsed⟩ := run_visit w checks purpose (Worker.noAccessors containers)
    (Pair.prioritized containers) s
  have hvisit : w.visitAll containers checks purpose = w.visit checks purpose
    (Worker.noAccessors containers) (Pair.prioritized containers) := rfl
  rw [← hvisit] at hanswer helapsed
  simp only [Worker.lookup, Plan.bind_eq, Plan.run_bind, ← helapsed]
  by_cases hle :
      ((w.visitAll containers checks purpose).run s).elapsed ≤ w.config.innerActionTimeout
  · rw [Plan.within_of_le hle, if_pos hle, Nat.min_eq_left hle]
    exact ⟨hanswer, rfl⟩
  · obtain ⟨hnone, htime, -⟩ := Plan.within_of_gt hle
    rw [if_neg hle, Nat.min_eq_right (Nat.le_of_not_le hle), hnone, htime, timeoutText_eq]
    exact ⟨rfl, rfl⟩

end Reference
end PackageHandling
