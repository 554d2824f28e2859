import PackageHandling.Proofs.Lookup.Answer

/-!
# The operations of a lookup

A lookup visits the pairs in their order, up to the first that passes; on each pair it begins the
requested steps in their order, up to the first that fails.  The handle operations that it calls are
those of these steps and no others, and a lookup that is cut off has called the first of them: the
main statement is `lookup_calls`.
-/

namespace PackageHandling

/-- Items are taken one after the other up to the first that does not let it go on; the last
parameter says whether all were taken and let it go on. -/
inductive Walk {α γ : Type} (item : α → γ) (goesOn : α → Bool) : List γ → List α → Bool → Prop
  | all : Walk item goesOn [] [] true
  | stop (a : α) (rest : List γ) (halts : goesOn a = false) :
    Walk item goesOn (item a :: rest) [a] false
  | next {items : List γ} {taken : List α} {b : Bool} (a : α) (on : goesOn a = true)
    (rest : Walk item goesOn items taken b) : Walk item goesOn (item a :: items) (a :: taken) b

namespace Walk

variable {α γ : Type} {item : α → γ} {goesOn : α → Bool}
variable {items : List γ} {taken : List α} {b : Bool}

theorem isPrefix (h : Walk item goesOn items taken b) : taken.map item <+: items := by
  induction h with
  | all => exact List.prefix_refl _
  | stop a rest halts => exact ⟨rest, rfl⟩
  | next a on rest ih => exact List.cons_prefix_cons.2 ⟨rfl, ih⟩

theorem goesOn_of_mem_dropLast (h : Walk item goesOn items taken b) {a : α}
    (ha : a ∈ taken.dropLast) : goesOn a = true := by
  induction h with
  | all => cases ha
  | stop a rest halts => cases ha
  | @next items taken b a' on rest ih =>
    cases taken with
    | nil => cases ha
    | cons a'' taken =>
      rw [List.dropLast_cons_cons] at ha
      rcases List.mem_cons.1 ha with rfl | ha
      · exact on
      · exact ih ha

end Walk

namespace Plan

variable {σ ν μ α : Type}

/-- Cut off, a plan notes the beginning of what it would have noted. -/
theorem notes_within_prefix (p : Plan σ ν α) (budget : Nat) (s : σ) :
    ((p.within budget).run s).notes <+: (p.run s).notes := by
  induction p generalizing budget s with
  | done a => exact List.prefix_refl _
  | look k ih => exact ih s budget s
  | set t p ih => exact ih budget t
  | note n p ih => exact List.cons_prefix_cons.2 ⟨rfl, ih budget s⟩
  | wait ms p ih =>
    by_cases hms : ms ≤ budget
    · simp only [within, if_pos hms, run]
      exact ih (budget - ms) s
    · simp only [within, if_neg hms, run]
      exact List.nil_prefix

theorem within_mapNotes (f : ν → μ) (p : Plan σ ν α) (budget : Nat) :
    (p.mapNotes f).within budget = (p.within budget).mapNotes f := by
  induction p generalizing budget with
  | done a => rfl
  | look k ih => simp only [mapNotes, within, ih]
  | set s p ih => simp only [mapNotes, within, ih]
  | note n p ih => simp only [mapNotes, within, ih]
  | wait ms p ih =>
    by_cases hms : ms ≤ budget
    · simp only [mapNotes, within, if_pos hms, ih]
    · simp only [mapNotes, within, if_neg hms]

end Plan

namespace Reference

variable {β α : Type}

theorem calls_call_within (h : Handle β) (o : Operation) (p : Backend β α) (budget : Nat) (s : β) :
    (((h.call o p).within budget).run s).calls = [(h.accessorId, o)] := by
  have hwithin : (h.call o p).within budget =
      .note (.called h.accessorId o) ((p.within budget).mapNotes .remarked) := by
    rw [Handle.call, Plan.within, Plan.within_mapNotes]
  simp only [hwithin, Plan.run, Plan.run_mapNotes]
  exact Handle.operations_called ..

/-- The handle operation of a stage; a custom check calls none. -/
def Stage.operation? : Stage → Option Operation
  | basic => some .checkBasic
  | read => some .checkRead
  | packageRead => some .checkPackageRead
  | version => some .actualVersion
  | write => some .checkWrite
  | containerWrite => some .checkContainerWrite
  | custom => none

/-- What is done on a pair: first its handle is made, then the stages are run. -/
inductive Step
  | create | check (stage : Stage)

def requestedSteps (c : LookupChecks) : List Step :=
  .create :: (Stage.all.filter (Stage.requested c)).map .check

/-- A step that was begun, the handle operation it calls, and whether it passed. -/
structure Attempt where
  step : Step
  call? : Option (String × Operation)
  passed : Bool

theorem filterMap_call?_cons (a : Attempt) (as : List Attempt) :
    (a :: as).filterMap Attempt.call? = a.call?.toList ++ as.filterMap Attempt.call? := by
  cases hcall : a.call? with
  | none => rw [List.filterMap_cons_none hcall]; rfl
  | some c => rw [List.filterMap_cons_some hcall]; rfl

def stageAttempts (w : Worker β) (checks : LookupChecks) (p : Pair) (h : Handle β) :
    List Stage → β → List Attempt
  | [], _ => []
  | st :: rest, s =>
    let v := stage w checks p h st s
    ⟨.check st, st.operation?.map (h.accessorId, ·), v.failure.isNone⟩ ::
      if v.failure.isSome then [] else stageAttempts w checks p h rest v.state

/-- The steps that are begun on a pair.  An accessor of a kind that is not registered has no
factory to call. -/
def attempts (w : Worker β) (checks : LookupChecks) (purpose : Purpose) (p : Pair) (s : β) :
    List Attempt :=
  let call? : Option (String × Operation) :=
    if w.registry.isRegistered p.accessor.accessType then some (p.accessorId, .create) else none
  match create w purpose p s with
  | (.error _, _) => [⟨.create, call?, false⟩]
  | (.ok h, t) =>
    ⟨.create, call?, true⟩ ::
      stageAttempts w checks p h (Stage.all.filter (Stage.requested checks)) t

/-- A pair that is visited, and the state in which it finds the backend. -/
structure Visit (β : Type) where
  pair : Pair
  state : β

namespace Visit

variable (w : Worker β) (checks : LookupChecks) (purpose : Purpose)

def passed (v : Visit β) : Bool := (tryOne w checks purpose v.pair v.state).passed

def attempts (v : Visit β) : List Attempt := Reference.attempts w checks purpose v.pair v.state

def calls (v : Visit β) : List (String × Operation) :=
  (v.attempts w checks purpose).filterMap Attempt.call?

end Visit

def visits (w : Worker β) (checks : LookupChecks) (purpose : Purpose) :
    List Pair → β → List (Visit β)
  | [], _ => []
  | p :: rest, s =>
    let t := tryOne w checks purpose p s
    ⟨p, s⟩ :: if t.passed then [] else visits w checks purpose rest t.state

theorem calls_remote {γ : Type} (h : Handle β) (o : Operation) (p : Backend β α) (budget : Nat)
    {f : Option α → Plan β Note γ} (hf : ∀ a, ∃ c, f a = .done c) (s : β) :
    ((((h.call o p).within budget).bind f).run s).calls = [(h.accessorId, o)] := by
  rw [Plan.calls_bind_done _ hf, calls_call_within]

theorem calls_runStep (w : Worker β) (checks : LookupChecks) (p : Pair) (h : Handle β) {st : Stage}
    {step : LookupStep} (hstep : Stage.step? checks st = some step) (s : β) :
    ((w.runStep p h step).run s).calls = (st.operation?.map (h.accessorId, ·)).toList := by
  cases st with
  | basic =>
    obtain rfl := Option.some.inj hstep
    exact h.calls_call .checkBasic _ s
  | read =>
    obtain ⟨-, hs⟩ := Option.ite_none_right_eq_some.1 hstep
    obtain rfl := Option.some.inj hs
    exact h.calls_call .checkRead _ s
  | packageRead =>
    obtain ⟨-, hs⟩ := Option.ite_none_right_eq_some.1 hstep
    obtain rfl := Option.some.inj hs
    exact calls_remote h .checkPackageRead _ _ (fun a => by cases a <;> exact ⟨_, rfl⟩) s
  | version =>
    obtain ⟨expected, -, rfl⟩ := Option.map_eq_some_iff.1 hstep
    rw [Worker.runStep, Handle.getVersion, Plan.attempt, Plan.bind_eq, Plan.bind_eq,
      Plan.bind_assoc]
    refine calls_remote h .actualVersion _ _ (fun a => ?_) s
    cases a with
    | none => exact ⟨_, rfl⟩
    | some r => cases r <;> exact ⟨_, rfl⟩
  | write =>
    obtain ⟨-, hs⟩ := Option.ite_none_right_eq_some.1 hstep
    obtain rfl := Option.some.inj hs
    exact h.calls_call .checkWrite _ s
  | containerWrite =>
    obtain ⟨-, hs⟩ := Option.ite_none_right_eq_some.1 hstep
    obtain rfl := Option.some.inj hs
    exact calls_remote h .checkContainerWrite _ _ (fun a => by cases a <;> exact ⟨_, rfl⟩) s
  | custom =>
    obtain ⟨check, -, rfl⟩ := Option.map_eq_some_iff.1 hstep
    rfl

theorem calls_runSteps (w : Worker β) (checks : LookupChecks) (p : Pair) (h : Handle β)
    (sts : List Stage) (s : β) :
    ((w.runSteps p h (sts.filterMap (Stage.step? checks))).run s).calls =
      (stageAttempts w checks p h (sts.filter (Stage.requested checks)) s).filterMap
        Attempt.call? := by
  induction sts generalizing s with
  | nil => rfl
  | cons st sts ih =>
    cases hstep : Stage.step? checks st with
    | none =>
      rw [List.filterMap_cons_none hstep, List.filter_cons_of_neg (by simp [requested_iff, hstep])]
      exact ih s
    | some step =>
      rw [List.filterMap_cons_some hstep, List.filter_cons_of_pos (by simp [requested_iff, hstep]),
        Worker.runSteps, Plan.bind_eq, Plan.calls_bind, calls_runStep w checks p h hstep]
      obtain ⟨hanswer, -, hstate⟩ := stage_describes w checks p h hstep s
      rw [stageAttempts, filterMap_call?_cons]
      congr 1
      cases hf : (stage w checks p h st s).failure with
      | some r =>
        have hr := failureOf_eq_some (hanswer.trans hf)
        simp only [Option.isSome_some, if_true, hr]
        rfl
      | none =>
        have hok := failureOf_eq_none (hanswer.trans hf)
        simp only [Option.isSome_none, Bool.false_eq_true, if_false, hok, hstate]
        exact ih (stage w checks p h st s).state

theorem calls_createHandle (w : Worker β) (purpose : Purpose) (p : Pair) (s : β) :
    ((w.registry.createHandle (w.bindingOf purpose p)).run s).calls =
      if w.registry.isRegistered p.accessor.accessType then [(p.accessorId, .create)] else [] := by
  rw [Registry.isRegistered, Registry.createHandle, Registry.find, Worker.bindingOf]
  cases hentry : w.registry.registration? p.accessor.accessType with
  | none => rfl
  | some entry =>
    simp only [Plan.say, Plan.atomically, Plan.bind_eq, Plan.bind, Plan.run]
    cases (entry.factory.create ⟨w.id, p.accessorId, p.accessor, purpose⟩ s).1 with
    | error f => rfl
    | ok h =>
      by_cases hkind : h.accessType = p.accessor.accessType
      · simp only [if_pos hkind]
        rfl
      · simp only [if_neg hkind]
        rfl

theorem calls_tryPair (w : Worker β) (checks : LookupChecks) (purpose : Purpose) (p : Pair)
    (s : β) :
    ((w.tryPair checks purpose p).run s).calls = Visit.calls w checks purpose ⟨p, s⟩ := by
  obtain ⟨notes, hcreate⟩ := run_createHandle w purpose p s
  rw [Worker.tryPair, Plan.bind_eq, Plan.calls_bind, calls_createHandle, hcreate, Visit.calls,
    Visit.attempts, attempts]
  obtain ⟨made, t⟩ := create w purpose p s
  cases made with
  | error f =>
    rw [filterMap_call?_cons]
    split
    · rfl
    · rfl
  | ok h =>
    simp only [filterMap_call?_cons, ← calls_runSteps, Plan.bind_eq, Plan.calls_bind, steps_eq]
    have hcall : (if w.registry.isRegistered p.accessor.accessType then
          [(p.accessorId, Operation.create)] else []) =
        (if w.registry.isRegistered p.accessor.accessType then
          some (p.accessorId, Operation.create) else none).toList := by
      split
      · rfl
      · rfl
    rw [hcall]
    congr 1
    cases ((w.runSteps p h (Stage.all.filterMap (Stage.step? checks))).run t).answer with
    | error r => exact List.append_nil _
    | ok u => exact List.append_nil _

theorem calls_visit (w : Worker β) (checks : LookupChecks) (purpose : Purpose) (last : Rejection)
    (pairs : List Pair) (s : β) :
    ((w.visit checks purpose last pairs).run s).calls =
      (visits w checks purpose pairs s).flatMap (Visit.calls w checks purpose) := by
  induction pairs generalizing last s with
  | nil => rfl
  | cons p pairs ih =>
    obtain ⟨hanswer, -, hstate⟩ := tryOne_describes w checks purpose p s
    rw [Worker.visit, Plan.bind_eq, Plan.calls_bind, calls_tryPair, hanswer, hstate, visits,
      List.flatMap_cons]
    congr 1
    cases hresult : (tryOne w checks purpose p s).result with
    | ok h =>
      simp only [Trial.passed, hresult, Except.toBool, if_true]
      rfl
    | error r =>
      simp only [Trial.passed, hresult, Except.toBool, Bool.false_eq_true, if_false]
      exact ih r _

theorem stageAttempts_walk (w : Worker β) (checks : LookupChecks) (p : Pair) (h : Handle β)
    (sts : List Stage) (s : β) :
    Walk Attempt.step Attempt.passed (sts.map .check) (stageAttempts w checks p h sts s)
      (stages w checks p h sts s).failure.isNone := by
  induction sts generalizing s with
  | nil => exact .all
  | cons st sts ih =>
    rw [stageAttempts, stages]
    cases hf : (stage w checks p h st s).failure with
    | some r =>
      simp only [Option.isSome_some, if_true, hf]
      exact .stop (⟨.check st, st.operation?.map (h.accessorId, ·), false⟩ : Attempt) _ rfl
    | none =>
      simp only [Option.isSome_none, Bool.false_eq_true, if_false]
      exact .next (⟨.check st, st.operation?.map (h.accessorId, ·), true⟩ : Attempt) rfl (ih _)

/-- On a pair the requested steps are begun in their order, up to the first that fails. -/
theorem attempts_walk (w : Worker β) (checks : LookupChecks) (purpose : Purpose) (v : Visit β) :
    Walk Attempt.step Attempt.passed (requestedSteps checks) (v.attempts w checks purpose)
      (v.passed w checks purpose) := by
  rw [Visit.attempts, attempts, Visit.passed, tryOne]
  obtain ⟨made, t⟩ := create w purpose v.pair v.state
  cases made with
  | error f => exact .stop (⟨.create, _, false⟩ : Attempt) _ rfl
  | ok h =>
    have hstages := stageAttempts_walk w checks v.pair h
      (Stage.all.filter (Stage.requested checks)) t
    cases hf : (stages w checks v.pair h (Stage.all.filter (Stage.requested checks)) t).failure with
    | none =>
      rw [hf] at hstages
      simp only [hf]
      exact .next (⟨.create, _, true⟩ : Attempt) rfl hstages
    | some r =>
      rw [hf] at hstages
      simp only [hf]
      exact .next (⟨.create, _, true⟩ : Attempt) rfl hstages

/-- The pairs are visited in their order, up to the first that passes. -/
theorem visits_walk (w : Worker β) (checks : LookupChecks) (purpose : Purpose) (last : Rejection)
    (pairs : List Pair) (s : β) :
    Walk Visit.pair (fun v => !v.passed w checks purpose) pairs
      (visits w checks purpose pairs s)
      (!((w.visit checks purpose last pairs).run s).answer.toBool) := by
  induction pairs generalizing last s with
  | nil => exact .all
  | cons p pairs ih =>
    obtain ⟨hanswer, -, hstate⟩ := tryOne_describes w checks purpose p s
    simp only [visits, Worker.visit, Plan.bind_eq, Plan.run_bind, hanswer, hstate]
    cases hresult : (tryOne w checks purpose p s).result with
    | ok h =>
      have hpassed : (tryOne w checks purpose p s).passed = true := by
        rw [Trial.passed, hresult]
        rfl
      simp only [hpassed, if_true]
      exact .stop (⟨p, s⟩ : Visit β) _ (by simp [Visit.passed, hpassed])
    | error r =>
      have hpassed : (tryOne w checks purpose p s).passed = false := by
        rw [Trial.passed, hresult]
        rfl
      simp only [hpassed, Bool.false_eq_true, if_false]
      exact .next (⟨p, s⟩ : Visit β) (by simp [Visit.passed, hpassed]) (ih r _)

theorem getLast?_visits (w : Worker β) (checks : LookupChecks) (purpose : Purpose)
    (last : Rejection) (pairs : List Pair) (s : β) {selected : Selection β}
    (h : ((w.visit checks purpose last pairs).run s).answer = .ok selected) :
    ((visits w checks purpose pairs s).getLast?).map Visit.pair = some selected.pair := by
  induction pairs generalizing last s with
  | nil => cases h
  | cons p pairs ih =>
    obtain ⟨hanswer, -, hstate⟩ := tryOne_describes w checks purpose p s
    simp only [Worker.visit, Plan.bind_eq, Plan.run_bind, hanswer, hstate] at h
    rw [visits]
    cases hresult : (tryOne w checks purpose p s).result with
    | ok made =>
      simp only [hresult] at h
      cases h
      simp [Trial.passed, hresult, Except.toBool]
    | error r =>
      simp only [hresult] at h
      have hrest := ih r _ h
      simp only [Trial.passed, hresult, Except.toBool, Bool.false_eq_true, if_false]
      cases hvisits : visits w checks purpose pairs (tryOne w checks purpose p s).state with
      | nil => rw [hvisits] at hrest; cases hrest
      | cons v vs => rw [hvisits] at hrest; simpa using hrest

/-- A check is begun only with a handle that the factory of a registered kind has made, and that is
of this kind itself. -/
theorem handle_of_check {w : Worker β} {checks : LookupChecks} {purpose : Purpose} {v : Visit β}
    {st : Stage} (h : .check st ∈ (v.attempts w checks purpose).map Attempt.step) :
    ∃ entry made, w.registry.registration? v.pair.accessor.accessType = some entry ∧
      (entry.factory.create (w.bindingOf purpose v.pair) v.state).1 = .ok made ∧
      made.accessType = v.pair.accessor.accessType := by
  have hcreate : ∃ made, (create w purpose v.pair v.state).1 = .ok made := by
    rcases hcreate : create w purpose v.pair v.state with ⟨made, t⟩
    cases made with
    | error f => simp [Visit.attempts, attempts, hcreate] at h
    | ok made => exact ⟨made, rfl⟩
  obtain ⟨made, hmade⟩ := hcreate
  rw [create] at hmade
  split at hmade
  · cases hmade
  · next entry hentry =>
    split at hmade
    · cases hmade
    · next made' t hfactory =>
      split at hmade
      · next hkind =>
        cases hmade
        exact ⟨entry, made, hentry, congrArg Prod.fst hfactory, hkind⟩
      · cases hmade

def withCustom (c : LookupChecks) (custom : Pair → Check) : LookupChecks :=
  { c with custom := some custom }

theorem step?_withCustom {checks : LookupChecks} {custom : Pair → Check}
    (hcustom : checks.custom = some custom) (custom' : Pair → Check) (st : Stage) :
    (Stage.step? checks st = none → Stage.step? (withCustom checks custom') st = none) ∧
      ∀ step, Stage.step? checks st = some step →
        ∃ step', Stage.step? (withCustom checks custom') st = some step' ∧
          ∀ (w : Worker β) (p : Pair) (h : Handle β), (st = .custom → custom' p = custom p) →
            w.runStep p h step' = w.runStep p h step := by
  cases st with
  | custom =>
    refine ⟨fun hnone => by simp [Stage.step?, hcustom] at hnone, fun step hstep => ?_⟩
    obtain rfl : LookupStep.custom custom = step := by simpa [Stage.step?, hcustom] using hstep
    refine ⟨.custom custom', rfl, fun w p h hsame => ?_⟩
    rw [Worker.runStep, Worker.runStep, hsame rfl]
  | basic | read | packageRead | version | write | containerWrite =>
    exact ⟨id, fun step hstep => ⟨step, hstep, fun _ _ _ _ => rfl⟩⟩

/-- What a custom check says of a pair plays no part unless it is begun there. -/
theorem run_runSteps_withCustom (w : Worker β) {checks : LookupChecks} {custom : Pair → Check}
    (hcustom : checks.custom = some custom) (custom' : Pair → Check) (p : Pair) (h : Handle β)
    (sts : List Stage) (s : β)
    (hsame : .check .custom ∈ (stageAttempts w checks p h
      (sts.filter (Stage.requested checks)) s).map Attempt.step → custom' p = custom p) :
    (w.runSteps p h (sts.filterMap (Stage.step? (withCustom checks custom')))).run s =
      (w.runSteps p h (sts.filterMap (Stage.step? checks))).run s := by
  -- stages before the custom one run as they did, and one that fails hides it
  induction sts generalizing s with
  | nil => rfl
  | cons st sts ih =>
    obtain ⟨hskip, hrun⟩ := step?_withCustom (β := β) hcustom custom' st
    cases hstep : Stage.step? checks st with
    | none =>
      rw [List.filter_cons_of_neg (by simp [requested_iff, hstep])] at hsame
      rw [List.filterMap_cons_none hstep, List.filterMap_cons_none (hskip hstep)]
      exact ih s hsame
    | some step =>
      rw [List.filter_cons_of_pos (by simp [requested_iff, hstep]), stageAttempts] at hsame
      obtain ⟨step', hstep', heq⟩ := hrun step hstep
      have hhead : w.runStep p h step' = w.runStep p h step :=
        heq w p h fun hst => hsame (by simp [hst])
      obtain ⟨hanswer, -, hstate⟩ := stage_describes w checks p h hstep s
      rw [List.filterMap_cons_some hstep, List.filterMap_cons_some hstep', Worker.runSteps,
        Worker.runSteps, hhead, Plan.bind_eq, Plan.bind_eq, Plan.run_bind, Plan.run_bind]
      cases hpassed : ((w.runStep p h step).run s).answer with
      | error r => simp only [hpassed]
      | ok u =>
        have hf : (stage w checks p h st s).failure = none := by rw [← hanswer, hpassed]; rfl
        have hrest := ih (stage w checks p h st s).state fun hmem => hsame (by simp [hf, hmem])
        simp only [hpassed, hstate, hrest]

theorem run_tryPair_withCustom (w : Worker β) {checks : LookupChecks} {custom : Pair → Check}
    (hcustom : checks.custom = some custom) (custom' : Pair → Check) (purpose : Purpose) (p : Pair)
    (s : β)
    (hsame : .check .custom ∈ (attempts w checks purpose p s).map Attempt.step →
      custom' p = custom p) :
    (w.tryPair (withCustom checks custom') purpose p).run s =
      (w.tryPair checks purpose p).run s := by
  obtain ⟨notes, hcreate⟩ := run_createHandle w purpose p s
  rw [Worker.tryPair, Worker.tryPair, Plan.bind_eq, Plan.bind_eq, Plan.run_bind, Plan.run_bind,
    hcreate]
  rcases hmade : create w purpose p s with ⟨made, t⟩
  cases made with
  | error f => rfl
  | ok h =>
    have hsteps := run_runSteps_withCustom w hcustom custom' p h Stage.all t fun hmem =>
      hsame (by simp [attempts, hmade, hmem])
    simp only [steps_eq, Plan.bind_eq, Plan.run_bind, hsteps]

theorem run_visit_withCustom (w : Worker β) {checks : LookupChecks} {custom : Pair → Check}
    (hcustom : checks.custom = some custom) (custom' : Pair → Check) (purpose : Purpose)
    (last : Rejection) (pairs : List Pair) (s : β)
    (hsame : ∀ v ∈ visits w checks purpose pairs s,
      .check .custom ∈ (v.attempts w checks purpose).map Attempt.step →
        custom' v.pair = custom v.pair) :
    (w.visit (withCustom checks custom') purpose last pairs).run s =
      (w.visit checks purpose last pairs).run s := by
  induction pairs generalizing last s with
  | nil => rfl
  | cons p pairs ih =>
    have hhead := run_tryPair_withCustom w hcustom custom' purpose p s
      (hsame ⟨p, s⟩ (List.mem_cons_self ..))
    obtain ⟨hanswer, -, hstate⟩ := tryOne_describes w checks purpose p s
    simp only [Worker.visit, Plan.bind_eq, Plan.run_bind, hhead, hanswer, hstate]
    cases hresult : (tryOne w checks purpose p s).result with
    | ok h => rfl
    | error r =>
      have hrest := ih r (tryOne w checks purpose p s).state fun v hv =>
        hsame v (List.mem_cons_of_mem _ (by simpa [Trial.passed, hresult, Except.toBool] using hv))
      simp only [Plan.run_bind, Plan.say, Plan.run, hrest]

/-- A lookup calls what it would call without its budget, or the beginning of it. -/
theorem calls_lookup (w : Worker β) (containers : List PackageContainer) (checks : LookupChecks)
    (purpose : Purpose) (s : β) :
    let walk := (w.visitAll containers checks purpose).run s
    let course := (w.lookup containers checks purpose).run s
    (walk.elapsed ≤ w.config.innerActionTimeout → course.calls = walk.calls) ∧
      course.calls <+: walk.calls := by
  intro walk course
  let budget := w.config.innerActionTimeout
  have hcalls : course.calls =
      (((w.visitAll containers checks purpose).within budget).run s).calls := by
    rw [show course = (w.lookup containers checks purpose).run s from rfl, Worker.lookup,
      Plan.bind_eq]
    exact Plan.calls_bind_done _ (fun r => by cases r <;> exact ⟨_, rfl⟩) s
  rw [hcalls]
  constructor
  · intro hle
    rw [Plan.within_of_le hle]
    rfl
  · exact (Plan.notes_within_prefix _ _ s).filterMap _

/-- On each pair that is visited the requested steps are begun in their order, up to the first that
fails.  Cut off by its budget, a lookup has called the first of these operations and no others. -/
theorem lookup_calls (w : Worker β) (containers : List PackageContainer) (checks : LookupChecks)
    (purpose : Purpose) (s : β) :
    ∃ pairs, Pair.InOrder containers pairs ∧
      (∀ others, Pair.InOrder containers others → others = pairs) ∧
      let vs := visits w checks purpose pairs s
      let walk := (w.visitAll containers checks purpose).run s
      let course := (w.lookup containers checks purpose).run s
      walk.calls = vs.flatMap (Visit.calls w checks purpose) ∧
      Walk Visit.pair (fun v => !v.passed w checks purpose) pairs vs (!walk.answer.toBool) ∧
      vs.map Visit.pair <+: pairs ∧
      (∀ selected, walk.answer = .ok selected →
        vs.getLast?.map Visit.pair = some selected.pair) ∧
      (∀ v ∈ vs,
        let tried := v.attempts w checks purpose
        Walk Attempt.step Attempt.passed (requestedSteps checks) tried
            (v.passed w checks purpose) ∧
          tried.map Attempt.step <+: requestedSteps checks ∧
          (∀ a ∈ tried.dropLast, a.passed = true) ∧
          ∀ st, .check st ∈ tried.map Attempt.step → ∃ entry made,
            w.registry.registration? v.pair.accessor.accessType = some entry ∧
            (entry.factory.create (w.bindingOf purpose v.pair) v.state).1 = .ok made ∧
            made.accessType = v.pair.accessor.accessType) ∧
      (∀ custom custom', checks.custom = some custom →
        (∀ v ∈ vs, .check .custom ∈ (v.attempts w checks purpose).map Attempt.step →
          custom' v.pair = custom v.pair) →
        (w.visitAll containers (withCustom checks custom') purpose).run s = walk) ∧
      (walk.elapsed ≤ w.config.innerActionTimeout → course.calls = walk.calls) ∧
      course.calls <+: walk.calls := by
  have hordered := Pair.prioritized_inOrder containers
  have hwalk := visits_walk w checks purpose (Worker.noAccessors containers)
    (Pair.prioritized containers) s
  have hsteps := attempts_walk w checks purpose
  obtain ⟨huncut, hcut⟩ := calls_lookup w containers checks purpose s
  refine ⟨Pair.prioritized containers, hordered, fun others h => h.unique hordered,
    calls_visit w checks purpose (Worker.noAccessors containers) _ s, hwalk, hwalk.isPrefix,
    fun selected h => getLast?_visits w checks purpose _ _ s h, fun v _ => ?_, ?_, huncut, hcut⟩
  · exact ⟨hsteps v, (hsteps v).isPrefix, fun a ha => (hsteps v).goesOn_of_mem_dropLast ha,
      fun st h => handle_of_check h⟩
  · intro custom custom' hcustom hsame
    exact run_visit_withCustom w hcustom custom' purpose _ _ s hsame

end Reference
end PackageHandling
