import PackageHandling.Proofs.Readiness.Journal
import PackageHandling.Proofs.Readiness.Versions

/-!
# What a reading of the version waits for

A check of a source reads the version of a handle in two places, in its lookup and to see that the
source is stable.  Wherever that is, the handle has passed the checks that say that its package is
there and can be read; and only the handle that the lookup has found is opened.  The main statement
is `reads_gated`.
-/

namespace PackageHandling

open Plan

variable {β ε α : Type} {probing : Nat → Prop} {j : Journal} {n : Nat}

namespace Journaled

variable {holds : α → Journal → Prop}
variable {p' : Plan (β × Journal) Note α} {p : Plan β Note α}

theorem within_same (h : Journaled probing j (fun a' a j' => a' = a ∧ holds a j') p' p)
    (budget : Nat) :
    Journaled probing j (fun a' a j' => a' = a ∧ ∀ c, a = some c → holds c j') (p'.within budget)
      (p.within budget) := by
  refine (h.within budget).mono fun a' a j' _ hrel => ?_
  cases hrel with
  | none => exact ⟨rfl, fun c hc => by cases hc⟩
  | some hmeets =>
    obtain ⟨rfl, hholds⟩ := hmeets
    exact ⟨rfl, fun c hc => Option.some.inj hc ▸ hholds⟩

theorem limited (h : Journaled probing j (fun a' a j' => a' = a ∧ holds a j') p' p) (budget : Nat)
    (label : String) :
    Journaled probing j (fun a' a _ => a' = a) (p'.limited budget label)
      (p.limited budget label) := by
  refine (h.within_same budget).bind fun a' a j' _ hmeets => ?_
  obtain ⟨rfl, -⟩ := hmeets
  cases a' with
  | none => exact .done rfl
  | some a => exact .done rfl

end Journaled

theorem Journaled.attempt {holds : Journal → Prop} {p' : Plan (β × Journal) Note (Except Failure α)}
    {p : Plan β Note (Except Failure α)}
    (h : Journaled probing j (fun a' a j' => a' = a ∧ (a.toBool = true → holds j')) p' p)
    (budget : Nat) (label : String) :
    Journaled probing j (fun a' a j' => a' = a ∧ (a.toBool = true → holds j'))
      (p'.attempt budget label) (p.attempt budget label) := by
  refine (h.within_same budget).bind fun a' a j' _ hmeets => ?_
  obtain ⟨rfl, hholds⟩ := hmeets
  cases a' with
  | none => exact .done ⟨rfl, fun hok => by cases hok⟩
  | some a => exact .done ⟨rfl, hholds a rfl⟩

theorem Journaled.check {holds : Journal → Prop} {p' : Plan (β × Journal) Note Check}
    {p : Plan β Note Check}
    (h : Journaled probing j (fun a' a j' => a' = a ∧ (a.toBool = true → holds j')) p' p)
    (budget : Nat) (label : String) :
    Journaled probing j (fun a' a j' => a' = a ∧ (a.toBool = true → holds j'))
      (p'.check budget label) (p.check budget label) := by
  refine (h.within_same budget).bind fun a' a j' _ hmeets => ?_
  obtain ⟨rfl, hholds⟩ := hmeets
  cases a' with
  | none => exact .done ⟨rfl, fun hok => by cases hok⟩
  | some a => exact .done ⟨rfl, hholds a rfl⟩

def LookupStep.operation? : LookupStep → Option Operation
  | basic => some .checkBasic
  | read => some .checkRead
  | packageRead => some .checkPackageRead
  | version _ => some .actualVersion
  | write => some .checkWrite
  | containerWrite => some .checkContainerWrite
  | custom _ => none

namespace LookupStep

def operations (steps : List LookupStep) : List Operation :=
  steps.flatMap fun step => step.operation?.toList

/-- Where these operations have passed, no step reads the version before its checks. -/
def Guarded (passed : List Operation) : List LookupStep → Prop
  | [] => True
  | step :: rest =>
    (step.operation? = some .actualVersion → ∀ o ∈ Journal.gates, o ∈ passed) ∧
      Guarded (passed ++ step.operation?.toList) rest

/-- The steps that find a source make all checks, and read the version after them. -/
theorem guarded_sourceChecks (e : Expectation) : Guarded [] (sourceChecks e).steps ∧
    ∀ o ∈ Journal.gates, o ∈ operations (sourceChecks e).steps := by
  rw [sourceChecks]
  cases e.start.version with
  | none =>
    simp [LookupChecks.steps, Guarded, operations, operation?, Journal.gates]
  | some expected =>
    simp [LookupChecks.steps, Guarded, operations, operation?, Journal.gates]

end LookupStep

theorem Factory.create_journaled (f : Factory β) (b : Binding) :
    Journaled probing j (fun made' made _ => ∃ n, made' = made.map (Handle.watched n))
      (.note (.called b.accessorId .create) (.atomically (f.watched.create b)))
      (.note (.called b.accessorId .create) (.atomically (f.create b))) := by
  intro s l hkept
  have hmade : Kept probing j ((f.create b s).2,
      j ++ [.asked (Journal.count j) b.accessorId .create]) (f.create b s).2
        (l ++ [.called b.accessorId .create]) :=
    ⟨rfl, List.prefix_append .., hkept.sound.snoc (.made b.accessorId), hkept.tells.ask _ _ _⟩
  exact .note _ (.look (.lookToo (.set (.setToo (.done ⟨hmade, Journal.count j, rfl⟩)))))

namespace Worker

theorem runStep_journaled (w : Worker β) (p : Pair) (h : Handle β) (step : LookupStep)
    (hopen : step.operation? = some .actualVersion → Journal.Open j n h.accessorId) :
    Journaled probing j
      (fun a' a j' => a' = a ∧ (a.toBool = true →
        ∀ o, step.operation? = some o → Journal.Passed j' n h.accessorId o))
      (w.watched.runStep p (h.watched n) step) (w.runStep p h step) := by
  have hpassed : ∀ {o : Operation} {a' a : Check} {j' : Journal}, step.operation? = some o →
      a' = a ∧ (a.toBool = true → Journal.Passed j' n h.accessorId o) →
      a' = a ∧ (a.toBool = true → ∀ o, step.operation? = some o →
        Journal.Passed j' n h.accessorId o) := by
    rintro o a' a j' ho ⟨rfl, hpass⟩
    refine ⟨rfl, fun hok o' ho' => ?_⟩
    obtain rfl := Option.some.inj (ho.symm.trans ho')
    exact hpass hok
  have hnext : ∀ o, o ≠ .create → o ≠ .actualVersion → o ≠ .probe →
      Journal.Next probing j (.asked n h.accessorId o) := fun o hcreate hversion hprobe =>
    .asked hcreate (fun ho => absurd ho hversion) fun ho => absurd ho hprobe
  cases step with
  | basic =>
    have hcall := h.callCheck_journaled h.basicCheck (hnext .checkBasic nofun nofun nofun)
    exact hcall.mono fun _ _ _ _ => hpassed rfl
  | read =>
    have hcall := h.callCheck_journaled h.readCheck (hnext .checkRead nofun nofun nofun)
    exact hcall.mono fun _ _ _ _ => hpassed rfl
  | write =>
    have hcall := h.callCheck_journaled h.writeCheck (hnext .checkWrite nofun nofun nofun)
    exact hcall.mono fun _ _ _ _ => hpassed rfl
  | packageRead =>
    have hcall := h.call_journaled h.packageReadCheck (hnext .checkPackageRead nofun nofun nofun)
    exact (hcall.check _ _).mono fun _ _ _ _ => hpassed rfl
  | containerWrite =>
    have hcall := h.call_journaled h.containerWriteCheck
      (hnext .checkContainerWrite nofun nofun nofun)
    exact (hcall.check _ _).mono fun _ _ _ _ => hpassed rfl
  | custom check => exact .done ⟨rfl, fun _ o ho => by cases ho⟩
  | version expected =>
    have hread : Journal.Next probing j (.asked n h.accessorId .actualVersion) :=
      .asked nofun (fun _ => hopen rfl) nofun
    refine ((h.call_journaled h.actualVersion hread).attempt w.config.remoteCheckTimeout
      "getPackageActualVersion").bind fun a' a j' _ hmeets => ?_
    obtain ⟨rfl, hpass⟩ := hmeets
    cases a' with
    | error f => exact .done ⟨rfl, fun hok => by cases hok⟩
    | ok v => exact .done (hpassed rfl ⟨rfl, fun _ => hpass rfl⟩)

theorem runSteps_journaled (w : Worker β) (p : Pair) (h : Handle β) (steps : List LookupStep)
    {passed : List Operation} (hguarded : LookupStep.Guarded passed steps)
    (hpassed : ∀ o ∈ passed, Journal.Passed j n h.accessorId o) :
    Journaled probing j
      (fun a' a j' => a' = a ∧ (a.toBool = true →
        ∀ o ∈ passed ++ LookupStep.operations steps, Journal.Passed j' n h.accessorId o))
      (w.watched.runSteps p (h.watched n) steps) (w.runSteps p h steps) := by
  induction steps generalizing j passed with
  | nil => exact .done ⟨rfl, fun _ o ho => hpassed o (by simpa [LookupStep.operations] using ho)⟩
  | cons step steps ih =>
    have hopen : step.operation? = some .actualVersion → Journal.Open j n h.accessorId :=
      fun hreads o ho => hpassed o (hguarded.1 hreads o ho)
    refine (w.runStep_journaled p h step hopen).bind fun a' a j' hgrown hmeets => ?_
    obtain ⟨rfl, hstep⟩ := hmeets
    cases a' with
    | error r => exact .done ⟨rfl, fun hok => by cases hok⟩
    | ok u =>
      have hmore : ∀ o ∈ passed ++ step.operation?.toList,
          Journal.Passed j' n h.accessorId o := by
        intro o ho
        rcases List.mem_append.1 ho with hold | hnew
        · exact (hpassed o hold).grow hgrown
        · exact hstep rfl o (Option.mem_toList.1 hnew)
      have happend : passed ++ LookupStep.operations (step :: steps) =
          passed ++ step.operation?.toList ++ LookupStep.operations steps := by
        rw [List.append_assoc]
        rfl
      rw [happend]
      exact ih hguarded.2 hmore

theorem createHandle_journaled (w : Worker β) (b : Binding) :
    Journaled probing j (fun made' made _ => ∃ n, made' = made.map (Handle.watched n))
      (w.watched.registry.createHandle b) (w.registry.createHandle b) := by
  rw [Registry.createHandle, Registry.createHandle, Registry.find, Registry.find]
  have hentry : w.watched.registry.registration? b.accessor.accessType =
      (w.registry.registration? b.accessor.accessType).map fun entry =>
        ⟨entry.accessType, entry.factory.watched, entry.cost⟩ := rfl
  rw [hentry]
  cases w.registry.registration? b.accessor.accessType with
  | none => exact .done ⟨0, rfl⟩
  | some entry =>
    refine .note rfl ((entry.factory.create_journaled b).bind fun made' made j' _ hmade => ?_)
    obtain ⟨n, rfl⟩ := hmade
    cases made with
    | error f => exact .done ⟨0, rfl⟩
    | ok h =>
      have hkind : (h.watched n).accessType = h.accessType := rfl
      simp only [Except.map, hkind]
      by_cases hsame : h.accessType = b.accessor.accessType
      · rw [if_pos hsame, if_pos hsame]
        exact .done ⟨n, rfl⟩
      · rw [if_neg hsame, if_neg hsame]
        exact .done ⟨0, rfl⟩

theorem tryPair_journaled (w : Worker β) (e : Expectation) (purpose : Purpose) (p : Pair) :
    Journaled probing j
      (fun made' made j' => ∃ n, made' = made.map (Handle.watched n) ∧
        ∀ h, made = .ok h → Journal.Open j' n h.accessorId)
      (w.watched.tryPair (sourceChecks e) purpose p) (w.tryPair (sourceChecks e) purpose p) := by
  obtain ⟨hguarded, hgates⟩ := LookupStep.guarded_sourceChecks e
  refine (w.createHandle_journaled (w.bindingOf purpose p)).bind fun made' made j' _ hmade => ?_
  obtain ⟨n, rfl⟩ := hmade
  cases made with
  | error f => exact .done ⟨0, rfl, fun h hok => by cases hok⟩
  | ok h =>
    refine (w.runSteps_journaled p h _ hguarded (by simp)).bind fun a' a j' _ hmeets => ?_
    obtain ⟨rfl, hpassed⟩ := hmeets
    cases a' with
    | error r => exact .done ⟨0, rfl, fun h hok => by cases hok⟩
    | ok u =>
      refine .done ⟨n, rfl, fun h' hok o ho => ?_⟩
      obtain rfl := Except.ok.inj hok
      exact hpassed rfl o (hgates o ho)

theorem visit_journaled (w : Worker β) (e : Expectation) (purpose : Purpose) (last : Rejection)
    (pairs : List Pair) :
    Journaled probing j
      (fun found' found j' => ∃ n, found' = found.map (Selection.watched n) ∧
        ∀ source, found = .ok source → Journal.Open j' n source.handle.accessorId)
      (w.watched.visit (sourceChecks e) purpose last pairs)
      (w.visit (sourceChecks e) purpose last pairs) := by
  induction pairs generalizing j last with
  | nil => exact .done ⟨0, rfl, fun source hok => by cases hok⟩
  | cons p pairs ih =>
    refine (w.tryPair_journaled e purpose p).bind fun made' made j' _ hmade => ?_
    obtain ⟨n, rfl, hopen⟩ := hmade
    cases made with
    | error r => exact .note rfl (ih r)
    | ok h =>
      refine .note rfl (.done ⟨n, rfl, fun source hok => ?_⟩)
      obtain rfl := Except.ok.inj hok
      exact hopen h rfl

theorem lookupSources_journaled (w : Worker β) (e : Expectation) :
    Journaled probing j
      (fun found' found j' => ∃ n, found' = found.map (Selection.watched n) ∧
        ∀ source, found = .ok source → Journal.Open j' n source.handle.accessorId)
      (w.watched.lookupSources e (sourceChecks e)) (w.lookupSources e (sourceChecks e)) := by
  refine ((w.visit_journaled e _ _ _).within _).bind fun found' found j' _ hfound => ?_
  cases hfound with
  | none => exact .done ⟨0, rfl, fun source hok => by cases hok⟩
  | some hmeets => exact .done hmeets

end Worker

namespace Handle

variable {h : Handle β}

theorem readVersion_journaled (c : Config) (hopen : Journal.Open j n h.accessorId) :
    Journaled probing j (fun a' a _ => a' = a) ((h.watched n).readVersion c) (h.readVersion c) := by
  have hread : Journal.Next probing j (.asked n h.accessorId .actualVersion) :=
    .asked nofun (fun _ => hopen) nofun
  refine ((h.call_journaled h.actualVersion hread).attempt c.remoteCheckTimeout
    "getPackageActualVersion").bind fun a' a j' _ hmeets => ?_
  obtain ⟨rfl, -⟩ := hmeets
  cases a' with
  | error f => exact .done rfl
  | ok v => exact .done rfl

/-- An open handle stays open for all readings of a check of stability. -/
theorem checkStability_journaled (c : Config) (today : Int)
    (hopen : Journal.Open j n h.accessorId) :
    Journaled probing j (fun a' a _ => a' = a) ((h.watched n).checkStability c today)
      (h.checkStability c today) := by
  rw [checkStability, checkStability]
  by_cases hzero : c.stabilityThreshold = 0
  · rw [if_pos hzero, if_pos hzero]
    exact .done rfl
  rw [if_neg hzero, if_neg hzero]
  refine (h.readVersion_journaled c hopen).bind fun a' a j' hgrown hsame => ?_
  obtain rfl := hsame
  cases a' with
  | error r => exact .done rfl
  | ok v =>
    by_cases hold : v.isOld c today = true
    · simp only [hold, if_true]
      exact .note rfl (.done rfl)
    · simp only [hold]
      refine .wait _ ((h.readVersion_journaled c (hopen.grow hgrown)).bind
        fun a' a j' _ hsame => ?_)
      obtain rfl := hsame
      cases a' with
      | error r => exact .done rfl
      | ok v' => exact .done rfl

theorem checkOpened_journaled (c : Config) (today : Int) (hprobing : probing n)
    (hopen : Journal.Open j n h.accessorId) :
    Journaled probing j (fun a' a _ => a' = a) ((h.watched n).checkOpened c today)
      (h.checkOpened c today) := by
  have hprobe : Journal.Next probing j (.asked n h.accessorId .probe) :=
    .asked nofun nofun fun _ => hprobing
  refine ((h.call_journaled h.probe hprobe).limited c.remoteCheckTimeout
    "tryPackageRead").bind fun a' a j' hgrown hsame => ?_
  obtain rfl := hsame
  match a' with
  | .error f => exact .done rfl
  | .ok (.error failure) => exact .done rfl
  | .ok (.ok ()) =>
    refine (h.checkStability_journaled c today (hopen.grow hgrown)).bind
      fun a' a j' _ hsame => ?_
    obtain rfl := hsame
    cases a' with
    | error r => exact .done rfl
    | ok u => exact .done rfl

end Handle

namespace Worker

def openFound (c : Config) (today : Int) : LookupResult β → Plan β Note Readiness
  | .error r => .done (.refused r)
  | .ok source => source.handle.checkOpened c today

theorem checkSource_eq_bind (w : Worker β) (e : Expectation) (today : Int) :
    w.checkSource e today =
      (w.lookupSources e (sourceChecks e)).bind (openFound w.config today) := by
  refine (w.checkSource_eq e today).trans (congrArg (Plan.bind _) (funext fun found => ?_))
  cases found with
  | error r => rfl
  | ok source => rfl

theorem openFound_journaled (c : Config) (today : Int) {found : LookupResult β}
    (hopen : ∀ source, found = .ok source → Journal.Open j n source.handle.accessorId) :
    Journaled (fun m => found.toBool = true ∧ m = n) j (fun a' a _ => a' = a)
      (openFound c today (found.map (Selection.watched n))) (openFound c today found) := by
  cases found with
  | error r => exact .done rfl
  | ok source => exact source.handle.checkOpened_journaled c today ⟨rfl, rfl⟩ (hopen source rfl)

/-- During a lookup no handle is opened, and after it the one that is found. -/
theorem checkSource_kept (w : Worker β) (e : Expectation) (today : Int) (s : β) :
    let course := (w.checkSource e today).run s
    let course' := (w.watched.checkSource e today).run (s, [])
    let lookup := (w.lookupSources e (sourceChecks e)).run s
    let lookup' := (w.watched.lookupSources e (sourceChecks e)).run (s, [])
    course'.answer = course.answer ∧ course'.elapsed = course.elapsed ∧
      course'.notes = course.notes ∧ ∃ winner,
        lookup'.answer = lookup.answer.map (Selection.watched winner) ∧
        Kept (fun n => lookup.answer.toBool = true ∧ n = winner) [] course'.state course.state
          course.notes := by
  intro course course' lookup lookup'
  have hstart : Kept (fun _ => False) [] (s, []) s [] := ⟨rfl, List.prefix_refl [], .nil, rfl⟩
  obtain ⟨helapsed, hnotes, hkept, winner, hanswer, hopen⟩ :=
    (w.lookupSources_journaled e).run hstart
  obtain ⟨helapsed', hnotes', hkept', hanswer'⟩ :=
    (openFound_journaled w.config today hopen).run (hkept.mono nofun)
  rw [← hanswer] at helapsed' hnotes' hkept' hanswer'
  simp only [course, course', checkSource_eq_bind, run_bind]
  exact ⟨hanswer', congrArg₂ (· + ·) helapsed helapsed', congrArg₂ (· ++ ·) hnotes hnotes',
    winner, hanswer, hkept'⟩

/-- Wherever the version of a handle is read, this handle has passed its three checks before.  A
package is opened only on the handle that the lookup has found. -/
theorem reads_gated (w : Worker β) (e : Expectation) (today : Int) (s : β) :
    let course := (w.checkSource e today).run s
    let course' := (w.watched.checkSource e today).run (s, [])
    let lookup := (w.lookupSources e (sourceChecks e)).run s
    let lookup' := (w.watched.lookupSources e (sourceChecks e)).run (s, [])
    let journal := course'.state.2
    course' = ⟨course.answer, course.elapsed, (course.state, journal), course.notes⟩ ∧
      journal.filterMap Entry.call? = course.calls ∧
      journal.filterMap Entry.made? = List.range (journal.filterMap Entry.made?).length ∧
      (∀ before n id after, journal = before ++ .asked n id .actualVersion :: after →
        ∀ o ∈ [Operation.checkBasic, .checkRead, .checkPackageRead],
          .asked n id o ∈ before ∧ .passed n o ∈ before) ∧
      (∀ r, lookup.answer = .error r → ∀ n id, .asked n id .probe ∉ journal) ∧
      ∀ source, lookup.answer = .ok source → ∃ winner,
        lookup'.answer = .ok (source.watched winner) ∧
        ∀ n id, .asked n id .probe ∈ journal → n = winner := by
  intro course course' lookup lookup' journal
  obtain ⟨hanswer, helapsed, hnotes, winner, hfound, hkept⟩ := w.checkSource_kept e today s
  have hsound : Journal.Sound (fun n => lookup.answer.toBool = true ∧ n = winner) journal :=
    hkept.sound
  have hstate : course'.state = (course.state, journal) := Prod.ext hkept.state rfl
  have hcourse : course' =
      ⟨course.answer, course.elapsed, (course.state, journal), course.notes⟩ := by
    rw [← hanswer, ← helapsed, ← hstate, ← hnotes]
  refine ⟨hcourse, hkept.tells, hsound.numbered, ?_, ?_, ?_⟩
  · intro before n id after hsplit
    rw [hsplit] at hsound
    exact hsound.gated
  · intro r lost n id hmem
    have hfound := (hsound.probed hmem).1
    rw [lost] at hfound
    cases hfound
  · intro source found
    refine ⟨winner, ?_, fun n id hmem => (hsound.probed hmem).2⟩
    rw [show lookup'.answer = _ from hfound]
    exact congrArg _ found

/-- The version is read by the lookup first, and after the probe once more for an old file. -/
example : (((reporting fun _ => .file 100 0).watched.checkSource .ofHundred
    (24 * 60 * 60 * 1000)).run (0, [])).state.2 =
      [.asked 0 "source" .create, .asked 0 "source" .checkBasic, .passed 0 .checkBasic,
        .asked 0 "source" .checkRead, .passed 0 .checkRead,
        .asked 0 "source" .checkPackageRead, .passed 0 .checkPackageRead,
        .asked 0 "source" .actualVersion, .passed 0 .actualVersion,
        .asked 0 "source" .probe, .passed 0 .probe,
        .asked 0 "source" .actualVersion, .passed 0 .actualVersion] := by
  decide +kernel

end Worker
end PackageHandling
