import Mathlib.Data.List.Forall2
import PackageHandling.Readiness
import PackageHandling.Proofs.Lookup.Answer
import PackageHandling.Proofs.Plan.Recording

/-!
# The versions that are read

A worker can be run so that every version that one of its handles reports in time is written down.
Its lookup finds, rejects and waits as it would without that: `lookup_recording`.
-/

namespace PackageHandling

open Plan

variable {β : Type}

structure Reading where
  accessorId : String
  version : PackageVersion
  deriving DecidableEq

def Reading.ofAnswer (accessorId : String) : Except Failure PackageVersion → List Reading
  | .ok v => [⟨accessorId, v⟩]
  | .error _ => []

/-- A handle whose reports are written down. -/
def Handle.recording (h : Handle β) : Handle (β × List Reading) where
  accessType := h.accessType
  accessorId := h.accessorId
  basicCheck s := ((h.basicCheck s.1).1, (h.basicCheck s.1).2, s.2)
  readCheck s := ((h.readCheck s.1).1, (h.readCheck s.1).2, s.2)
  writeCheck s := ((h.writeCheck s.1).1, (h.writeCheck s.1).2, s.2)
  packageReadCheck := h.packageReadCheck.beside
  probe := h.probe.beside
  containerWriteCheck := h.containerWriteCheck.beside
  actualVersion := h.actualVersion.recorded (Reading.ofAnswer h.accessorId)
  remove reason := (h.remove reason).beside
  fetch := h.fetch.beside
  update record := (h.update record).beside
  forget := h.forget.beside

def Factory.recording (f : Factory β) : Factory (β × List Reading) where
  supports := f.supports
  create b s := ((f.create b s.1).1.map Handle.recording, (f.create b s.1).2, s.2)

def Registry.recording (r : Registry β) : Registry (β × List Reading) where
  registration? t := (r.registration? t).map fun entry =>
    ⟨entry.accessType, entry.factory.recording, entry.cost⟩

def Worker.recording (w : Worker β) : Worker (β × List Reading) where
  id := w.id
  location := w.location
  config := w.config
  registry := w.registry.recording

def Selection.recording (selected : Selection β) : Selection (β × List Reading) :=
  ⟨selected.pair, selected.handle.recording⟩

namespace Handle

theorem checkBasic_recording (h : Handle β) :
    Records h.recording.checkBasic h.checkBasic fun _ added => added = [] :=
  .note _ (atomically_extends h.basicCheck)

theorem checkRead_recording (h : Handle β) :
    Records h.recording.checkRead h.checkRead fun _ added => added = [] :=
  .note _ (atomically_extends h.readCheck)

theorem checkWrite_recording (h : Handle β) :
    Records h.recording.checkWrite h.checkWrite fun _ added => added = [] :=
  .note _ (atomically_extends h.writeCheck)

theorem call_beside {α : Type} (h : Handle β) (o : Operation) (p : Backend β α) :
    h.recording.call o p.beside = (h.call o p).beside :=
  congrArg (note _) (mapNotes_beside _ p)

theorem checkPackageRead_recording (h : Handle β) :
    h.recording.checkPackageRead = h.checkPackageRead.beside :=
  h.call_beside .checkPackageRead h.packageReadCheck

theorem checkContainerWrite_recording (h : Handle β) :
    h.recording.checkContainerWrite = h.checkContainerWrite.beside :=
  h.call_beside .checkContainerWrite h.containerWriteCheck

theorem tryRead_recording (h : Handle β) : h.recording.tryRead = h.tryRead.beside :=
  h.call_beside .probe h.probe

theorem getVersion_recording (h : Handle β) :
    h.recording.getVersion = h.getVersion.recorded (Reading.ofAnswer h.accessorId) :=
  congrArg (note _) (mapNotes_recorded _ _ h.actualVersion)

theorem attemptVersion_recording (h : Handle β) (budget : Nat) (label : String) :
    Records (h.recording.getVersion.attempt budget label) (h.getVersion.attempt budget label)
      fun a added => added = Reading.ofAnswer h.accessorId a := by
  rw [getVersion_recording]
  exact attempt_recorded_extends (fun f => rfl) h.getVersion budget label

theorem readVersion_recording (h : Handle β) (c : Config) :
    Records (h.recording.readVersion c) (h.readVersion c) fun a added =>
      ∀ v, a = .ok v → added = [⟨h.accessorId, v⟩] := by
  refine (h.attemptVersion_recording _ _).bind fun a added hadded => ?_
  cases a with
  | error f => exact .done fun v hv => by cases hv
  | ok v' =>
    refine .done fun v hv => ?_
    obtain rfl := Except.ok.inj hv
    rw [hadded]
    rfl

end Handle

def LookupStep.version? : LookupStep → Option ExpectedVersion
  | version expected => some expected
  | _ => none

def Reading.Meets (h : Handle β) (expected : ExpectedVersion) (r : Reading) : Prop :=
  r.accessorId = h.accessorId ∧ expected.accepts r.version = .ok ()

namespace Worker

theorem runStep_recording (w : Worker β) (p : Pair) (h : Handle β) (step : LookupStep) :
    Records (w.recording.runStep p h.recording step) (w.runStep p h step)
      fun answer added => answer = .ok () →
        List.Forall₂ (Reading.Meets h) step.version?.toList added := by
  have hnothing : ∀ {step : LookupStep} (answer : Check) (added : List Reading), added = [] →
      step.version? = none → answer = .ok () →
        List.Forall₂ (Reading.Meets h) step.version?.toList added := by
    rintro step answer added rfl hnone -
    rw [hnone]
    exact .nil
  cases step with
  | basic => exact h.checkBasic_recording.mono fun a l hl => hnothing a l hl rfl
  | read => exact h.checkRead_recording.mono fun a l hl => hnothing a l hl rfl
  | write => exact h.checkWrite_recording.mono fun a l hl => hnothing a l hl rfl
  | packageRead =>
    refine Extends.mono ?_ fun a l hl => hnothing a l hl rfl
    rw [runStep, h.checkPackageRead_recording]
    exact check_beside_extends h.checkPackageRead _ _
  | containerWrite =>
    refine Extends.mono ?_ fun a l hl => hnothing a l hl rfl
    rw [runStep, h.checkContainerWrite_recording]
    exact check_beside_extends h.checkContainerWrite _ _
  | custom check => exact .done fun _ => .nil
  | version expected =>
    refine (h.attemptVersion_recording _ _).bind fun a added hadded => ?_
    cases a with
    | error f => exact .done fun hanswer => by cases hanswer
    | ok v => exact .done fun hanswer => by rw [hadded]; exact .cons ⟨rfl, hanswer⟩ .nil

theorem runSteps_recording (w : Worker β) (p : Pair) (h : Handle β) (steps : List LookupStep) :
    Records (w.recording.runSteps p h.recording steps) (w.runSteps p h steps)
      fun answer added => answer = .ok () →
        List.Forall₂ (Reading.Meets h) (steps.filterMap LookupStep.version?) added := by
  induction steps with
  | nil => exact .done fun _ => .nil
  | cons step steps ih =>
    refine (w.runStep_recording p h step).bind fun a added hadded => ?_
    cases a with
    | error r => exact .done fun hanswer => by cases hanswer
    | ok u =>
      refine ih.mono fun answer rest hrest hanswer => ?_
      have happend := List.rel_append (hadded rfl) (hrest hanswer)
      cases hversion : step.version? with
      | none => simpa [hversion] using happend
      | some expected => simpa [hversion] using happend

theorem createHandle_recording (w : Worker β) (b : Binding) :
    Extends (Except.map Handle.recording) (w.recording.registry.createHandle b)
      (w.registry.createHandle b) fun _ added => added = [] := by
  rw [Registry.createHandle, Registry.createHandle, Registry.find, Registry.find]
  have hentry : w.recording.registry.registration? b.accessor.accessType =
      (w.registry.registration? b.accessor.accessType).map fun entry =>
        ⟨entry.accessType, entry.factory.recording, entry.cost⟩ := rfl
  rw [hentry]
  cases w.registry.registration? b.accessor.accessType with
  | none => exact .error rfl
  | some entry =>
    refine .note _ (.note _ fun s l => ⟨[], ?_, rfl⟩)
    simp only [atomically, bind_eq, Plan.bind, run, Factory.recording]
    cases (entry.factory.create b s).1 with
    | error f => simp [Except.map, run, Course.extended]
    | ok h =>
      by_cases hkind : h.accessType = b.accessor.accessType
      · simp [Except.map, run, Course.extended, Handle.recording, hkind]
      · simp [Except.map, run, Course.extended, Handle.recording, hkind]

theorem tryPair_recording (w : Worker β) (checks : LookupChecks) (purpose : Purpose) (p : Pair) :
    Extends (Except.map Handle.recording) (w.recording.tryPair checks purpose p)
      (w.tryPair checks purpose p) fun answer added => ∀ h, answer = .ok h →
        List.Forall₂ (Reading.Meets h) (checks.steps.filterMap LookupStep.version?) added := by
  refine (w.createHandle_recording (w.bindingOf purpose p)).bind fun a added hadded => ?_
  obtain rfl := hadded
  cases a with
  | error f => exact .error fun h hanswer => by cases hanswer
  | ok h =>
    refine (w.runSteps_recording p h checks.steps).bind fun a added hadded => ?_
    cases a with
    | error r => exact .error fun h hanswer => by cases hanswer
    | ok u =>
      refine .ok fun h' hanswer => ?_
      obtain rfl := Except.ok.inj hanswer
      simpa using hadded rfl

theorem visit_recording (w : Worker β) (checks : LookupChecks) (purpose : Purpose)
    (last : Rejection) (pairs : List Pair) :
    Extends (Except.map Selection.recording) (w.recording.visit checks purpose last pairs)
      (w.visit checks purpose last pairs) fun answer added => ∀ selected, answer = .ok selected →
        ∃ lost found, added = lost ++ found ∧ List.Forall₂ (Reading.Meets selected.handle)
          (checks.steps.filterMap LookupStep.version?) found := by
  induction pairs generalizing last with
  | nil => exact .error fun selected hanswer => by cases hanswer
  | cons p pairs ih =>
    refine (w.tryPair_recording checks purpose p).bind fun a added hadded => ?_
    cases a with
    | ok h =>
      refine .note _ (.ok (c := Selection.mk p h) fun selected hanswer => ?_)
      obtain rfl := Except.ok.inj hanswer
      exact ⟨[], added, by simp, hadded h rfl⟩
    | error r =>
      refine .note _ ((ih r).mono fun answer rest hrest selected hanswer => ?_)
      obtain ⟨lost, found, rfl, hfound⟩ := hrest selected hanswer
      exact ⟨added ++ lost, found, by simp, hfound⟩

/-- The lookup of a worker that writes down what is read answers the same after the same time, and
what it finds has been read in the version that is asked for. -/
theorem lookup_recording (w : Worker β) (containers : List PackageContainer)
    (checks : LookupChecks) (purpose : Purpose) (s : β) (l : List Reading) :
    let course := (w.lookup containers checks purpose).run s
    let course' := (w.recording.lookup containers checks purpose).run (s, l)
    course'.answer = course.answer.map Selection.recording ∧ course'.elapsed = course.elapsed ∧
      ∀ selected, course.answer = .ok selected → ∃ lost found,
        course' = course.extended (Except.map Selection.recording) (l ++ (lost ++ found)) ∧
          List.Forall₂ (Reading.Meets selected.handle)
            (checks.steps.filterMap LookupStep.version?) found := by
  obtain ⟨hanswer, helapsed, hcourse⟩ := (w.visit_recording checks purpose (noAccessors containers)
    (Pair.prioritized containers)).run_within w.config.innerActionTimeout s l
  simp only [lookup, visitAll, bind_eq, run_bind]
  have hconfig : w.recording.config = w.config := rfl
  rw [hconfig, hanswer, helapsed]
  cases hplain : (((w.visit checks purpose (noAccessors containers)
      (Pair.prioritized containers)).within w.config.innerActionTimeout).run s).answer with
  | none => exact ⟨rfl, rfl, fun selected h => by cases h⟩
  | some result =>
    obtain ⟨added, hrun, hadds⟩ := hcourse result hplain
    refine ⟨rfl, rfl, fun selected h => ?_⟩
    obtain ⟨lost, found, rfl, hfound⟩ := hadds selected h
    refine ⟨lost, found, ?_, hfound⟩
    rw [hrun]
    rfl

end Worker

end PackageHandling
