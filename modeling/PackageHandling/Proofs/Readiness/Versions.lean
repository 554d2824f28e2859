import PackageHandling.Proofs.Readiness.Recording
import PackageHandling.Proofs.Version.Comparison

/-!
# The versions of a source that is ready

A source that is found ready has been read in the version that is asked for by the lookup, and
then once or twice more to see that it is stable.  `ready_reads` says how these readings hang
together: the later ones are compared with each other, and not with what is asked for.
-/

namespace PackageHandling

open Plan

variable {β : Type}

/-- What a source has shown that is found to be stable: one version that is old, or two versions
that do not differ. -/
inductive Steady (c : Config) (today : Int) (accessorId : String) : List Reading → Prop
  | old {v : PackageVersion} (hold : v.isOld c today = true) :
      Steady c today accessorId [⟨accessorId, v⟩]
  | same {v v' : PackageVersion} (hnew : v.isOld c today = false)
      (hsame : v.table.compare v'.table = .ok ()) :
      Steady c today accessorId [⟨accessorId, v⟩, ⟨accessorId, v'⟩]

/-- The last version that a stable source has shown is accepted if and only if the first is. -/
theorem Steady.accepts_iff {c : Config} {today : Int} {accessorId : String} {shown : List Reading}
    (h : Steady c today accessorId shown) : ∃ first last,
      shown.head? = some ⟨accessorId, first⟩ ∧ shown.getLast? = some ⟨accessorId, last⟩ ∧
        ∀ expected : ExpectedVersion,
          expected.accepts first = .ok () ↔ expected.accepts last = .ok () := by
  cases h with
  | @old v hold => exact ⟨v, v, rfl, rfl, fun _ => Iff.rfl⟩
  | @same v v' hnew hsame => exact ⟨v, v', rfl, rfl, PackageVersion.accepts_congr hsame⟩

namespace Handle

theorem checkStability_recording (h : Handle β) (c : Config) (today : Int)
    (hthreshold : c.stabilityThreshold ≠ 0) :
    Records (h.recording.checkStability c today) (h.checkStability c today)
      fun answer added => answer = .ok () → Steady c today h.accessorId added := by
  rw [checkStability, checkStability, if_neg hthreshold, if_neg hthreshold]
  refine (h.readVersion_recording c).bind fun a added hadded => ?_
  cases a with
  | error r => exact .done fun hanswer => by cases hanswer
  | ok v =>
    obtain rfl := hadded v rfl
    simp only [id]
    by_cases hold : v.isOld c today = true
    · rw [if_pos hold, if_pos hold]
      exact .note _ (.done fun _ => .old hold)
    · rw [if_neg hold, if_neg hold]
      refine .wait _ ((h.readVersion_recording c).bind fun a added hadded => ?_)
      cases a with
      | error r => exact .done fun hanswer => by cases hanswer
      | ok v' =>
        obtain rfl := hadded v' rfl
        refine .done fun hanswer => .same (Bool.eq_false_iff.2 hold) ?_
        cases hcompare : v.table.compare v'.table with
        | ok u => rfl
        | error r => rw [hcompare] at hanswer; cases hanswer

def checkOpened (h : Handle β) (c : Config) (today : Int) : Plan β Note Readiness := do
  match ← h.tryRead.limited c.remoteCheckTimeout "tryPackageRead" with
  | .error f => return .refused f.rejection
  | .ok (.error failure) =>
    return .notReady failure.rejection (some failure.packageExists) failure.sourceIsPlaceholder
  | .ok (.ok ()) =>
    match ← h.checkStability c today with
    | .error r => return .notReady r (some true) false
    | .ok () => return .ready (some true)

theorem checkOpened_recording (h : Handle β) (c : Config) (today : Int)
    (hthreshold : c.stabilityThreshold ≠ 0) :
    Records (h.recording.checkOpened c today) (h.checkOpened c today)
      fun answer added => answer.isReady = true → Steady c today h.accessorId added := by
  rw [checkOpened, checkOpened, tryRead_recording]
  refine (limited_beside_extends h.tryRead _ _).bind fun a added hadded => ?_
  obtain rfl := hadded
  match a with
  | .error f => exact .done fun hready => by cases hready
  | .ok (.error failure) => exact .done fun hready => by cases hready
  | .ok (.ok ()) =>
    refine (h.checkStability_recording c today hthreshold).bind fun a added hadded => ?_
    cases a with
    | error r => exact .done fun hready => by cases hready
    | ok u => exact .done fun _ => by simpa using hadded rfl

end Handle

def Handle.reporting (versions : Nat → PackageVersion) : Handle Nat where
  accessType := .localFolder
  accessorId := "source"
  basicCheck n := (.ok (), n)
  readCheck n := (.ok (), n)
  writeCheck n := (.ok (), n)
  packageReadCheck := .done (.ok ())
  probe := .done (.ok ())
  containerWriteCheck := .done (.ok ())
  actualVersion := .atomically fun n => (.ok (versions n), n + 1)
  remove _ := .done (.ok ())
  fetch := .done (.ok none)
  update _ := .done (.ok ())
  forget := .done (.ok ())

def Worker.reporting (versions : Nat → PackageVersion) : Worker Nat where
  id := "worker"
  location := ⟨none, []⟩
  config := Config.default fun _ => none
  registry := Registry.empty.register .localFolder
    { create := fun _ n => (.ok (.reporting versions), n) }

def Expectation.ofHundred : Expectation where
  id := "copy"
  type := .fileCopy
  managerId := "manager"
  start := {
    sources := [⟨"container", "Container",
      Ordered.ofList [("source", { connection := .localFolder none none none })]⟩]
    version := some (.file (some 100) none) }

namespace Worker

theorem checkSource_eq (w : Worker β) (e : Expectation) (today : Int) :
    w.checkSource e today = (w.lookupSources e (sourceChecks e)).bind fun
      | .error r => .done (.refused r)
      | .ok source => source.handle.checkOpened w.config today := by
  rfl

theorem checkSource_recording (w : Worker β) (e : Expectation) (today : Int) (s : β)
    (l : List Reading) (hthreshold : w.config.stabilityThreshold ≠ 0) :
    let course := (w.checkSource e today).run s
    let course' := (w.recording.checkSource e today).run (s, l)
    course'.answer = course.answer ∧ course'.elapsed = course.elapsed ∧
      (course.answer.isReady = true → ∃ (source : Handle β) (lost found shown : List Reading),
        course'.state = (course.state, l ++ lost ++ found ++ shown) ∧
          List.Forall₂ (Reading.Meets source) e.start.version.toList found ∧
          Steady w.config today source.accessorId shown) := by
  obtain ⟨hanswer, helapsed, hcourse⟩ := w.lookup_recording e.sources (sourceChecks e)
    (purposeOf e "source") s l
  have hsteps : (sourceChecks e).steps.filterMap LookupStep.version? = e.start.version.toList := by
    rw [sourceChecks]
    cases e.start.version <;> rfl
  simp only [checkSource_eq, lookupSources, run_bind, hanswer, helapsed]
  cases hplain : ((w.lookup e.sources (sourceChecks e) (purposeOf e "source")).run s).answer with
  | error r => exact ⟨rfl, rfl, fun h => by cases h⟩
  | ok source =>
    obtain ⟨lost, found, hrun, hfound⟩ := hcourse source hplain
    obtain ⟨shown, hopened, hshown⟩ := source.handle.checkOpened_recording w.config today
      hthreshold ((w.lookup e.sources (sourceChecks e) (purposeOf e "source")).run s).state
      (l ++ (lost ++ found))
    have hconfig : w.recording.config = w.config := rfl
    simp only [hrun, Except.map, Course.extended, Selection.recording, hconfig, hopened, id_eq]
    exact ⟨trivial, trivial, fun hready => ⟨source.handle, lost, found, shown,
      by simp only [List.append_assoc], hsteps ▸ hfound, hshown hready⟩⟩

/-- A source that is ready was read in a version that is accepted, by the lookup, and after that
once, if it is old, or else twice without a difference. -/
theorem ready_reads (w : Worker β) (e : Expectation) (today : Int) (s : β)
    {expected : ExpectedVersion} (hexpected : e.start.version = some expected)
    (hthreshold : w.config.stabilityThreshold ≠ 0)
    (hready : ((w.checkSource e today).run s).answer.isReady = true) :
    ((w.recording.checkSource e today).run (s, [])).answer =
        ((w.checkSource e today).run s).answer ∧
      ∃ (source : String) (lost shown : List Reading) (found first last : PackageVersion),
        ((w.recording.checkSource e today).run (s, [])).state.2 =
            lost ++ ⟨source, found⟩ :: shown ∧
          expected.accepts found = .ok () ∧ Steady w.config today source shown ∧
          shown.head? = some ⟨source, first⟩ ∧ shown.getLast? = some ⟨source, last⟩ ∧
          (expected.accepts last = .ok () ↔ expected.accepts first = .ok ()) := by
  obtain ⟨hanswer, -, hreads⟩ := w.checkSource_recording e today s [] hthreshold
  obtain ⟨source, lost, found, shown, hstate, hfound, hsteady⟩ := hreads hready
  obtain ⟨first, last, hfirst, hlast, hsame⟩ := hsteady.accepts_iff
  rw [hexpected, Option.toList_some, List.forall₂_cons_left_iff] at hfound
  obtain ⟨⟨accessorId, version⟩, rest, ⟨rfl, haccepts⟩, hrest, rfl⟩ := hfound
  obtain rfl := List.forall₂_nil_left_iff.1 hrest
  refine ⟨hanswer, source.accessorId, lost, shown, version, first, last, ?_, haccepts, hsteady,
    hfirst, hlast, (hsame expected).symm⟩
  simp [hstate]

/-- A file that stays as it is. -/
theorem ready_reads_unchanged :
    let w := reporting fun _ => .file 100 0
    let e := Expectation.ofHundred
    e.start.version = some (.file (some 100) none) ∧ w.config.stabilityThreshold ≠ 0 ∧
      ((w.checkSource e 0).run 0).answer.isReady = true ∧
      ∃ r ∈ ((w.recording.checkSource e 0).run (0, [])).state.2,
        (ExpectedVersion.file (some 100) none).accepts r.version = .ok () := by
  intro w e
  have hthreshold : w.config.stabilityThreshold ≠ 0 := by decide
  have hready : ((w.checkSource e 0).run 0).answer.isReady = true := by decide +kernel
  obtain ⟨-, source, lost, shown, found, -, -, hreadings, haccepts, -⟩ :=
    ready_reads w e 0 0 rfl hthreshold hready
  refine ⟨rfl, hthreshold, hready, ⟨source, found⟩, ?_, haccepts⟩
  rw [hreadings]
  exact List.mem_append_right _ List.mem_cons_self

/-- A file that grows right after the lookup is ready, although the version that is read last is not
accepted. -/
theorem ready_after_growth :
    let w := reporting fun n => .file (if n = 0 then 100 else 200) 0
    let e := Expectation.ofHundred
    let expected := ExpectedVersion.file (some 100) none
    let later := 24 * 60 * 60 * 1000
    e.start.version = some expected ∧ w.config.stabilityThreshold ≠ 0 ∧
      ((w.checkSource e 0).run 0).answer = .ready (some true) ∧
      ((w.recording.checkSource e 0).run (0, [])).state.2 =
        [⟨"source", .file 100 0⟩, ⟨"source", .file 200 0⟩, ⟨"source", .file 200 0⟩] ∧
      ((w.checkSource e later).run 0).answer = .ready (some true) ∧
      ((w.recording.checkSource e later).run (0, [])).state.2 =
        [⟨"source", .file 100 0⟩, ⟨"source", .file 200 0⟩] ∧
      expected.accepts (.file 200 0) ≠ .ok () := by
  decide +kernel

end Worker
end PackageHandling
