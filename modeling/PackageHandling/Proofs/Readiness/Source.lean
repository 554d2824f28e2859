import PackageHandling.Proofs.Readiness.Stability
import PackageHandling.Proofs.Readiness.Versions

/-!
# When a source is ready

A source is looked up, its package is opened, and it is seen to be stable.  The first of these
stages that fails gives the answer, and nothing is called after it: the main statement is
`source_decided`.
-/

namespace PackageHandling
namespace Reference

variable {β : Type}

section

variable (w : Worker β) (e : Expectation) (today : Int) (s : β) (source : Selection β)

/-- The lookup of a source that can be read, and whose package can be read, in the version that is
asked for. -/
def lookedUp : Plan.Report β (LookupResult β) :=
  (w.lookupSources e { read := true, packageRead := true, version := e.start.version }).report s

/-- What comes of opening the package of the source that is found, however long that takes. -/
def probed : Plan.Course β String (Except ProbeFailure Unit) :=
  source.handle.probe.run (lookedUp w e s).state

def OpenedInTime : Prop := (probed w e s source).elapsed ≤ w.config.remoteCheckTimeout

def settled : Plan.Report β Check :=
  (source.handle.checkStability w.config today).report (probed w e s source).state

def callsToProbe : List HandleCall :=
  (lookedUp w e s).calls ++ [⟨(lookedUp w e s).elapsed, source.handle.accessorId, .probe⟩]

def openTime : Nat := (lookedUp w e s).elapsed + (probed w e s source).elapsed

def callsToEnd : List HandleCall :=
  callsToProbe w e s source ++
    (settled w e today s source).calls.map (HandleCall.later (openTime w e s source))

/-- After the lookup the calls go on, all of them on the handle that it has found: one that opens
the package, and so many readings of the version. -/
def GoesOn (readings : Nat) (calls : List HandleCall) : Prop :=
  ∃ later, calls = (lookedUp w e s).calls ++ later ∧
    later.map HandleCall.name = (source.handle.accessorId, .probe) ::
      List.replicate readings (source.handle.accessorId, .actualVersion)

/-- How a check of a source goes, by the stage that fails first. -/
inductive SourceCheck : Plan.Report β Readiness → Prop
  | unfound {r : Rejection} (lost : (lookedUp w e s).answer = .error r) :
    SourceCheck ⟨.notReady r none false, (lookedUp w e s).elapsed, (lookedUp w e s).state,
      (lookedUp w e s).calls⟩
  | late {source : Selection β} (found : (lookedUp w e s).answer = .ok source)
      (long : ¬ OpenedInTime w e s source) :
    SourceCheck ⟨.notReady ⟨⟨"Operation timed out",
        timeoutText w.config.remoteCheckTimeout "tryPackageRead"⟩, false⟩ none false,
      (lookedUp w e s).elapsed + w.config.remoteCheckTimeout,
      source.handle.probe.abandonedAt w.config.remoteCheckTimeout (lookedUp w e s).state,
      callsToProbe w e s source⟩
  | shut {source : Selection β} {failure : ProbeFailure}
      (found : (lookedUp w e s).answer = .ok source) (short : OpenedInTime w e s source)
      (refused : (probed w e s source).answer = .error failure) :
    SourceCheck ⟨.notReady failure.rejection (some failure.packageExists)
        failure.sourceIsPlaceholder,
      openTime w e s source, (probed w e s source).state, callsToProbe w e s source⟩
  | unstable {source : Selection β} {r : Rejection}
      (found : (lookedUp w e s).answer = .ok source) (short : OpenedInTime w e s source)
      (opened : (probed w e s source).answer = .ok ())
      (unsettled : (settled w e today s source).answer = .error r) :
    SourceCheck ⟨.notReady r (some true) false,
      openTime w e s source + (settled w e today s source).elapsed,
      (settled w e today s source).state, callsToEnd w e today s source⟩
  | ready {source : Selection β} (found : (lookedUp w e s).answer = .ok source)
      (short : OpenedInTime w e s source) (opened : (probed w e s source).answer = .ok ())
      (steady : (settled w e today s source).answer = .ok ()) :
    SourceCheck ⟨.ready (some true),
      openTime w e s source + (settled w e today s source).elapsed,
      (settled w e today s source).state, callsToEnd w e today s source⟩

end

variable {w : Worker β} {e : Expectation} {today : Int} {s : β} {source : Selection β}

theorem exists_sourceCheck (w : Worker β) (e : Expectation) (today : Int) (s : β) :
    ∃ report, SourceCheck w e today s report := by
  cases found : (lookedUp w e s).answer with
  | error r => exact ⟨_, .unfound found⟩
  | ok source =>
    by_cases short : OpenedInTime w e s source
    · cases opened : (probed w e s source).answer with
      | error failure => exact ⟨_, .shut found short opened⟩
      | ok u =>
        cases steady : (settled w e today s source).answer with
        | error r => exact ⟨_, .unstable found short opened steady⟩
        | ok u => exact ⟨_, .ready found short opened steady⟩
    · exact ⟨_, .late found short⟩

/-- A check goes on with the handle that the lookup has found. -/
theorem report_checkSource (found : (lookedUp w e s).answer = .ok source) :
    (w.checkSource e today).report s =
      let opening := (source.handle.checkOpened w.config today).report (lookedUp w e s).state
      ⟨opening.answer, (lookedUp w e s).elapsed + opening.elapsed, opening.state,
        (lookedUp w e s).calls ++
          opening.calls.map (HandleCall.later (lookedUp w e s).elapsed)⟩ := by
  have hlookup : (w.lookupSources e (sourceChecks e)).report s = lookedUp w e s := rfl
  rw [w.checkSource_eq, Plan.report_bind, hlookup]
  simp only [found]

def verdictOf : Check → Readiness
  | .error r => .notReady r (some true) false
  | .ok () => .ready (some true)

theorem checkOpened_eq (h : Handle β) (c : Config) (today : Int) :
    h.checkOpened c today = (h.tryRead.limited c.remoteCheckTimeout "tryPackageRead").bind fun
      | .error f => .done (.refused f.rejection)
      | .ok (.error failure) =>
        .done (.notReady failure.rejection (some failure.packageExists) failure.sourceIsPlaceholder)
      | .ok (.ok ()) => (h.checkStability c today).bind fun stable => .done (verdictOf stable) := by
  refine congrArg (Plan.bind _) (funext fun opened => ?_)
  match opened with
  | .error f => rfl
  | .ok (.error failure) => rfl
  | .ok (.ok ()) =>
    refine congrArg (Plan.bind _) (funext fun stable => ?_)
    cases stable with
    | error r => rfl
    | ok u => rfl

theorem report_of_opened (found : (lookedUp w e s).answer = .ok source)
    (short : OpenedInTime w e s source) (opened : (probed w e s source).answer = .ok ()) :
    (w.checkSource e today).report s =
      ⟨verdictOf (settled w e today s source).answer,
        openTime w e s source + (settled w e today s source).elapsed,
        (settled w e today s source).state, callsToEnd w e today s source⟩ := by
  have hanswer : (source.handle.probe.run (lookedUp w e s).state).answer = .ok () := opened
  have hprobe := source.handle.report_limited_of_le .probe "tryPackageRead" short
  have hopening : (source.handle.checkOpened w.config today).report (lookedUp w e s).state =
      ⟨verdictOf (settled w e today s source).answer,
        (probed w e s source).elapsed + (settled w e today s source).elapsed,
        (settled w e today s source).state,
        ⟨0, source.handle.accessorId, .probe⟩ :: (settled w e today s source).calls.map
          (HandleCall.later (probed w e s source).elapsed)⟩ := by
    rw [checkOpened_eq, Plan.report_bind, Handle.tryRead, hprobe, hanswer]
    simp only [Plan.report_bind, Plan.report_done, List.map_nil, List.append_nil, Nat.add_zero]
    rfl
  have htimes : HandleCall.later (lookedUp w e s).elapsed ∘
      HandleCall.later (probed w e s source).elapsed = HandleCall.later (openTime w e s source) :=
    funext (HandleCall.later_later _ _)
  have hcalls : callsToEnd w e today s source = (lookedUp w e s).calls ++
      (⟨0, source.handle.accessorId, .probe⟩ :: (settled w e today s source).calls.map
        (HandleCall.later (probed w e s source).elapsed)).map
          (HandleCall.later (lookedUp w e s).elapsed) := by
    rw [List.map_cons, List.map_map, htimes, callsToEnd, callsToProbe, List.append_assoc]
    rfl
  rw [report_checkSource found, hopening, hcalls, openTime, Nat.add_assoc]

theorem SourceCheck.eq_report {report : Plan.Report β Readiness}
    (hcase : SourceCheck w e today s report) : report = (w.checkSource e today).report s := by
  cases hcase with
  | unfound lost =>
    have hlookup : (w.lookupSources e (sourceChecks e)).report s = lookedUp w e s := rfl
    rw [w.checkSource_eq, Plan.report_bind, hlookup]
    simp only [lost, Plan.report_done, List.map_nil, List.append_nil, Nat.add_zero]
    rfl
  | @late source found long =>
    have hprobe := source.handle.report_limited_of_gt .probe "tryPackageRead" long
    have late := rejection_elapsed "tryPackageRead" w.config.remoteCheckTimeout
    rw [report_checkSource found, checkOpened_eq, Plan.report_bind, Handle.tryRead, hprobe]
    simp only [Plan.report_done, late]
    rfl
  | @shut source failure found short refused =>
    have hprobe := source.handle.report_limited_of_le .probe "tryPackageRead" short
    have hanswer : (source.handle.probe.run (lookedUp w e s).state).answer = .error failure :=
      refused
    rw [report_checkSource found, checkOpened_eq, Plan.report_bind, Handle.tryRead, hprobe,
      hanswer]
    rfl
  | unstable found short opened unsettled =>
    rw [report_of_opened found short opened, unsettled]
    rfl
  | ready found short opened steady =>
    rw [report_of_opened found short opened, steady]
    rfl

/-- The cases say all: each check goes as one of them says, and as no other. -/
theorem sourceCheck_iff {report : Plan.Report β Readiness} :
    SourceCheck w e today s report ↔ report = (w.checkSource e today).report s :=
  case_iff_eq (exists_sourceCheck w e today s) (fun _ => SourceCheck.eq_report) report

theorem SourceCheck.isReady_iff {report : Plan.Report β Readiness}
    (hcase : SourceCheck w e today s report) :
    report.answer.isReady = true ↔ ∃ source, (lookedUp w e s).answer = .ok source ∧
      OpenedInTime w e s source ∧ (probed w e s source).answer = .ok () ∧
      (settled w e today s source).answer = .ok () := by
  constructor
  · intro hready
    cases hcase with
    | ready found short opened steady => exact ⟨_, found, short, opened, steady⟩
    | unfound | late | shut | unstable => cases hready
  · rintro ⟨source, found, short, opened, steady⟩
    have hready := SourceCheck.ready found short opened steady
    rw [hcase.eq_report, ← hready.eq_report]
    rfl

theorem SourceCheck.of_ready {report : Plan.Report β Readiness}
    (hcase : SourceCheck w e today s report) (hready : report.answer.isReady = true) :
    report.answer = .ready (some true) := by
  cases hcase with
  | ready => rfl
  | unfound | late | shut | unstable => cases hready

/-- Only a probe can say that a source is a placeholder. -/
theorem SourceCheck.of_placeholder {report : Plan.Report β Readiness}
    (hcase : SourceCheck w e today s report) {r : Rejection} {sourceExists : Option Bool}
    (hanswer : report.answer = .notReady r sourceExists true) :
    ∃ source failure, (lookedUp w e s).answer = .ok source ∧ OpenedInTime w e s source ∧
      (probed w e s source).answer = .error failure ∧ failure.sourceIsPlaceholder = true := by
  cases hcase with
  | shut found short refused =>
    injection hanswer with _ _ hplaceholder
    exact ⟨_, _, found, short, refused, hplaceholder⟩
  | unfound | late | unstable | ready => cases hanswer

/-- The check of stability reads the version of the handle that was opened, twice at most. -/
theorem name_settled (w : Worker β) (e : Expectation) (today : Int) (s : β)
    (source : Selection β) : ∃ n ≤ 2, (settled w e today s source).calls.map HandleCall.name =
      List.replicate n (source.handle.accessorId, .actualVersion) := by
  have hcase : Stability w.config today source.handle (probed w e s source).state
    (settled w e today s source) := stability_iff.2 rfl
  obtain ⟨hlength, hnames⟩ := hcase.calls
  refine ⟨_, hlength, List.eq_replicate_iff.2 ⟨List.length_map _, fun name hname => ?_⟩⟩
  obtain ⟨call, hcall, rfl⟩ := List.mem_map.1 hname
  exact hnames call hcall

theorem goesOn_callsToProbe (w : Worker β) (e : Expectation) (s : β) (source : Selection β) :
    GoesOn w e s source 0 (callsToProbe w e s source) := ⟨_, rfl, rfl⟩

theorem goesOn_callsToEnd (w : Worker β) (e : Expectation) (today : Int) (s : β)
    (source : Selection β) : ∃ n ≤ 2, GoesOn w e s source n (callsToEnd w e today s source) := by
  obtain ⟨n, hle, hnames⟩ := name_settled w e today s source
  have hlater : ((settled w e today s source).calls.map
      (HandleCall.later (openTime w e s source))).map HandleCall.name =
        (settled w e today s source).calls.map HandleCall.name := by
    rw [List.map_map]
    rfl
  refine ⟨n, hle, _, List.append_assoc .., ?_⟩
  rw [List.singleton_append, List.map_cons, hlater, hnames]
  rfl

theorem SourceCheck.calls_of_unfound {report : Plan.Report β Readiness}
    (hcase : SourceCheck w e today s report) {r : Rejection}
    (lost : (lookedUp w e s).answer = .error r) : report.calls = (lookedUp w e s).calls := by
  have hunfound : SourceCheck w e today s _ := .unfound lost
  rw [hcase.eq_report, ← hunfound.eq_report]

theorem SourceCheck.calls_of_found {report : Plan.Report β Readiness}
    (hcase : SourceCheck w e today s report) (found : (lookedUp w e s).answer = .ok source) :
    ∃ n ≤ 2, GoesOn w e s source n report.calls ∧
      (0 < n → OpenedInTime w e s source ∧ (probed w e s source).answer = .ok ()) := by
  have hsame : ∀ {source'}, (lookedUp w e s).answer = .ok source' → source' = source :=
    fun found' => Except.ok.inj (found'.symm.trans found)
  have hshut := goesOn_callsToProbe w e s source
  obtain ⟨n, hle, hopened⟩ := goesOn_callsToEnd w e today s source
  cases hcase with
  | unfound lost =>
    rw [lost] at found
    cases found
  | late found' long =>
    obtain rfl := hsame found'
    exact ⟨0, Nat.zero_le 2, hshut, nofun⟩
  | shut found' short refused =>
    obtain rfl := hsame found'
    exact ⟨0, Nat.zero_le 2, hshut, nofun⟩
  | unstable found' short opened unsettled =>
    obtain rfl := hsame found'
    exact ⟨n, hle, hopened, fun _ => ⟨short, opened⟩⟩
  | ready found' short opened steady =>
    obtain rfl := hsame found'
    exact ⟨n, hle, hopened, fun _ => ⟨short, opened⟩⟩

/-- A check of a source goes as the case says that applies, and as no other; it is ready exactly if
it is found, opened in time and stable. -/
theorem source_decided (w : Worker β) (e : Expectation) (today : Int) (s : β) :
    let course := (w.checkSource e today).report s
    let lookup := lookedUp w e s
    (∀ report, SourceCheck w e today s report ↔ report = course) ∧
      (course.answer.isReady = true ↔ ∃ source, lookup.answer = .ok source ∧
        OpenedInTime w e s source ∧ (probed w e s source).answer = .ok () ∧
        (settled w e today s source).answer = .ok ()) ∧
      (course.answer.isReady = true → course.answer = .ready (some true)) ∧
      (∀ r sourceExists, course.answer = .notReady r sourceExists true →
        ∃ source failure, lookup.answer = .ok source ∧ OpenedInTime w e s source ∧
          (probed w e s source).answer = .error failure ∧ failure.sourceIsPlaceholder = true) ∧
      (∀ r, lookup.answer = .error r → course.calls = lookup.calls) ∧
      ∀ source, lookup.answer = .ok source → ∃ n ≤ 2, GoesOn w e s source n course.calls ∧
        (0 < n → OpenedInTime w e s source ∧ (probed w e s source).answer = .ok ()) := by
  intro course lookup
  have hcase : SourceCheck w e today s course := sourceCheck_iff.2 rfl
  exact ⟨fun _ => sourceCheck_iff, hcase.isReady_iff, hcase.of_ready,
    fun _ _ hanswer => hcase.of_placeholder hanswer, fun _ lost => hcase.calls_of_unfound lost,
    fun _ found => hcase.calls_of_found found⟩

end Reference
end PackageHandling
