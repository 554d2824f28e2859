import PackageHandling.Readiness
import PackageHandling.Proofs.Handle.Report

/-!
# When a source is stable

A check of stability reads the version once or twice, and decides on these readings, on their dates
and on nothing else: the main statement is `stability_decided`.  Each reading is looked at as a
whole, for what it comes to and for the time it takes.
-/

namespace PackageHandling
namespace Reference

variable {β : Type}

/-- What a reading of the version comes to, how long it takes and how it leaves the backend. -/
structure Readout (β : Type) where
  version : Except Rejection PackageVersion
  elapsed : Nat
  state : β

/-- A reading that fails or takes longer than its budget is a fault, not a known reason. -/
def readout (budget : Nat) (h : Handle β) (s : β) : Readout β :=
  let c := h.actualVersion.run s
  if c.elapsed ≤ budget then
    ⟨c.answer.mapError fun f => ⟨⟨f.summary, f.message⟩, false⟩, c.elapsed, c.state⟩
  else ⟨.error (lateReading budget), budget, h.actualVersion.abandonedAt budget s⟩

theorem known_of_readout {budget : Nat} {h : Handle β} {s : β} {r : Rejection}
    (hfailed : (readout budget h s).version = .error r) : r.known = false := by
  rw [readout] at hfailed
  by_cases hle : (h.actualVersion.run s).elapsed ≤ budget
  · simp only [if_pos hle] at hfailed
    cases hanswer : (h.actualVersion.run s).answer with
    | ok v => rw [hanswer] at hfailed; cases hfailed
    | error f =>
      rw [hanswer] at hfailed
      obtain rfl := Except.error.inj hfailed
      rfl
  · simp only [if_neg hle] at hfailed
    obtain rfl := Except.error.inj hfailed
    rfl

/-- More than the bypass age has gone by since a version was modified, at a date within the
calendar. -/
def LongAgo (c : Config) (today : Int) (v : PackageVersion) : Prop :=
  ∃ date, v.modifiedDate? = some date ∧ -8334601228800000 ≤ date ∧ date ≤ 8210266876799999 ∧
    (c.stabilityBypassAge : Int) * 1000 < today - date

theorem not_longAgo {c : Config} {today : Int} {v : PackageVersion}
    (hdate : ∀ date, v.modifiedDate? = some date →
      date < -8334601228800000 ∨ 8210266876799999 < date ∨ today ≤ date) :
    ¬ LongAgo c today v := by
  rintro ⟨date, hsome, hfrom, hto, hage⟩
  have hcases := hdate date hsome
  omega

theorem isOld_iff {c : Config} {today : Int} {v : PackageVersion} :
    v.isOld c today = true ↔ LongAgo c today v := by
  rw [PackageVersion.isOld, Option.any_eq_true]
  simp only [PackageVersion.modifiedAt?, Option.filter_eq_some_iff, decide_eq_true_eq, LongAgo,
    and_assoc, gt_iff_lt]

section

variable (c : Config) (today : Int) (h : Handle β) (s : β)

def firstReadout : Readout β := readout c.remoteCheckTimeout h s

def secondReadout : Readout β := readout c.remoteCheckTimeout h (firstReadout c h s).state

/-- When the second reading is begun: the threshold after the end of the first. -/
def secondTime : Nat := (firstReadout c h s).elapsed + c.stabilityThreshold

inductive Stability : Plan.Report β Check → Prop
  | unasked (zero : c.stabilityThreshold = 0) : Stability ⟨.ok (), 0, s, []⟩
  | unread {r : Rejection} (asked : c.stabilityThreshold ≠ 0)
      (failed : (firstReadout c h s).version = .error r) :
      Stability ⟨.error r, (firstReadout c h s).elapsed, (firstReadout c h s).state,
        [⟨0, h.accessorId, .actualVersion⟩]⟩
  | old {v : PackageVersion} (asked : c.stabilityThreshold ≠ 0)
      (first : (firstReadout c h s).version = .ok v) (past : LongAgo c today v) :
      Stability ⟨.ok (), (firstReadout c h s).elapsed, (firstReadout c h s).state,
        [⟨0, h.accessorId, .actualVersion⟩]⟩
  | lost {v : PackageVersion} {r : Rejection} (asked : c.stabilityThreshold ≠ 0)
      (first : (firstReadout c h s).version = .ok v) (recent : ¬ LongAgo c today v)
      (failed : (secondReadout c h s).version = .error r) :
      Stability ⟨.error r, secondTime c h s + (secondReadout c h s).elapsed,
        (secondReadout c h s).state,
        [⟨0, h.accessorId, .actualVersion⟩, ⟨secondTime c h s, h.accessorId, .actualVersion⟩]⟩
  | same {v v' : PackageVersion} (asked : c.stabilityThreshold ≠ 0)
      (first : (firstReadout c h s).version = .ok v) (recent : ¬ LongAgo c today v)
      (second : (secondReadout c h s).version = .ok v')
      (equal : v.table.compare v'.table = .ok ()) :
      Stability ⟨.ok (), secondTime c h s + (secondReadout c h s).elapsed,
        (secondReadout c h s).state,
        [⟨0, h.accessorId, .actualVersion⟩, ⟨secondTime c h s, h.accessorId, .actualVersion⟩]⟩
  | changed {v v' : PackageVersion} {r : Rejection} (asked : c.stabilityThreshold ≠ 0)
      (first : (firstReadout c h s).version = .ok v) (recent : ¬ LongAgo c today v)
      (second : (secondReadout c h s).version = .ok v')
      (differ : v.table.compare v'.table = .error r) :
      Stability ⟨.error ⟨⟨"Waiting for source file to stop growing",
          "Source is not stable after " ++ toString c.stabilityThreshold ++ "ms: " ++
            r.reason.tech⟩, true⟩,
        secondTime c h s + (secondReadout c h s).elapsed, (secondReadout c h s).state,
        [⟨0, h.accessorId, .actualVersion⟩, ⟨secondTime c h s, h.accessorId, .actualVersion⟩]⟩

end

variable {c : Config} {today : Int} {h : Handle β} {s : β}

theorem exists_stability (c : Config) (today : Int) (h : Handle β) (s : β) :
    ∃ report, Stability c today h s report := by
  by_cases asked : c.stabilityThreshold = 0
  · exact ⟨_, .unasked asked⟩
  cases first : (firstReadout c h s).version with
  | error r => exact ⟨_, .unread asked first⟩
  | ok v =>
    by_cases past : LongAgo c today v
    · exact ⟨_, .old asked first past⟩
    cases second : (secondReadout c h s).version with
    | error r => exact ⟨_, .lost asked first past second⟩
    | ok v' =>
      cases equal : v.table.compare v'.table with
      | ok u => exact ⟨_, .same asked first past second equal⟩
      | error r => exact ⟨_, .changed asked first past second equal⟩

theorem report_readVersion (h : Handle β) (c : Config) (s : β) :
    (h.readVersion c).report s =
      let r := readout c.remoteCheckTimeout h s
      ⟨r.version, r.elapsed, r.state, [⟨0, h.accessorId, .actualVersion⟩]⟩ := by
  simp only [Handle.readVersion, Plan.attempt, Plan.bind_eq, Plan.bind_assoc, Plan.report_bind,
    Handle.getVersion, readout]
  by_cases hle : (h.actualVersion.run s).elapsed ≤ c.remoteCheckTimeout
  · rw [h.report_call_of_le .actualVersion hle, if_pos hle]
    cases (h.actualVersion.run s).answer with
    | error f => rfl
    | ok v => rfl
  · rw [h.report_call_of_gt .actualVersion hle, if_neg hle]
    have late := rejection_elapsed "getPackageActualVersion" c.remoteCheckTimeout
    simp only [Plan.pure_eq, Plan.report_done, late]
    rfl

/-- What a second reading says of the first. -/
def comparedWith (c : Config) (v : PackageVersion) : Except Rejection PackageVersion → Check
  | .error r => .error r
  | .ok v' => (v.table.compare v'.table).mapError (unstable c)

def checkAgain (c : Config) (h : Handle β) (v : PackageVersion) : Plan β Note Check :=
  .wait c.stabilityThreshold ((h.readVersion c).bind fun again => .done (comparedWith c v again))

theorem checkStability_eq (asked : c.stabilityThreshold ≠ 0) :
    h.checkStability c today = (h.readVersion c).bind fun
      | .error r => .done (.error r)
      | .ok v =>
        if v.isOld c today then .note (.logged (.sourceIsOld h.accessorId)) (.done (.ok ()))
        else checkAgain c h v := by
  have hmatch : ∀ v : PackageVersion, checkAgain c h v = (do
      .delay c.stabilityThreshold
      match ← h.readVersion c with
      | .error r => return .error r
      | .ok v' => return (v.table.compare v'.table).mapError (unstable c)) := by
    intro v
    refine congrArg (fun k => Plan.wait c.stabilityThreshold ((h.readVersion c).bind k)) ?_
    funext again
    cases again with
    | error r => rfl
    | ok v' => rfl
  rw [Handle.checkStability, if_neg asked]
  simp only [hmatch]
  rfl

theorem report_checkAgain (v : PackageVersion) :
    (checkAgain c h v).report s =
      let again := readout c.remoteCheckTimeout h s
      ⟨comparedWith c v again.version, c.stabilityThreshold + again.elapsed, again.state,
        [⟨c.stabilityThreshold, h.accessorId, .actualVersion⟩]⟩ := by
  rw [checkAgain, Plan.report_wait, Plan.report_bind, report_readVersion]
  rfl

/-- Where the first reading is not enough, the second one is begun the threshold after it. -/
theorem report_checkStability (asked : c.stabilityThreshold ≠ 0) {v : PackageVersion}
    (first : (firstReadout c h s).version = .ok v) (recent : ¬ LongAgo c today v) :
    (h.checkStability c today).report s =
      ⟨comparedWith c v (secondReadout c h s).version,
        secondTime c h s + (secondReadout c h s).elapsed, (secondReadout c h s).state,
        [⟨0, h.accessorId, .actualVersion⟩, ⟨secondTime c h s, h.accessorId, .actualVersion⟩]⟩ := by
  have hnew : v.isOld c today = false := Bool.eq_false_iff.2 (mt isOld_iff.1 recent)
  have hfirst : (readout c.remoteCheckTimeout h s).version = .ok v := first
  have htime : secondTime c h s + (secondReadout c h s).elapsed = (firstReadout c h s).elapsed +
      (c.stabilityThreshold + (secondReadout c h s).elapsed) := Nat.add_assoc ..
  rw [checkStability_eq asked, Plan.report_bind, report_readVersion, htime]
  simp only [hfirst, hnew, Bool.false_eq_true, if_false, report_checkAgain]
  rfl

theorem Stability.eq_report {report : Plan.Report β Check} (hcase : Stability c today h s report) :
    report = (h.checkStability c today).report s := by
  cases hcase with
  | unasked zero =>
    rw [Handle.checkStability, if_pos zero]
    rfl
  | unread asked failed =>
    have hfirst : (readout c.remoteCheckTimeout h s).version = .error _ := failed
    rw [checkStability_eq asked, Plan.report_bind, report_readVersion]
    simp only [hfirst]
    rfl
  | old asked first past =>
    have hfirst : (readout c.remoteCheckTimeout h s).version = .ok _ := first
    rw [checkStability_eq asked, Plan.report_bind, report_readVersion]
    simp only [hfirst, isOld_iff.2 past, if_true]
    rfl
  | lost asked first recent failed =>
    rw [report_checkStability asked first recent, failed]
    rfl
  | same asked first recent second equal =>
    rw [report_checkStability asked first recent, second, comparedWith, equal]
    rfl
  | changed asked first recent second differ =>
    rw [report_checkStability asked first recent, second, comparedWith, differ]
    rfl

/-- The cases say all: each check goes as one of them says, and as no other. -/
theorem stability_iff {report : Plan.Report β Check} :
    Stability c today h s report ↔ report = (h.checkStability c today).report s :=
  case_iff_eq (exists_stability c today h s) (fun _ => Stability.eq_report) report

theorem Stability.calls {report : Plan.Report β Check} (hcase : Stability c today h s report) :
    report.calls.length ≤ 2 ∧
      ∀ call ∈ report.calls, call.name = (h.accessorId, .actualVersion) := by
  cases hcase <;> simp [HandleCall.name]

/-- A source is known to be unstable only where two readings differ. -/
theorem Stability.of_known {report : Plan.Report β Check} (hcase : Stability c today h s report)
    {r : Rejection} (hanswer : report.answer = .error r) (hknown : r.known = true) :
    ∃ v v', (firstReadout c h s).version = .ok v ∧ (secondReadout c h s).version = .ok v' ∧
      v.table.compare v'.table ≠ .ok () ∧
      report.calls = [⟨0, h.accessorId, .actualVersion⟩,
        ⟨secondTime c h s, h.accessorId, .actualVersion⟩] := by
  cases hcase with
  | unasked zero => cases hanswer
  | old asked first past => cases hanswer
  | same asked first recent second equal => cases hanswer
  | unread asked failed =>
    obtain rfl := Except.error.inj hanswer
    rw [known_of_readout failed] at hknown
    cases hknown
  | lost asked first recent failed =>
    obtain rfl := Except.error.inj hanswer
    rw [known_of_readout failed] at hknown
    cases hknown
  | changed asked first recent second differ =>
    refine ⟨_, _, first, second, fun hsame => ?_, rfl⟩
    rw [differ] at hsame
    cases hsame

/-- A check of stability goes as the case says that applies, and as no other; a source is known to
be unstable only if both readings succeed and differ. -/
theorem stability_decided (h : Handle β) (c : Config) (today : Int) (s : β) :
    let course := (h.checkStability c today).report s
    let first := firstReadout c h s
    let second := secondReadout c h s
    (∀ report, Stability c today h s report ↔ report = course) ∧
      (∀ v : PackageVersion, (∀ date, v.modifiedDate? = some date →
        date < -8334601228800000 ∨ 8210266876799999 < date ∨ today ≤ date) →
          ¬ LongAgo c today v) ∧
      (∀ r, first.version = .error r ∨ second.version = .error r → r.known = false) ∧
      course.calls.length ≤ 2 ∧
      (∀ call ∈ course.calls, call.name = (h.accessorId, .actualVersion)) ∧
      ∀ r, course.answer = .error r → r.known = true →
        ∃ v v', first.version = .ok v ∧ second.version = .ok v' ∧
          v.table.compare v'.table ≠ .ok () ∧
          course.calls = [⟨0, h.accessorId, .actualVersion⟩,
            ⟨first.elapsed + c.stabilityThreshold, h.accessorId, .actualVersion⟩] := by
  intro course first second
  have hcase : Stability c today h s course := stability_iff.2 rfl
  have hfault : ∀ r, first.version = .error r ∨ second.version = .error r → r.known = false := by
    rintro r (hfirst | hsecond)
    · exact known_of_readout hfirst
    · exact known_of_readout hsecond
  exact ⟨fun _ => stability_iff, fun _ => not_longAgo, hfault, hcase.calls.1, hcase.calls.2,
    fun _ hanswer hknown => hcase.of_known hanswer hknown⟩

end Reference
end PackageHandling
