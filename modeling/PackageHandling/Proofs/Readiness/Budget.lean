import PackageHandling.Proofs.Dispatcher.Budget
import PackageHandling.Proofs.Readiness.Source
import PackageHandling.Rehearsal.Handlers

/-!
# Readiness under the budget of a dispatcher

A source that has just been changed has to be looked up, opened, read, waited for and read again,
all within the inner action budget: the main statement is `ready_iff_in_budget`.
-/

namespace PackageHandling
namespace Reference

variable {β : Type}

section

variable (w : Worker β) (e : Expectation) (today : Int) (s : β) (source : Selection β)

def afterOpening : β := (probed w e s source).state

/-- A source of which every stage of the check succeeds within its own budget, that is read twice
with the same values, and that has not been left alone for longer than the bypass age. -/
structure FreshSource (v v' : PackageVersion) : Prop where
  found : (lookedUp w e s).answer = .ok source
  short : OpenedInTime w e s source
  opened : (probed w e s source).answer = .ok ()
  first : (firstReadout w.config source.handle (afterOpening w e s source)).version = .ok v
  second : (secondReadout w.config source.handle (afterOpening w e s source)).version = .ok v'
  equal : ∀ key, v.table.value? key = v'.table.value? key
  recent : ¬ LongAgo w.config today v

/-- The times of all stages: to find the source, to open it, to read its version, to wait for the
threshold and to read the version again. -/
def timeToReady : Nat :=
  let s' := afterOpening w e s source
  (lookedUp w e s).elapsed + (probed w e s source).elapsed +
    (firstReadout w.config source.handle s').elapsed + w.config.stabilityThreshold +
    (secondReadout w.config source.handle s').elapsed

end

variable {w : Worker β} {e : Expectation} {today : Int} {s : β} {source : Selection β}
  {v v' : PackageVersion}

theorem FreshSource.run_checkSource (h : FreshSource w e today s source v v')
    (asked : w.config.stabilityThreshold ≠ 0) :
    ((w.checkSource e today).run s).answer = .ready (some true) ∧
      ((w.checkSource e today).run s).elapsed = timeToReady w e s source := by
  have hsettled := (Stability.same asked h.first h.recent h.second
    (PackageVersion.compare_table_eq_ok.2 h.equal)).eq_report
  have hsteady : (settled w e today s source).answer = .ok () :=
    (congrArg Plan.Report.answer hsettled).symm
  have hready := (SourceCheck.ready h.found h.short h.opened hsteady).eq_report
  have helapsed : (settled w e today s source).elapsed = _ :=
    (congrArg Plan.Report.elapsed hsettled).symm
  constructor
  · exact (congrArg Plan.Report.answer hready).symm
  · refine (congrArg Plan.Report.elapsed hready).symm.trans ?_
    simp only [helapsed, openTime, secondTime, timeToReady, afterOpening]
    omega

/-- A source is ready before the threshold has gone by only where none is set or where the version
was modified long ago. -/
theorem isReady_run_checkSource (hready : ((w.checkSource e today).run s).answer.isReady = true)
    (short : ((w.checkSource e today).run s).elapsed < w.config.stabilityThreshold) :
    ∃ source v, (lookedUp w e s).answer = .ok source ∧
      (firstReadout w.config source.handle (afterOpening w e s source)).version = .ok v ∧
      LongAgo w.config today v := by
  have hcase : SourceCheck w e today s ((w.checkSource e today).report s) := sourceCheck_iff.2 rfl
  obtain ⟨source, found, inTime, opened, steady⟩ := hcase.isReady_iff.1 hready
  have hstability : Stability w.config today source.handle (afterOpening w e s source)
    (settled w e today s source) := stability_iff.2 rfl
  have helapsed : ((w.checkSource e today).run s).elapsed =
      openTime w e s source + (settled w e today s source).elapsed :=
    congrArg Plan.Report.elapsed (report_of_opened found inTime opened)
  rw [helapsed] at short
  generalize settled w e today s source = report at hstability steady short
  cases hstability with
  | unasked zero => omega
  | old asked first past => exact ⟨source, _, found, first, past⟩
  | same => simp only [secondTime] at short; omega
  | unread | lost | changed => cases steady

end Reference

namespace Config

theorem validate_stabilityThreshold {c : Config} (accepted : c.validate = .ok c) (threshold : Nat) :
    let c' := { c with stabilityThreshold := threshold }
    c'.validate = .ok c' := by
  intro c'
  have hpositive : c'.positive = c.positive := rfl
  rw [validate] at accepted ⊢
  rw [hpositive]
  split at accepted
  · cases accepted
  · rfl

end Config

namespace Dispatcher

open Reference

variable {β : Type} {d : Dispatcher β} {e : Expectation} {today : Int} {s : β}

def ChecksSource (d : Dispatcher β) (e : Expectation) (today : Int) : Prop :=
  (d.handlerOf e).ready d.worker e = (d.worker.checkSource e today).bind fun r => .done (.ok r)

theorem ChecksSource.run_ready (checks : d.ChecksSource e today) :
    let check := (d.worker.checkSource e today).run s
    let own := ((d.handlerOf e).ready d.worker e).run s
    own.answer = .ok check.answer ∧ own.elapsed = check.elapsed := by
  rw [ChecksSource] at checks
  simp only [checks, Plan.run_bind]
  exact ⟨rfl, rfl⟩

theorem ChecksSource.answer_ready (checks : d.ChecksSource e today)
    (short : ((d.worker.checkSource e today).run s).elapsed ≤ d.worker.config.innerActionTimeout) :
    ((d.ready e).run s).answer = .ok ((d.worker.checkSource e today).run s).answer := by
  obtain ⟨hanswer, helapsed⟩ := checks.run_ready (s := s)
  rw [ready, d.run_phase_inTime ⟨helapsed ▸ short, fun f hf => ?_⟩, hanswer]
  rw [hanswer] at hf
  cases hf

theorem ChecksSource.answer_late (checks : d.ChecksSource e today)
    (long : d.worker.config.innerActionTimeout < ((d.worker.checkSource e today).run s).elapsed) :
    ∃ r : Rejection, r.known = false ∧
      ((d.ready e).run s).answer = .ok (.notReady r none false) := by
  obtain ⟨-, helapsed⟩ := checks.run_ready (s := s)
  have hlate : ¬ (((d.handlerOf e).ready d.worker e).run s).InTime
      d.worker.config.innerActionTimeout := fun hin => by
    have hle := hin.1
    omega
  have hrefused : ∃ f : Failure, _ ∧ f.rejection.known = false ∧
      ((d.ready e).run s).answer = .ok (.refused f.rejection) ∧ _ := d.phase_not_inTime hlate
  obtain ⟨f, -, hunknown, hanswer, -⟩ := hrefused
  exact ⟨f.rejection, hunknown, hanswer⟩

/-- A source that is read twice with the same values and was modified recently is ready exactly if
the times of all stages and the threshold together are within the inner action budget. -/
theorem ready_iff_in_budget (d : Dispatcher β) (e : Expectation) (today : Int) (s : β)
    (checks : d.ChecksSource e today) :
    let c := d.worker.config
    let answer := ((d.ready e).run s).answer
    (c.stabilityThreshold ≠ 0 → ∀ source v v', FreshSource d.worker e today s source v v' →
      ((∃ found, answer = .ok (.ready found)) ↔
        timeToReady d.worker e s source ≤ c.innerActionTimeout) ∧
      (c.innerActionTimeout < timeToReady d.worker e s source →
        ∃ r : Rejection, r.known = false ∧ answer = .ok (.notReady r none false))) ∧
    (c.innerActionTimeout < c.stabilityThreshold →
      ∀ r, answer = .ok r → r.isReady = true → ∃ source v,
        (lookedUp d.worker e s).answer = .ok source ∧
        (firstReadout c source.handle (afterOpening d.worker e s source)).version = .ok v ∧
        LongAgo c today v) ∧
    ∀ c' : Config, c'.validate = .ok c' → ∀ threshold,
      let c'' := { c' with stabilityThreshold := threshold }
      c''.validate = .ok c'' := by
  intro c answer
  refine ⟨fun asked source v v' fresh => ?_, fun beyond r hanswer hready => ?_,
    fun c' accepted => Config.validate_stabilityThreshold accepted⟩
  · obtain ⟨hready, helapsed⟩ := fresh.run_checkSource asked
    have hlate : c.innerActionTimeout < timeToReady d.worker e s source →
        ∃ r : Rejection, r.known = false ∧ answer = .ok (.notReady r none false) := fun long =>
      checks.answer_late (helapsed ▸ long)
    refine ⟨⟨fun ⟨found, hfound⟩ => Nat.le_of_not_lt fun long => ?_, fun short => ?_⟩, hlate⟩
    · obtain ⟨r, -, hrefused⟩ := hlate long
      rw [hrefused] at hfound
      cases hfound
    · exact ⟨some true, (checks.answer_ready (helapsed ▸ short)).trans (congrArg _ hready)⟩
  · by_cases short : ((d.worker.checkSource e today).run s).elapsed ≤ c.innerActionTimeout
    · obtain rfl := Except.ok.inj (hanswer.symm.trans (checks.answer_ready short))
      exact isReady_run_checkSource hready (Nat.lt_of_le_of_lt short beyond)
    · obtain ⟨r', -, hrefused⟩ := checks.answer_late (Nat.lt_of_not_le short)
      obtain rfl := Except.ok.inj (hanswer.symm.trans hrefused)
      cases hready

theorem checksSource_of_copyHandler (hcopy : d.handler = Rehearsal.copyHandler today) :
    d.ChecksSource e today := by
  have htype : e.requireType e.type = .ok () := if_pos rfl
  rw [ChecksSource, handlerOf, hcopy]
  simp only [Rehearsal.copyHandler, Rehearsal.Copy.guarded, htype]

end Dispatcher

theorem Worker.run_lookup_of_le {β : Type} {w : Worker β} {containers : List PackageContainer}
    {checks : LookupChecks} {purpose : Purpose} {s : β}
    (hle : ((w.visitAll containers checks purpose).run s).elapsed ≤ w.config.innerActionTimeout) :
    (w.lookup containers checks purpose).run s = (w.visitAll containers checks purpose).run s := by
  simp only [Worker.lookup, Plan.bind_eq, Plan.run_bind, Plan.within_of_le hle, Plan.pure_eq,
    Plan.run, Nat.add_zero, List.append_nil]

def Handle.slow : Handle Nat :=
  { Handle.reporting fun _ => .file 100 0 with
    probe := .wait 300 (.done (.ok ()))
    actualVersion := .wait 200 (.done (.ok (.file 100 0))) }

namespace Dispatcher

def copying (budget : Nat) (today : Int) : Dispatcher Nat where
  worker :=
    { Worker.reporting fun _ => .file 100 0 with
      config := { Config.default fun _ => none with innerActionTimeout := budget }
      registry := Registry.empty.register .localFolder { create := fun _ n => (.ok .slow, n) } }
  handler := Rehearsal.copyHandler today
  placed _ := rfl

open Reference

def slowSource : Selection Nat where
  pair := ⟨⟨"container", "Container",
    Ordered.ofList [("source", { connection := .localFolder none none none })]⟩,
    "source", { connection := .localFolder none none none }⟩
  handle := .slow

theorem lookedUp_copying {budget : Nat} {today : Int} (enough : 200 ≤ budget) :
    let lookup := lookedUp (copying budget today).worker .ofHundred 0
    lookup.answer = .ok slowSource ∧ lookup.elapsed = 200 ∧ lookup.state = 0 := by
  intro lookup
  let visit := ((copying budget today).worker.visitAll Expectation.ofHundred.sources
    (sourceChecks .ofHundred) (Worker.purposeOf .ofHundred "source")).run 0
  obtain ⟨hanswer, helapsed, hstate⟩ :
      visit.answer = .ok slowSource ∧ visit.elapsed = 200 ∧ visit.state = 0 := by
    with_unfolding_all exact ⟨rfl, rfl, rfl⟩
  have hle : visit.elapsed ≤ (copying budget today).worker.config.innerActionTimeout :=
    helapsed ▸ enough
  have hrun := Worker.run_lookup_of_le hle
  exact ⟨(congrArg Plan.Course.answer hrun).trans hanswer,
    (congrArg Plan.Course.elapsed hrun).trans helapsed,
    (congrArg Plan.Course.state hrun).trans hstate⟩

theorem freshSource_copying {budget : Nat} (enough : 200 ≤ budget) :
    FreshSource (copying budget 0).worker .ofHundred 0 0 slowSource
      (.file 100 0) (.file 100 0) where
  found := (lookedUp_copying enough).1
  short := by
    have h : 300 ≤ 10000 := by decide
    exact h
  opened := rfl
  first := rfl
  second := rfl
  equal _ := rfl
  recent := not_longAgo fun date hdate => .inr (.inr (Int.le_of_eq (Option.some.inj hdate)))

theorem timeToReady_copying {budget : Nat} {today : Int} (enough : 200 ≤ budget) :
    timeToReady (copying budget today).worker .ofHundred 0 slowSource = 4900 := by
  rw [timeToReady, (lookedUp_copying enough).2.1]
  rfl

/-- Ready after 4900 ms, with a budget of so many; a millisecond less is not enough. -/
theorem ready_at_the_tie :
    let e := Expectation.ofHundred
    let day := 24 * 60 * 60 * 1000
    let old := copying 3999 day
    (∀ budget today, (copying budget today).ChecksSource e today) ∧
    (∀ budget, 200 ≤ budget →
      FreshSource (copying budget 0).worker e 0 0 slowSource (.file 100 0) (.file 100 0) ∧
      timeToReady (copying budget 0).worker e 0 slowSource = 4900) ∧
    (∃ found, (((copying 4900 0).ready e).run 0).answer = .ok (.ready found)) ∧
    (∃ r : Rejection, r.known = false ∧
      (((copying 4899 0).ready e).run 0).answer = .ok (.notReady r none false)) ∧
    old.worker.config.innerActionTimeout < old.worker.config.stabilityThreshold ∧
    ((old.ready e).run 0).answer = .ok (.ready (some true)) ∧
    (∃ v, LongAgo old.worker.config day v) ∧
    old.worker.config.validate = .ok old.worker.config := by
  intro e day old
  have checks : ∀ budget today, (copying budget today).ChecksSource e today :=
    fun _ _ => checksSource_of_copyHandler rfl
  have accepted : old.worker.config.validate = .ok old.worker.config := by decide
  have hready : ((old.ready e).run 0).answer = .ok (.ready (some true)) := by decide +kernel
  obtain ⟨hin, -, -⟩ := ready_iff_in_budget (copying 4900 0) e 0 0 (checks _ _)
  obtain ⟨hout, -, -⟩ := ready_iff_in_budget (copying 4899 0) e 0 0 (checks _ _)
  obtain ⟨-, hold, haccepted⟩ := ready_iff_in_budget old e day 0 (checks _ _)
  have htie := (hin (by decide) _ _ _ (freshSource_copying (by decide))).1
  have hlate := (hout (by decide) _ _ _ (freshSource_copying (by decide))).2
  rw [timeToReady_copying (by decide)] at htie hlate
  obtain ⟨_, v, -, -, past⟩ := hold (by decide) _ hready rfl
  exact ⟨checks, fun _ enough => ⟨freshSource_copying enough, timeToReady_copying enough⟩,
    htie.2 (Nat.le_refl 4900), hlate (Nat.lt_succ_self 4899), by decide, hready, ⟨v, past⟩,
    haccepted _ accepted 4000⟩

end Dispatcher
end PackageHandling
