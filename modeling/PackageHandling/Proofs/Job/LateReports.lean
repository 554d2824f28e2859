import PackageHandling.Proofs.Job.Pacing

/-!
# Terminal reports that come too late

A job takes its first terminal report and no other: later ones change neither its outcome nor its
events.  A completion leaves its hash and its fraction all the same, so a job shows the completion
that was reported last, whatever the outcome is that it has: the main statement is `late_reports`.
-/

namespace PackageHandling

namespace JobReport

def isTerminal : JobReport → Bool
  | progress .. => false
  | _ => true

def completed? : JobReport → Option Progress
  | complete hash _ _ => some (hash, .one)
  | _ => none

def lastCompleted? (late : List JobReport) : Option Progress :=
  (late.filterMap completed?).getLast?

variable {r : JobReport} {late : List JobReport}

theorem snd_of_completed? {p : Progress} (h : r.completed? = some p) : p.2 = .one := by
  cases r with
  | complete hash reason result =>
    obtain rfl := Option.some.inj h
    rfl
  | progress hash fraction => cases h
  | error reason => cases h

theorem lastCompleted?_cons (r : JobReport) (late : List JobReport) :
    lastCompleted? (r :: late) = (lastCompleted? late).or r.completed? := by
  cases h : r.completed? with
  | none => simp [lastCompleted?, h]
  | some p =>
    rw [lastCompleted?, List.filterMap_cons_some h, List.getLast?_cons, ← lastCompleted?]
    cases lastCompleted? late <;> rfl

theorem lastCompleted?_eq_none_iff :
    lastCompleted? late = none ↔ ∀ r ∈ late, r.completed? = none := by
  rw [lastCompleted?, List.getLast?_eq_none_iff, List.filterMap_eq_nil_iff]

theorem exists_of_lastCompleted? {p : Progress} (h : lastCompleted? late = some p) :
    ∃ r ∈ late, r.completed? = some p :=
  List.mem_filterMap.1 (List.mem_of_getLast? h)

end JobReport

/-- What a job shows of its progress. -/
def Job.shown (j : Job) : Progress := (j.hash, j.fraction)

namespace Scene

open JobReport

/-- The job shows these values, and all else is as it was. -/
def showing (s : Scene) (p : Progress) : Scene :=
  { s with job := { s.job with hash := p.1, fraction := p.2 } }

@[simp] theorem showing_outcome (s : Scene) (p : Progress) :
    (s.showing p).job.outcome = s.job.outcome := rfl

@[simp] theorem showing_events (s : Scene) (p : Progress) :
    (s.showing p).job.events = s.job.events := rfl

@[simp] theorem showing_shown (s : Scene) (p : Progress) : (s.showing p).job.shown = p := rfl

@[simp] theorem showing_showing (s : Scene) (p q : Progress) :
    (s.showing p).showing q = s.showing q := rfl

theorem showing_eq_self_iff {s : Scene} {p : Progress} : s.showing p = s ↔ p = s.job.shown := by
  constructor
  · intro h
    rw [← h, showing_shown]
  · rintro rfl
    rfl

variable {s : Scene}

/-- Of a late terminal report only the values of a completion are taken. -/
theorem act_late_report (ended : s.job.outcome ≠ none) {r : JobReport} (terminal : r.isTerminal) :
    s.act (.report r) = s.showing (r.completed?.getD s.job.shown) := by
  cases r with
  | progress hash fraction => cases terminal
  | complete hash reason result =>
    have hfinish := Job.finish_of_ended (j := { s.job with hash, fraction := .one }) ended
      (.done hash reason result) (some (.done hash reason result))
    simp [act, report, Job.reportComplete, hfinish, become, showing, completed?]
  | error reason =>
    simp only [act, report, Job.reportError, Job.finish_of_ended ended, become_self]
    exact (showing_eq_self_iff.2 rfl).symm

theorem run_late_reports (ended : s.job.outcome ≠ none) (late : List JobReport)
    (terminal : ∀ r ∈ late, r.isTerminal) :
    s.run (late.map .report) = s.showing ((lastCompleted? late).getD s.job.shown) := by
  induction late generalizing s with
  | nil => exact (showing_eq_self_iff.2 rfl).symm
  | cons r late ih =>
    obtain ⟨hr, hlate⟩ := List.forall_mem_cons.1 terminal
    have hrest := ih (s := s.showing (r.completed?.getD s.job.shown)) ended hlate
    rw [List.map_cons, run_cons, act_late_report ended hr, hrest, showing_showing, showing_shown,
      lastCompleted?_cons]
    cases lastCompleted? late <;> rfl

/-- Terminal reports on a job that has an outcome change what it shows to the values of the last
completion among them, and nothing else. -/
theorem late_reports (s : Scene) (late : List JobReport) (ended : s.job.outcome ≠ none)
    (terminal : ∀ r ∈ late, r.isTerminal) :
    let t := s.run (late.map .report)
    t = s.showing ((lastCompleted? late).getD s.job.shown) ∧
    t.job.outcome = s.job.outcome ∧ t.job.events = s.job.events ∧
    (t = s ↔ ∀ p, lastCompleted? late = some p → p = s.job.shown) ∧
    (t.job.fraction = .one ↔ s.job.fraction = .one ∨ ∃ r ∈ late, r.completed? ≠ none) := by
  intro t
  have ht : t = s.showing ((lastCompleted? late).getD s.job.shown) :=
    run_late_reports ended late terminal
  rw [ht]
  refine ⟨rfl, showing_outcome .., showing_events .., ?_, ?_⟩
  · rw [showing_eq_self_iff]
    cases lastCompleted? late <;> simp
  · cases hlast : lastCompleted? late with
    | none =>
      have hnone : ¬∃ r ∈ late, r.completed? ≠ none := by
        simpa using lastCompleted?_eq_none_iff.1 hlast
      exact (or_iff_left hnone).symm
    | some p =>
      obtain ⟨r, hr, hp⟩ := exists_of_lastCompleted? hlast
      have hone : (s.showing p).job.fraction = .one := snd_of_completed? hp
      exact iff_of_true hone (.inr ⟨r, hr, by simp [hp]⟩)

/-- A job that is done, and one whose body has failed, both reported complete again. -/
theorem late_reports_ended :
    let begun := (fresh "copy" (Config.default fun _ => none)).run [.start, .beginBody]
    let done := begun.act (.report (.complete (some "first") (.plain "done") none))
    let failed := begun.act (.report (.error (.plain "failed")))
    let late : List JobReport :=
      [.complete (some "late") (.plain "again") none, .error (.plain "gone")]
    done.run (late.map .report) = done.showing (some "late", .one) ∧
      failed.run (late.map .report) = failed.showing (some "late", .one) :=
  ⟨(late_reports _ _ (Option.some_ne_none _) (by decide)).1,
    (late_reports _ _ (Option.some_ne_none _) (by decide)).1⟩

/-- A late completion of three jobs: one is done, one has failed and one was cancelled. -/
theorem late_completion_shown :
    let begun := (fresh "copy" (Config.default fun _ => none)).run [.start, .beginBody]
    let late : Act := .report (.complete (some "late") (.plain "again") none)
    let done := begun.act (.report (.complete (some "first") (.plain "done") none))
    let failed := begun.act (.report (.error (.plain "failed")))
    let cancelled := begun.run [.cancel, .callCleanup, .endCleanup .succeeded]
    (done.job.outcome = some (.done (some "first") (.plain "done") none) ∧
      (done.act late).job.outcome = done.job.outcome ∧
      done.job.shown = (some "first", .one) ∧ (done.act late).job.shown = (some "late", .one)) ∧
    (failed.job.outcome = some (.failed (.plain "failed")) ∧
      failed.job.shown = (none, .zero) ∧ (failed.act late).job.shown = (some "late", .one)) ∧
    (cancelled.job.outcome = some .cancelled ∧
      cancelled.job.shown = (none, .zero) ∧ (cancelled.act late).job.shown = (some "late", .one)) :=
  ⟨⟨rfl, rfl, rfl, rfl⟩, ⟨rfl, rfl, rfl⟩, ⟨rfl, rfl, rfl⟩⟩

end Scene
end PackageHandling
