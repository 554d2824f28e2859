import PackageHandling.Proofs.Job.Matching

/-!
# Jobs on a timeline

Whatever processes share a job on a timeline, as long as they keep to its worksite: the job goes
through the acts of a scene, at the same times.  What holds in every scene of a job thus holds on
every timeline, which is the main statement, `run_is_scene`.
-/

namespace PackageHandling
namespace Timeline

variable {σ : Type} {site : Worksite σ} {t u : Timeline σ} {s : Scene}

theorem advance_matches (lawful : site.Lawful) {now : Nat} {ds : List Duty} {p : Process σ}
    (hp : Discharges site now ds p) {busy : Bool} (h : Matches site t busy ds s)
    (hnow : t.now = now) :
    ∃ acts, Matches site (advance busy p t) false [] (s.run acts) := by
  induction hp generalizing t s with
  | stop now => exact ⟨[], h.stop⟩
  | look next ih =>
    subst hnow
    exact ih t.state h rfl
  | @own now ds α f k same next ih =>
    exact ih (f t.now t.state).1 (h.put_beside (same t.now t.state)) hnow
  | @wait now ds ms p rests next ih =>
    rw [advance]
    split
    · next hzero =>
      subst hzero
      exact ih h hnow
    · subst hnow
      refine ⟨[], h.pause rfl ⟨?_, ?_, rests⟩⟩
      · rintro later - (hdeadline | ⟨x, hx⟩)
        · cases hdeadline
          exact next
        · cases hx
      · rintro l hl
        cases hl
        exact Nat.le_add_right _ _
  | @await now ds condition limit p rests next ih =>
    rw [advance]
    split
    · exact ih now (Nat.le_refl _) h hnow
    · next hneither =>
      subst hnow
      rw [Bool.or_eq_true, not_or] at hneither
      refine ⟨[], h.pause (by simpa using hneither.1) ⟨?_, ?_, rests⟩⟩
      · exact fun later hlater _ => next later hlater
      · intro l hl
        obtain ⟨ms, -, rfl⟩ := Option.map_eq_some_iff.1 hl
        exact Nat.le_add_right _ _
  | spawn spawned next _ ih =>
    subst hnow
    exact ih (h.spawn spawned) rfl
  | giveWay next _ =>
    subst hnow
    exact ⟨[], h.giveWay next⟩
  | @progress now ds hash fraction k next ih =>
    subst hnow
    obtain ⟨acts, hacts⟩ := ih _ _ (h.progress lawful hash fraction) rfl
    exact ⟨.report (.progress hash fraction) :: acts, hacts⟩
  | flush next ih =>
    subst hnow
    obtain ⟨i, hfire⟩ := h.fire lawful
    obtain ⟨acts, hacts⟩ := ih hfire rfl
    exact ⟨.fire i :: acts, hacts⟩
  | @complete now ds hash reason result p next ih =>
    obtain ⟨acts, hacts⟩ := ih (h.complete lawful hash reason result) hnow
    exact ⟨.report (.complete hash reason result) :: acts, hacts⟩
  | @error now ds reason p next ih =>
    obtain ⟨acts, hacts⟩ := ih (h.error lawful reason) hnow
    exact ⟨.report (.error reason) :: acts, hacts⟩
  | @start now ds body k spawned next _ ih =>
    rw [Worksite.start, advance]
    split
    · exact ih _ h hnow
    · next j log hstart =>
      subst hnow
      have hstarted : Matches site (t.put (site.tell log (site.put j t.state))) busy
          ([.beginBody] ++ ds) (s.act .start) := h.start lawful hstart
      obtain ⟨acts, hacts⟩ := ih (.ok ()) (hstarted.spawn spawned) rfl
      exact ⟨.start :: acts, hacts⟩
  | beginBody next ih =>
    obtain ⟨acts, hacts⟩ := ih h.beginBody hnow
    exact ⟨.beginBody :: acts, hacts⟩
  | @endBody now ds e p next ih =>
    obtain ⟨acts, hacts⟩ := ih (h.endBody lawful e) hnow
    exact ⟨.endBody e :: acts, hacts⟩
  | request next ih =>
    obtain ⟨acts, hacts⟩ := ih _ _ (h.request lawful) hnow
    exact ⟨.cancel :: acts, hacts⟩
  | callCleanup next ih =>
    subst hnow
    obtain ⟨acts, hacts⟩ := ih _ (h.callCleanup lawful) rfl
    exact ⟨.callCleanup :: acts, hacts⟩
  | @endCleanup now due ds e p next ih =>
    obtain ⟨acts, hacts⟩ := ih (h.endCleanup lawful e) hnow
    exact ⟨.endCleanup e :: acts, hacts⟩
  | @answerCancel now i first ds k next ih =>
    obtain ⟨r, a, u, hadvance, hu, htold⟩ := h.told lawful k
    obtain ⟨acts, hacts⟩ := ih r htold (hu.trans hnow)
    exact ⟨a :: acts, hadvance ▸ hacts⟩
  | wantOutcome next ih =>
    obtain ⟨acts, hacts⟩ := ih _ h.wait hnow
    exact ⟨.wait :: acts, hacts⟩
  | answerWait next ih =>
    obtain ⟨a, hanswer⟩ := h.answerWait
    obtain ⟨acts, hacts⟩ := ih _ hanswer hnow
    exact ⟨a :: acts, hacts⟩

namespace Matches

/-- When nobody is ready, the scene may let pass the time up to the next deadline. -/
theorem idle (h : Matches site t false [] s)
    (hnobody : t.main = none ∧ t.ready = [] ∧ t.yielded = []) {time : Nat}
    (htime : ∀ x ∈ t.paused, ∀ l ∈ x.deadline, time ≤ l) :
    s.idle (max t.now time - t.now) = true := by
  obtain ⟨es, hspread, howes⟩ := h.owes
  have hresting : ∀ d, 0 < s.owes d → ∃ x ∈ t.paused, ∃ fs, Resting site t.now x fs ∧ d ∈ fs := by
    intro d hd
    rw [howes, List.count_nil, Nat.zero_add] at hd
    exact hspread.exists_resting hnobody (List.count_pos_iff.1 hd)
  have hlimit : ∀ x fs due, x ∈ t.paused → Resting site t.now x fs →
      (∃ l, x.deadline = some l ∧ l ≤ due) → s.now + (max t.now time - t.now) ≤ due := by
    rintro x fs due hx hrest ⟨l, hl, hle⟩
    have := hrest.deadline l hl
    have := htime x hx l hl
    have := h.now
    omega
  have htimers : ∀ due ∈ s.timers, s.now + (max t.now time - t.now) ≤ due := by
    intro due hdue
    obtain ⟨x, hx, fs, hrest, hmem⟩ := hresting (.timer due) (List.count_pos_iff.2 hdue)
    exact hlimit x fs due hx hrest (hrest.rests _ hmem)
  have hcleanup : ∀ due, s.cleanupDue = some due → s.now + (max t.now time - t.now) ≤ due := by
    intro due hdue
    obtain ⟨x, hx, fs, hrest, hmem⟩ := hresting (.endCleanup due) (by simp [Scene.owes, hdue])
    exact hlimit x fs due hx hrest (hrest.rests _ hmem)
  have hbody : s.body ≠ .scheduled := by
    intro hscheduled
    obtain ⟨x, hx, fs, hrest, hmem⟩ := hresting .beginBody (by simp [Scene.owes, hscheduled])
    exact hrest.rests _ hmem
  have hrequested : s.job.cleanup ≠ .requested := by
    intro hrequested
    obtain ⟨x, hx, fs, hrest, hmem⟩ := hresting .callCleanup (by simp [Scene.owes, hrequested])
    exact hrest.rests _ hmem
  -- Whoever waits for what is there would have been woken by it.
  have hcancels : s.job.cleanup = .ended → ∀ c ∈ s.cancels, c.2.isWaiting = false := by
    intro hended c hc
    cases hwaiting : c.2.isWaiting with
    | false => rfl
    | true =>
      obtain ⟨i, hi⟩ := List.mem_iff_getElem?.1 hc
      obtain ⟨x, hx, fs, hrest, hmem⟩ :=
        hresting (.answerCancel i c.1) (by simp [Scene.owes, hi, hwaiting])
      have hcondition : x.condition = site.cleanupEnded := hrest.rests _ hmem
      have hasleep := h.asleep x hx
      rw [hcondition, Worksite.cleanupEnded, ← h.job, hended] at hasleep
      exact absurd hasleep (by simp)
  have hwaits : s.job.ended = true → ∀ c ∈ s.waits, c.isWaiting = false := by
    intro hended c hc
    cases hwaiting : c.isWaiting with
    | false => rfl
    | true =>
      obtain ⟨i, hi⟩ := List.mem_iff_getElem?.1 hc
      obtain ⟨x, hx, fs, hrest, hmem⟩ :=
        hresting (.answerWait i) (by simp [Scene.owes, hi, hwaiting])
      have hcondition : x.condition = fun y => (site.get y).ended := hrest.rests _ hmem
      have hasleep := h.asleep x hx
      simp only [hcondition, ← h.job, hended] at hasleep
      cases hasleep
  simp only [Scene.idle, Bool.and_eq_true, Bool.not_eq_true', bne_iff_ne, ne_eq, List.all_eq_true,
    Option.all_eq_true, decide_eq_true_eq, Bool.and_eq_false_iff, List.any_eq_false,
    beq_eq_false_iff_ne]
  refine ⟨⟨⟨⟨⟨htimers, hcleanup⟩, hbody⟩, hrequested⟩, ?_⟩, ?_⟩
  · by_cases hended : s.job.cleanup = .ended
    · exact .inr fun c hc => by simp [hcancels hended c hc]
    · exact .inl hended
  · cases hended : s.job.ended with
    | true => exact .inr fun c hc => by simp [hwaits hended c hc]
    | false => exact .inl rfl

theorem jump (h : Matches site t false [] s)
    (hnobody : t.main = none ∧ t.ready = [] ∧ t.yielded = []) {time : Nat}
    (htime : ∀ x ∈ t.paused, ∀ l ∈ x.deadline, time ≤ l) :
    Matches site (t.jump time) false [] (s.act (.pass (max t.now time - t.now))) := by
  have hact : s.act (.pass (max t.now time - t.now)) = { s with now := max t.now time } := by
    have hnow : s.now + (max t.now time - t.now) = max t.now time := by
      have := h.now
      omega
    simp only [Scene.act, if_pos (h.idle hnobody htime), hnow]
  obtain ⟨es, hspread, howes⟩ := h.owes
  rw [hact]
  refine ⟨h.job, rfl, ⟨h.sane.body, h.sane.cleanup⟩,
    ⟨es, hspread.jump h.mains_le hnobody htime, howes⟩, ?_, ?_⟩
  · intro x hx
    rw [jump_eq] at hx
    exact h.asleep x (List.mem_filter.1 hx).1
  · rw [mains_jump h.mains_le]
    exact h.mains

theorem main (h : Matches site t false [] s) {p : Process σ} (hmain : t.main = some p) :
    ∃ ds, Discharges site t.now ds p ∧
      Matches site { t with main := none, mainHadTurn := true } true ds s := by
  obtain ⟨es, hspread, howes⟩ := h.owes
  obtain ⟨ds, fs, hp, hrest, hcount⟩ := hspread.pop_main hmain
  refine ⟨ds, hp, h.job, h.now, h.sane, ⟨fs, hrest, fun d => ?_⟩, h.asleep, ?_⟩
  · rw [howes, hcount, List.count_nil, Nat.zero_add]
  · have hmains := h.mains
    rw [Timeline.mains, hmain] at hmains
    simpa [Timeline.mains] using hmains

theorem ready (h : Matches site t false [] s) {p : Process σ} {rest : List (Process σ)}
    (hready : t.ready = p :: rest) :
    ∃ ds, Discharges site t.now ds p ∧ Matches site { t with ready := rest } false ds s := by
  obtain ⟨es, hspread, howes⟩ := h.owes
  obtain ⟨ds, fs, hp, hrest, hcount⟩ := hspread.pop_ready hready
  refine ⟨ds, hp, h.job, h.now, h.sane, ⟨fs, hrest, fun d => ?_⟩, h.asleep, h.mains⟩
  rw [howes, hcount, List.count_nil, Nat.zero_add]

theorem round (h : Matches site t false [] s) (hready : t.ready = []) :
    Matches site { t with ready := t.yielded, yielded := [], mainHadTurn := false } false [] s := by
  obtain ⟨es, hspread, howes⟩ := h.owes
  exact ⟨h.job, h.now, h.sane, ⟨es, hspread.round hready, howes⟩, h.asleep, h.mains⟩

theorem mainHadTurn (h : Matches site t false [] s) (b : Bool) :
    Matches site { t with mainHadTurn := b } false [] s :=
  ⟨h.job, h.now, h.sane, h.owes, h.asleep, h.mains⟩

end Matches

/-- One turn of the timeline is some acts of the scene. -/
theorem turn_matches (lawful : site.Lawful) (h : Matches site t false [] s)
    (hturn : t.turn = some u) : ∃ acts, Matches site u false [] (s.run acts) := by
  rw [turn] at hturn
  split at hturn
  · cases hturn
  · split at hturn
    · split at hturn
      · next p hmain =>
        cases hturn
        obtain ⟨ds, hp, hmatches⟩ := h.main hmain
        exact advance_matches lawful hp hmatches rfl
      · cases hturn
        exact ⟨[], h.mainHadTurn true⟩
    · split at hturn
      · next p rest hready =>
        cases hturn
        obtain ⟨ds, hp, hmatches⟩ := h.ready hready
        exact advance_matches lawful hp hmatches rfl
      · next hready =>
        split at hturn
        · next hidle =>
          obtain ⟨time, htime, rfl⟩ := Option.map_eq_some_iff.1 hturn
          rw [Bool.and_eq_true, List.isEmpty_iff, Option.isNone_iff_eq_none] at hidle
          have hfirst : ∀ x ∈ t.paused, ∀ l ∈ x.deadline, time ≤ l := by
            intro x hx l hl
            exact (List.min?_eq_some_iff.1 htime).2 l (List.mem_filterMap.2 ⟨x, hx, hl⟩)
          have hjump := h.jump ⟨hidle.2, hready, hidle.1⟩ hfirst
          exact ⟨[.pass (max t.now time - t.now)], hjump.mainHadTurn false⟩
        · cases hturn
          exact ⟨[], h.round hready⟩

theorem run_matches (lawful : site.Lawful) (h : Matches site t false [] s) (fuel : Nat) :
    ∃ acts, Matches site (t.run fuel) false [] (s.run acts) := by
  induction fuel generalizing t s with
  | zero => exact ⟨[], h⟩
  | succ fuel ih =>
    rw [run]
    split
    · next u hturn =>
      obtain ⟨acts, hacts⟩ := turn_matches lawful h hturn
      obtain ⟨more, hmore⟩ := ih hacts
      refine ⟨acts ++ more, ?_⟩
      rw [Scene.run_append]
      exact hmore
    · exact ⟨[], h⟩

theorem start_matches {label : String} {config : Config} {x : σ}
    (hjob : site.get x = .create label config) {p : Process σ} (hp : Discharges site 0 [] p) :
    Matches site (Timeline.start x p) false [] (Scene.fresh label config) := by
  refine ⟨hjob.symm, rfl, ⟨fun _ => rfl, ?_⟩, ⟨[], ?_, ?_⟩, ?_, Nat.le_refl 1⟩
  · simp [Scene.fresh, Job.create]
  · exact ⟨[], [], [], [], .single hp, .nil, .nil, .nil, fun _ => rfl⟩
  · intro d
    cases d <;> simp [Scene.owes, Scene.fresh, Job.create]
  · intro y hy
    cases hy

/-- However processes share a job on a timeline, if they keep to its worksite, the job goes through
the acts of a scene. -/
theorem run_is_scene (lawful : site.Lawful) {label : String} {config : Config} {x : σ}
    (hjob : site.get x = .create label config) {p : Process σ} (hp : Discharges site 0 [] p)
    (fuel : Nat) :
    let v := (Timeline.start x p).run fuel
    ∃ acts, ((Scene.fresh label config).run acts).job = site.get v.state ∧
      ((Scene.fresh label config).run acts).now = v.now := by
  obtain ⟨acts, hacts⟩ := run_matches lawful (start_matches hjob hp) fuel
  exact ⟨acts, hacts.job, hacts.now⟩

end Timeline
end PackageHandling
