import PackageHandling.Proofs.Job.Spread

/-!
# Timelines that match a scene

A scene shows the job of a timeline while a process is at it.  Whatever the process does next, the
scene has an act for it.
-/

namespace PackageHandling
namespace Timeline

variable {σ : Type}

/-- The timeline after a step of the job. -/
def taken (site : Worksite σ) (step : Job.Step) (t : Timeline σ) : Timeline σ :=
  t.put (site.tell (step (site.get t.state)).2 (site.put (step (site.get t.state)).1 t.state))

/-- The scene shows the job of the timeline: it owes what the process that is at it sees to and what
the others see to, and nobody sleeps through what it waits for. -/
structure Matches (site : Worksite σ) (t : Timeline σ) (busy : Bool) (ds : List Duty) (s : Scene) :
    Prop where
  job : s.job = site.get t.state
  now : s.now = t.now
  sane : s.Sane
  owes : ∃ es, t.Spread site es ∧ ∀ d, s.owes d = ds.count d + es.count d
  asleep : ∀ x ∈ t.paused, x.condition t.state = false
  mains : busy.toNat + t.mains ≤ 1

namespace Matches

variable {site : Worksite σ} {t : Timeline σ} {busy : Bool} {ds es : List Duty} {s : Scene}

theorem owes_pos (h : Matches site t busy ds s) {d : Duty} (hd : d ∈ ds) : 0 < s.owes d := by
  obtain ⟨es, -, howes⟩ := h.owes
  have := howes d
  have := List.count_pos_iff.2 hd
  omega

theorem mains_le (h : Matches site t busy ds s) : t.mains ≤ 1 := by
  have := h.mains
  omega

/-- What the scene trades, the process trades. -/
theorem owes_trade (h : Matches site t busy ds s) {s' : Scene} {out new ds' : List Duty}
    (htrades : s.Trades s' out new)
    (hds : ∀ d, ds'.count d + out.count d = ds.count d + new.count d) :
    ∃ es, t.Spread site es ∧ ∀ d, s'.owes d = ds'.count d + es.count d := by
  obtain ⟨es, hspread, howes⟩ := h.owes
  refine ⟨es, hspread, fun d => ?_⟩
  have := howes d
  have := htrades d
  have := hds d
  omega

theorem trade (h : Matches site t busy ds s) {s' : Scene} {out new ds' : List Duty}
    (hjob : s'.job = s.job) (hnow : s'.now = s.now) (hsane : s'.Sane)
    (htrades : s.Trades s' out new)
    (hds : ∀ d, ds'.count d + out.count d = ds.count d + new.count d) :
    Matches site t busy ds' s' :=
  ⟨hjob.trans h.job, hnow.trans h.now, hsane, h.owes_trade htrades hds, h.asleep, h.mains⟩

theorem put (h : Matches site t busy ds s) {s' : Scene} {out new ds' : List Duty} {x : σ}
    (hjob : s'.job = site.get x) (hnow : s'.now = s.now) (hsane : s'.Sane)
    (htrades : s.Trades s' out new)
    (hds : ∀ d, ds'.count d + out.count d = ds.count d + new.count d) :
    Matches site (t.put x) busy ds' s' := by
  obtain ⟨es, hspread, howes⟩ := h.owes_trade htrades hds
  refine ⟨hjob, hnow.trans h.now, hsane, ⟨es, hspread.put h.mains_le x, howes⟩, ?_, ?_⟩
  · intro y hy
    rw [put_eq] at hy
    simpa using (List.mem_filter.1 hy).2
  · rw [mains_put h.mains_le]
    exact h.mains

/-- The state has changed beside the job. -/
theorem put_beside (h : Matches site t busy ds s) {x : σ} (hx : site.get x = site.get t.state) :
    Matches site (t.put x) busy ds s := by
  have hnothing : s.Trades s [] [] := fun _ => rfl
  exact h.put (h.job.trans hx.symm) rfl h.sane hnothing fun _ => rfl

/-- A step of the job was taken, by the process and in the scene. -/
theorem take (h : Matches site t busy ds s) (lawful : site.Lawful) {step : Job.Step} {s' : Scene}
    {out new ds' : List Duty} (hjob : s'.job = (step s.job).1) (hnow : s'.now = s.now)
    (hsane : s'.Sane) (htrades : s.Trades s' out new)
    (hds : ∀ d, ds'.count d + out.count d = ds.count d + new.count d) :
    Matches site (taken site step t) busy ds' s' := by
  refine h.put ?_ hnow hsane htrades hds
  rw [lawful.get_tell, lawful.get_put, hjob, h.job]

theorem spawn (h : Matches site t busy (es ++ ds) s) {child : Process σ}
    (hchild : Discharges site t.now es child) :
    Matches site { t with ready := t.ready ++ [child] } busy ds s := by
  obtain ⟨fs, hspread, howes⟩ := h.owes
  refine ⟨h.job, h.now, h.sane, ⟨es ++ fs, hspread.push_ready hchild, ?_⟩, h.asleep, h.mains⟩
  intro d
  rw [howes, List.count_append, List.count_append]
  omega

theorem pause (h : Matches site t busy ds s) {condition : σ → Bool} {limit : Option Nat}
    {p : Process σ} (hcondition : condition t.state = false)
    (hrest : Resting site t.now ⟨busy, condition, limit.map (t.now + ·), p⟩ ds) :
    Matches site (t.pause busy condition limit p) false [] s := by
  obtain ⟨es, hspread, howes⟩ := h.owes
  refine ⟨h.job, h.now, h.sane, ⟨ds ++ es, hspread.push_paused hrest, ?_⟩, ?_, ?_⟩
  · intro d
    rw [howes, List.count_append, List.count_nil, Nat.zero_add]
  · intro x hx
    rcases List.mem_append.1 hx with hx | hx
    · exact h.asleep x hx
    · obtain rfl := List.mem_singleton.1 hx
      exact hcondition
  · have hmains := h.mains
    simp only [Timeline.mains, Timeline.pause, List.countP_append, List.countP_singleton]
      at hmains ⊢
    cases busy with
    | true =>
      simp only [Bool.toNat_true, Bool.toNat_false, if_true] at hmains ⊢
      omega
    | false =>
      simp only [Bool.toNat_false, Bool.false_eq_true, if_false] at hmains ⊢
      omega

theorem giveWay (h : Matches site t busy ds s) {p : Process σ} (hp : Discharges site t.now ds p) :
    Matches site (advance busy (.giveWay p) t) false [] s := by
  obtain ⟨es, hspread, howes⟩ := h.owes
  have howes' : ∀ d, s.owes d = ([] : List Duty).count d + (ds ++ es).count d := by
    intro d
    rw [howes, List.count_append, List.count_nil, Nat.zero_add]
  have hmains := h.mains
  cases busy with
  | true =>
    have hnone : t.main = none := by
      cases hmain : t.main with
      | none => rfl
      | some q =>
        rw [Timeline.mains, hmain, Option.toList_some, List.length_singleton, Bool.toNat_true]
          at hmains
        omega
    refine ⟨h.job, h.now, h.sane, ⟨ds ++ es, hspread.push_main hnone hp, howes'⟩, h.asleep, ?_⟩
    simp only [Timeline.mains, hnone] at hmains
    simp only [advance, Timeline.mains]
    simpa using hmains
  | false =>
    exact ⟨h.job, h.now, h.sane, ⟨ds ++ es, hspread.push_yielded hp, howes'⟩, h.asleep, hmains⟩

theorem stop (h : Matches site t busy [] s) : Matches site (advance busy .stop t) false [] s := by
  refine ⟨h.job, h.now, h.sane, h.owes, h.asleep, ?_⟩
  simpa [advance, Timeline.mains] using h.mains_le

theorem progress (h : Matches site t busy ds s) (lawful : site.Lawful) (hash : Option String)
    (fraction : Fraction) :
    Matches site (t.put (site.put ((site.get t.state).reportProgress hash fraction).1 t.state)) busy
      ((if ((site.get t.state).reportProgress hash fraction).2 then
        [.timer (t.now + (site.get t.state).progressInterval)] else []) ++ ds)
      (s.act (.report (.progress hash fraction))) := by
  refine h.put ?_ rfl (s.act_sane _ h.sane) (s.trades_progress hash fraction) fun d => ?_
  · rw [lawful.get_put, ← h.job]
    rfl
  · rw [← h.job, h.now, Job.reportProgress]
    cases s.job.flushPending with
    | true => simp
    | false => simp [List.count_cons]

theorem complete (h : Matches site t busy ds s) (lawful : site.Lawful) (hash : Option String)
    (reason : Reason) (result : Option Json) :
    Matches site (taken site (Job.reportComplete hash reason result) t) busy ds
      (s.act (.report (.complete hash reason result))) := by
  obtain ⟨outcome, events, hk⟩ := Job.reportComplete_frame hash reason result s.job
  exact h.take lawful rfl rfl (s.act_sane _ h.sane) (Scene.trades_finish (by rw [hk])) fun _ => rfl

theorem error (h : Matches site t busy ds s) (lawful : site.Lawful) (reason : Reason) :
    Matches site (taken site (Job.reportError reason) t) busy ds
      (s.act (.report (.error reason))) := by
  obtain ⟨outcome, events, hk⟩ := Job.reportError_frame reason s.job
  exact h.take lawful rfl rfl (s.act_sane _ h.sane) (Scene.trades_finish (by rw [hk])) fun _ => rfl

theorem fire (h : Matches site t busy (.timer t.now :: ds) s) (lawful : site.Lawful) :
    ∃ i, Matches site (taken site (fun j => (j.flush, [])) t) busy ds (s.act (.fire i)) := by
  have howes : 0 < s.timers.count t.now := h.owes_pos (List.mem_cons_self ..)
  obtain ⟨i, hi⟩ := List.mem_iff_getElem?.1 (List.count_pos_iff.1 howes)
  have hdue : ¬ s.now < t.now := by
    rw [h.now]
    exact Nat.lt_irrefl _
  have htrades := Scene.trades_fire hi (Nat.not_lt.1 hdue)
  refine ⟨i, h.take lawful ?_ ?_ (s.act_sane _ h.sane) htrades (Duty.count_discharged _ ds)⟩
  · simp [Scene.act, Scene.fire, hi, hdue, Scene.become]
  · simp [Scene.act, Scene.fire, hi, hdue, Scene.become]

theorem beginBody (h : Matches site t busy (.beginBody :: ds) s) :
    Matches site t busy (.endBody :: ds) (s.act .beginBody) := by
  have hbody : s.body = .scheduled := Scene.of_owed (h.owes_pos (List.mem_cons_self ..))
  refine h.trade ?_ ?_ (s.act_sane _ h.sane) (Scene.trades_beginBody hbody)
    (Duty.count_exchanged _ _ ds)
  · simp [Scene.act, hbody]
  · simp [Scene.act, hbody]

theorem endBody (h : Matches site t busy (.endBody :: ds) s) (lawful : site.Lawful) (e : BodyEnd) :
    Matches site (taken site (Job.endBody e) t) busy ds (s.act (.endBody e)) := by
  have hbody : s.body = .running := Scene.of_owed (h.owes_pos (List.mem_cons_self ..))
  refine h.take lawful ?_ ?_ (s.act_sane _ h.sane) (Scene.trades_endBody hbody e)
    (Duty.count_discharged _ ds)
  · simp [Scene.act, hbody, Scene.become]
  · simp [Scene.act, hbody, Scene.become]

theorem start (h : Matches site t busy ds s) (lawful : site.Lawful) {j : Job} {log : List LogEvent}
    (hstart : (site.get t.state).start = .ok (j, log)) :
    Matches site (t.put (site.tell log (site.put j t.state))) busy (.beginBody :: ds)
      (s.act .start) := by
  rw [← h.job] at hstart
  refine h.put ?_ ?_ (s.act_sane _ h.sane) (Scene.trades_start h.sane hstart)
    (Duty.count_taken _ ds)
  · rw [lawful.get_tell, lawful.get_put]
    simp [Scene.act, hstart]
  · simp [Scene.act, hstart]

theorem request (h : Matches site t busy ds s) (lawful : site.Lawful) :
    Matches site (t.put (site.put (site.get t.state).requestCancel.1 t.state)) busy
      ((if (site.get t.state).requestCancel.2 then [.callCleanup] else []) ++
        .answerCancel s.cancels.length (site.get t.state).requestCancel.2 :: ds)
      (s.act .cancel) := by
  refine h.put ?_ rfl (s.act_sane _ h.sane) s.trades_cancel fun d => ?_
  · rw [lawful.get_put, ← h.job]
    rfl
  · rw [h.job]
    simp only [List.count_append, List.count_cons, List.count_nil]
    omega

theorem callCleanup (h : Matches site t busy (.callCleanup :: ds) s) (lawful : site.Lawful) :
    Matches site (taken site Job.beginCleanup t) busy
      (.endCleanup (t.now + (site.get (taken site Job.beginCleanup t).state).cancelTimeout) :: ds)
      (s.act .callCleanup) := by
  have hrequested : s.job.cleanup = .requested := Scene.of_owed (h.owes_pos (List.mem_cons_self ..))
  have htimeout : (site.get (taken site Job.beginCleanup t).state).cancelTimeout =
      s.job.cancelTimeout := by
    rw [taken, state_put, lawful.get_tell, lawful.get_put, h.job]
    rfl
  have htrades := Scene.trades_callCleanup hrequested h.sane
  rw [htimeout, ← h.now]
  refine h.take lawful ?_ ?_ (s.act_sane _ h.sane) htrades (Duty.count_exchanged _ _ ds)
  · simp [Scene.act, hrequested]
  · simp [Scene.act, hrequested]

theorem endCleanup {due : Nat} (h : Matches site t busy (.endCleanup due :: ds) s)
    (lawful : site.Lawful) (e : CleanupEnd) :
    Matches site (taken site (fun j => (j.endCleanup, [])) (taken site (Job.settleCleanup e) t))
      busy ds (s.act (.endCleanup e)) := by
  have hdue : s.cleanupDue = some due := Scene.of_owed (h.owes_pos (List.mem_cons_self ..))
  have hrunning : s.job.cleanup = .running := h.sane.cleanup.1 (by rw [hdue]; rfl)
  obtain ⟨outcome, events, cancelError, hk⟩ := Job.settleCleanup_frame e s.job
  have hcleanup : (Job.settleCleanup e s.job).1.cleanup = s.job.cleanup := by rw [hk]
  have hsettled : s.Trades (s.become (Job.settleCleanup e s.job).1) [] [] :=
    Scene.trades_finish hcleanup
  have hmiddle : Matches site (taken site (Job.settleCleanup e) t) busy (.endCleanup due :: ds)
      (s.become (Job.settleCleanup e s.job).1) :=
    h.take lawful rfl rfl (h.sane.become (by rw [hk]) hcleanup) hsettled fun _ => rfl
  have htrades : (s.become (Job.settleCleanup e s.job).1).Trades (s.act (.endCleanup e))
      [.endCleanup due] [] := by
    intro d
    have := hsettled d
    have := Scene.trades_endCleanup hrunning hdue e d
    simp only [List.count_nil] at *
    omega
  refine hmiddle.take lawful ?_ ?_ (s.act_sane _ h.sane) htrades (Duty.count_discharged _ ds)
  · simp [Scene.act, hrunning, Scene.become]
  · simp [Scene.act, hrunning, Scene.become]

theorem told {i : Nat} {first : Bool} (h : Matches site t busy (.answerCancel i first :: ds) s)
    (lawful : site.Lawful) (k : Option (Except Failure Unit) → Process σ) :
    ∃ r a u, advance busy (site.told first k (site.cleanupEnded t.state)) t = advance busy (k r) u ∧
      u.now = t.now ∧ Matches site u busy ds (s.act a) := by
  have hwaiting := Scene.waiting_of_owes_cancel (h.owes_pos (List.mem_cons_self ..))
  have hds := Duty.count_discharged (.answerCancel i first) ds
  by_cases hended : s.job.cleanup = .ended
  · have hsite : site.cleanupEnded t.state = true := by
      rw [Worksite.cleanupEnded, ← h.job, hended]
      rfl
    rw [hsite]
    cases first with
    | false =>
      have hact : s.act (.answerCancel i) =
          { s with cancels := s.cancels.set i (false, .returned (.ok ())) } := by
        simp only [Scene.act, Scene.answerCancel, hwaiting, hended]
      have htrades := Scene.trades_ended_cancel hwaiting (Call.isWaiting_returned _) hact rfl
      exact ⟨some (.ok ()), _, t, rfl, rfl,
        h.trade (by rw [hact]) (by rw [hact]) (s.act_sane _ h.sane) htrades hds⟩
    | true =>
      have hact : s.act (.answerCancel i) = { s with
          job := s.job.takeCancelError.1
          cancels := s.cancels.set i (true, .returned s.job.takeCancelError.2) } := by
        simp only [Scene.act, Scene.answerCancel, hwaiting, hended]
      have hjob : (s.act (.answerCancel i)).job = s.job.takeCancelError.1 := by rw [hact]
      have hcleanup : s.job.takeCancelError.1.cleanup = s.job.cleanup := by
        rw [Job.takeCancelError]
        split <;> rfl
      have htrades := Scene.trades_ended_cancel hwaiting (Call.isWaiting_returned _) hact hcleanup
      refine ⟨some (site.get t.state).takeCancelError.2, _,
        t.put (site.put (site.get t.state).takeCancelError.1 t.state), rfl, rfl,
        h.put ?_ (by rw [hact]) (s.act_sane _ h.sane) htrades hds⟩
      rw [lawful.get_put, hjob, h.job]
  · have hsite : site.cleanupEnded t.state = false := by
      rw [Worksite.cleanupEnded, ← h.job]
      exact decide_eq_false hended
    rw [hsite]
    have hact : s.act (.leaveCancel i) = { s with cancels := s.cancels.set i (first, .left) } := by
      simp only [Scene.act, Scene.leaveCancel, hwaiting]
    have htrades := Scene.trades_ended_cancel hwaiting Call.isWaiting_left hact rfl
    exact ⟨none, _, t, rfl, rfl,
      h.trade (by rw [hact]) (by rw [hact]) (s.act_sane _ h.sane) htrades hds⟩

theorem wait (h : Matches site t busy ds s) :
    Matches site t busy (.answerWait s.waits.length :: ds) (s.act .wait) :=
  h.trade rfl rfl (s.act_sane _ h.sane) s.trades_wait (Duty.count_taken _ ds)

theorem answerWait {i : Nat} (h : Matches site t busy (.answerWait i :: ds) s) :
    ∃ a, Matches site t busy ds (s.act a) := by
  have hwaiting := Scene.waiting_of_owes_wait (h.owes_pos (List.mem_cons_self ..))
  have hds := Duty.count_discharged (.answerWait i) ds
  cases houtcome : s.job.outcome with
  | none =>
    have hact : s.act (.leaveWait i) = { s with waits := s.waits.set i .left } := by
      simp only [Scene.act, Scene.leaveWait, hwaiting]
    have htrades := Scene.trades_ended_wait hwaiting Call.isWaiting_left hact
    exact ⟨_, h.trade (by rw [hact]) (by rw [hact]) (s.act_sane _ h.sane) htrades hds⟩
  | some o =>
    have hact : s.act (.answerWait i) = { s with waits := s.waits.set i (.returned o) } := by
      simp only [Scene.act, Scene.answerWait, hwaiting, houtcome]
    have htrades := Scene.trades_ended_wait hwaiting (Call.isWaiting_returned o) hact
    exact ⟨_, h.trade (by rw [hact]) (by rw [hact]) (s.act_sane _ h.sane) htrades hds⟩

end Matches
end Timeline
end PackageHandling
