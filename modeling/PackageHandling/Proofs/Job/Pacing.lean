import PackageHandling.Proofs.Job.Outcome

/-!
# The pace of progress events

A report of progress arms a timer unless one is armed, and the timer that fires shows the latest
values.  Whatever else happens to the job, its progress events keep their distance, each of them
tells what was reported last, and until the job ends no report is lost: the main statement is
`progress_paced`.
-/

namespace PackageHandling

abbrev Progress := Option String × Fraction

/-- What is shown of a report: its hash, and its fraction held between 0 and 1. -/
def Progress.Tells (reported shown : Progress) : Prop :=
  shown.1 = reported.1 ∧ reported.2.Clamped shown.2

theorem Progress.tells_clamp (hash : Option String) (fraction : Fraction) :
    Progress.Tells (hash, fraction) (hash, fraction.clamp) :=
  ⟨rfl, fraction.clamped_clamp⟩

namespace Happening

def reported? : Happening → Option Progress
  | reported hash fraction => some (hash, fraction)
  | emitted _ => none

def emitted? : Happening → Option JobEvent
  | emitted e => some e
  | reported .. => none

def shown? : Happening → Option Progress
  | emitted (.progress hash fraction) => some (hash, fraction)
  | _ => none

end Happening

def Act.reported? : Act → Option Progress
  | report (.progress hash fraction) => some (hash, fraction)
  | _ => none

abbrev History := List (Nat × Happening)

namespace History

def emissions (l : History) : List JobEvent := l.filterMap (·.2.emitted?)

def reports (l : History) : List Progress := l.filterMap (·.2.reported?)

def lastReport (l : History) : Option Progress := l.reports.getLast?

def lastShown (l : History) : Option Progress := (l.filterMap (·.2.shown?)).getLast?

def showings (l : History) : List Nat := (l.filter (·.2.shown?.isSome)).map (·.1)

variable (l : History) (t : Nat)

theorem emissions_reported (hash : Option String) (fraction : Fraction) :
    emissions (l ++ [(t, .reported hash fraction)]) = emissions l := by
  simp [emissions, Happening.emitted?]

theorem emissions_emitted (e : JobEvent) :
    emissions (l ++ [(t, .emitted e)]) = emissions l ++ [e] := by
  simp [emissions, Happening.emitted?]

theorem lastReport_reported (hash : Option String) (fraction : Fraction) :
    lastReport (l ++ [(t, .reported hash fraction)]) = some (hash, fraction) := by
  simp [lastReport, reports, Happening.reported?]

theorem lastReport_emitted (e : JobEvent) : lastReport (l ++ [(t, .emitted e)]) = lastReport l := by
  simp [lastReport, reports, Happening.reported?]

theorem lastShown_progress (hash : Option String) (fraction : Fraction) :
    lastShown (l ++ [(t, .emitted (.progress hash fraction))]) = some (hash, fraction) := by
  simp [lastShown, Happening.shown?]

theorem showings_progress (hash : Option String) (fraction : Fraction) :
    showings (l ++ [(t, .emitted (.progress hash fraction))]) = showings l ++ [t] := by
  simp [showings, Happening.shown?]

theorem showings_of_not_shown {x : Nat × Happening} (h : x.2.shown? = none) :
    showings (l ++ [x]) = showings l := by
  simp [showings, h]

/-- Each progress event shows what was reported last before it. -/
def UpToDate (l : History) : Prop :=
  ∀ before x after v, l = before ++ x :: after → x.2.shown? = some v →
    ∃ r ∈ lastReport before, Progress.Tells r v

/-- Within the interval something is shown: the values of this report or those of a later one. -/
def Follows (interval : Nat) (x : Nat × Happening) (after : History) : Prop :=
  ∃ between y rest v, after = between ++ y :: rest ∧ y.1 ≤ x.1 + interval ∧
    y.2.shown? = some v ∧ ∃ r ∈ lastReport (x :: between), Progress.Tells r v

variable {l : History} {x y : Nat × Happening}

theorem split_append_singleton {before after : History} (h : l ++ [y] = before ++ x :: after) :
    (before = l ∧ x = y ∧ after = []) ∨
      ∃ after', l = before ++ x :: after' ∧ after = after' ++ [y] := by
  rcases List.eq_nil_or_concat after with rfl | ⟨after', z, rfl⟩
  · obtain ⟨rfl, hy⟩ := List.append_inj' h rfl
    cases hy
    exact .inl ⟨rfl, rfl, rfl⟩
  · rw [List.concat_eq_append, ← List.cons_append, ← List.append_assoc] at h
    obtain ⟨rfl, hz⟩ := List.append_inj' h rfl
    cases hz
    exact .inr ⟨after', rfl, List.concat_eq_append⟩

/-- What was reported before a report does not count any more. -/
theorem lastReport_of_reported (before after : History) (h : x.2.reported? ≠ none) :
    lastReport (before ++ x :: after) = lastReport (x :: after) := by
  obtain ⟨v, hv⟩ := Option.ne_none_iff_exists'.1 h
  simp [lastReport, reports, hv, List.getLast?_append, List.getLast?_cons]

theorem UpToDate.append (h : UpToDate l)
    (hx : ∀ v, x.2.shown? = some v → ∃ r ∈ lastReport l, Progress.Tells r v) :
    UpToDate (l ++ [x]) := by
  intro before y after v hsplit hv
  rcases split_append_singleton hsplit with ⟨rfl, rfl, -⟩ | ⟨after', hl, -⟩
  · exact hx v hv
  · exact h before y after' v hl hv

/-- Showing the last report now follows every report that the interval has not run out for. -/
theorem follows_shown {interval : Nat} {before after : History} {r v : Progress}
    (hx : x.2.reported? ≠ none) (hlast : lastReport (before ++ x :: after) = some r)
    (htells : Progress.Tells r v) (htime : y.1 ≤ x.1 + interval) (hshown : y.2.shown? = some v) :
    Follows interval x (after ++ [y]) :=
  ⟨after, y, [], v, rfl, htime, hshown, r, (lastReport_of_reported before after hx) ▸ hlast, htells⟩

theorem Follows.append {interval : Nat} {after : History} (h : Follows interval x after)
    (y : Nat × Happening) : Follows interval x (after ++ [y]) := by
  obtain ⟨between, z, rest, v, rfl, htime, hshown, hlast⟩ := h
  exact ⟨between, z, rest ++ [y], v, by simp, htime, hshown, hlast⟩

end History

/-- The part of a scene that its progress events depend on. -/
structure Pacer where
  interval : Nat
  now : Nat
  timers : List Nat
  pending : Bool
  latest : Progress
  ended : Bool
  events : List JobEvent
  history : History

namespace Pacer

open History

variable (p : Pacer)

def report (hash : Option String) (fraction : Fraction) : Pacer :=
  { p with
    timers := p.timers ++ if p.pending then [] else [p.now + p.interval]
    pending := true
    latest := (hash, fraction.clamp)
    history := p.history ++ [(p.now, .reported hash fraction)] }

def fire (i : Nat) : Pacer :=
  { p with
    timers := p.timers.eraseIdx i
    pending := false
    events := p.events ++ if p.ended then [] else [.progress p.latest.1 p.latest.2]
    history := p.history ++
      if p.ended then [] else [(p.now, .emitted (.progress p.latest.1 p.latest.2))] }

def finish (latest : Progress) (event : Option JobEvent) : Pacer :=
  { p with
    latest
    ended := true
    events := p.events ++ event.toList
    history := p.history ++ event.toList.map fun e => (p.now, .emitted e) }

def pass (ms : Nat) : Pacer := { p with now := p.now + ms }

variable {p}

inductive Step (p : Pacer) : Pacer → Prop
  | rest : Step p p
  | report (hash : Option String) (fraction : Fraction) : Step p (p.report hash fraction)
  | fire (i due : Nat) (armed : p.timers[i]? = some due) (isDue : due ≤ p.now) : Step p (p.fire i)
  | finish (latest : Progress) (event : Option JobEvent) (terminal : ∀ e ∈ event, e.isTerminal) :
    Step p (p.finish latest event)
  | pass (ms : Nat) (nothingDue : ∀ due ∈ p.timers, p.now + ms ≤ due) : Step p (p.pass ms)

theorem Step.interval {q : Pacer} (h : p.Step q) : q.interval = p.interval := by
  cases h <;> rfl

/-- The one armed timer is what keeps the events apart and lets no report be lost. -/
structure Paced (p : Pacer) : Prop where
  timer : p.timers = [] ∧ p.pending = false ∨
    ∃ due, p.timers = [due] ∧ p.pending = true ∧ p.now ≤ due ∧ due ≤ p.now + p.interval
  past : ∀ t ∈ showings p.history, t ≤ p.now
  ahead : ∀ due ∈ p.timers, ∀ t ∈ showings p.history, t + p.interval ≤ due
  spaced : (showings p.history).Pairwise (· + p.interval ≤ ·)
  told : emissions p.history = p.events
  upToDate : UpToDate p.history
  latest : p.ended = false → (∃ r ∈ lastReport p.history, Progress.Tells r p.latest) ∨
    (lastReport p.history = none ∧ p.timers = [])
  followed : p.ended = false → ∀ before x after, p.history = before ++ x :: after →
    x.2.reported? ≠ none →
    (∃ due ∈ p.timers, due ≤ x.1 + p.interval) ∨ Follows p.interval x after
  settled : p.ended = false → p.timers = [] →
    Option.Rel Progress.Tells (lastReport p.history) (lastShown p.history)

namespace Paced

theorem report (h : p.Paced) (hash : Option String) (fraction : Fraction) :
    (p.report hash fraction).Paced := by
  have hshowings : showings (p.history ++ [(p.now, .reported hash fraction)]) =
      showings p.history := showings_of_not_shown _ rfl
  -- The timer that the report finds or arms, which is due within the interval.
  obtain ⟨due, htimers, hnow, hdue, hahead⟩ : ∃ due,
      (p.timers ++ if p.pending then [] else [p.now + p.interval]) = [due] ∧ p.now ≤ due ∧
        due ≤ p.now + p.interval ∧ ∀ t ∈ showings p.history, t + p.interval ≤ due := by
    rcases h.timer with ⟨htimers, hpending⟩ | ⟨due, htimers, hpending, hnow, hdue⟩
    · refine ⟨p.now + p.interval, by simp [htimers, hpending], by omega, Nat.le_refl _, ?_⟩
      intro t ht
      have := h.past t ht
      omega
    · exact ⟨due, by simp [htimers, hpending], hnow, hdue, h.ahead due (by simp [htimers])⟩
  simp only [Pacer.report, htimers]
  refine ⟨.inr ⟨due, rfl, rfl, hnow, hdue⟩, ?_, ?_, ?_, ?_, ?_, ?_, ?_, ?_⟩
  · simpa only [hshowings] using h.past
  · intro due' hmem
    obtain rfl := List.mem_singleton.1 hmem
    simpa only [hshowings] using hahead
  · simpa only [hshowings] using h.spaced
  · exact (emissions_reported ..).trans h.told
  · exact h.upToDate.append fun v hv => by cases hv
  · exact fun _ => .inl ⟨_, lastReport_reported .., Progress.tells_clamp ..⟩
  · intro hended before y after hsplit hy
    rcases split_append_singleton hsplit with ⟨-, rfl, -⟩ | ⟨after', hl, rfl⟩
    · exact .inl ⟨due, by simp, hdue⟩
    · rcases h.followed hended before y after' hl hy with ⟨due', hmem, hle⟩ | hfollows
      · rcases h.timer with ⟨hnone, -⟩ | ⟨due'', hone, hpending, -, -⟩
        · simp [hnone] at hmem
        · have hsame : due'' = due := by simpa [hone, hpending] using htimers
          have hmine : due' = due'' := by simpa [hone] using hmem
          exact .inl ⟨due, by simp, hsame ▸ hmine ▸ hle⟩
      · exact .inr (hfollows.append _)
  · intro _ hnone
    cases hnone

theorem fire (h : p.Paced) {i due : Nat} (armed : p.timers[i]? = some due)
    (isDue : due ≤ p.now) : (p.fire i).Paced := by
  -- The timer that fires is the only one, and is due just now.
  obtain ⟨htimers, rfl, hnow⟩ : p.timers = [due] ∧ i = 0 ∧ p.now = due := by
    rcases h.timer with ⟨hnone, -⟩ | ⟨due', hone, -, hle, -⟩
    · simp [hnone] at armed
    · rw [hone] at armed
      cases i with
      | zero =>
        obtain rfl : due' = due := by simpa using armed
        exact ⟨hone, rfl, by omega⟩
      | succ i => simp at armed
  have hahead := h.ahead due (by simp [htimers])
  simp only [Pacer.fire, htimers, List.eraseIdx_zero, List.tail_cons]
  cases hended : p.ended with
  | true =>
    simp only [if_true, List.append_nil]
    refine ⟨.inl ⟨rfl, rfl⟩, h.past, ?_, h.spaced, h.told, h.upToDate, ?_, ?_, ?_⟩
    · intro due' hmem
      cases hmem
    all_goals
      intro hrunning
      cases hrunning
  | false =>
    obtain ⟨r, hlast, htells⟩ : ∃ r ∈ lastReport p.history, Progress.Tells r p.latest := by
      rcases h.latest hended with hlast | ⟨-, hnone⟩
      · exact hlast
      · simp [htimers] at hnone
    simp only [Bool.false_eq_true, if_false]
    refine ⟨.inl ⟨rfl, rfl⟩, ?_, ?_, ?_, ?_, ?_, ?_, ?_, ?_⟩
    · rw [showings_progress]
      intro t ht
      rcases List.mem_append.1 ht with ht | ht
      · exact h.past t ht
      · exact Nat.le_of_eq (List.mem_singleton.1 ht)
    · intro due' hmem
      cases hmem
    · rw [showings_progress, List.pairwise_append]
      refine ⟨h.spaced, List.pairwise_singleton .., ?_⟩
      intro t ht t' ht'
      obtain rfl := List.mem_singleton.1 ht'
      exact hnow ▸ hahead t ht
    · rw [emissions_emitted, h.told]
    · refine h.upToDate.append fun v hv => ?_
      obtain rfl : p.latest = v := Option.some.inj hv
      exact ⟨r, hlast, htells⟩
    · exact fun _ => .inl ⟨r, (lastReport_emitted ..).trans hlast, htells⟩
    · intro _ before x after hsplit hx
      right
      rcases split_append_singleton hsplit with ⟨-, rfl, -⟩ | ⟨after', hl, rfl⟩
      · simp [Happening.reported?] at hx
      · rcases h.followed hended before x after' hl hx with ⟨due', hmem, hle⟩ | hfollows
        · obtain rfl : due' = due := by simpa [htimers] using hmem
          exact follows_shown hx (hl ▸ hlast) htells (hnow ▸ hle) rfl
        · exact hfollows.append _
    · intro _ _
      rw [lastShown_progress, lastReport_emitted, hlast]
      exact .some htells

theorem finish (h : p.Paced) (latest : Progress) {event : Option JobEvent}
    (terminal : ∀ e ∈ event, e.isTerminal) : (p.finish latest event).Paced := by
  have hshown : ∀ e ∈ event, (Happening.emitted e).shown? = none := by
    intro e he
    cases e with
    | progress hash fraction => exact absurd (terminal _ he) (by simp [JobEvent.isTerminal])
    | done hash reason result => rfl
    | failed reason => rfl
  have hshowings : showings (p.history ++ event.toList.map fun e => (p.now, .emitted e)) =
      showings p.history := by
    cases event with
    | none => simp
    | some e => exact showings_of_not_shown _ (hshown e rfl)
  rw [Pacer.finish]
  refine ⟨h.timer, ?_, ?_, ?_, ?_, ?_, ?_, ?_, ?_⟩
  · simpa only [hshowings] using h.past
  · simpa only [hshowings] using h.ahead
  · simpa only [hshowings] using h.spaced
  · cases event with
    | none => simpa using h.told
    | some e => exact (emissions_emitted ..).trans (by rw [h.told]; rfl)
  · cases event with
    | none => simpa using h.upToDate
    | some e =>
      refine h.upToDate.append fun v hv => ?_
      rw [hshown e rfl] at hv
      cases hv
  all_goals
    intro hrunning
    cases hrunning

theorem pass (h : p.Paced) {ms : Nat} (nothingDue : ∀ due ∈ p.timers, p.now + ms ≤ due) :
    (p.pass ms).Paced := by
  refine ⟨?_, ?_, h.ahead, h.spaced, h.told, h.upToDate, h.latest, h.followed, h.settled⟩
  · rcases h.timer with hnone | ⟨due, hone, hpending, -, hdue⟩
    · exact .inl hnone
    · have hlater : due ≤ p.now + ms + p.interval := by omega
      exact .inr ⟨due, hone, hpending, nothingDue due (by simp [hone]), hlater⟩
  · intro t ht
    exact Nat.le_add_right_of_le (h.past t ht)

theorem step {q : Pacer} (h : p.Paced) (hstep : p.Step q) : q.Paced := by
  cases hstep with
  | rest => exact h
  | report hash fraction => exact h.report hash fraction
  | fire i due armed isDue => exact h.fire armed isDue
  | finish latest event terminal => exact h.finish latest terminal
  | pass ms nothingDue => exact h.pass nothingDue

end Paced
end Pacer

namespace Scene

open History

theorem become_self (s : Scene) : s.become s.job = s := by
  simp [become]

end Scene
end PackageHandling
