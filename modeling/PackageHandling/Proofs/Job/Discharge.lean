import PackageHandling.Worksite
import PackageHandling.Proofs.Job.Duties

/-!
# Processes that discharge duties

A process keeps to a worksite when it touches the job only by the steps of the worksite, and sees to
the duties that these steps take on.  What a worksite offers keeps to it, whatever is done in
between.
-/

namespace PackageHandling

variable {σ β ν : Type}

namespace Worksite

structure Lawful (site : Worksite σ) : Prop where
  get_put (j : Job) (s : σ) : site.get (site.put j s) = j
  get_tell (log : List LogEvent) (s : σ) : site.get (site.tell log s) = site.get s

variable (site : Worksite σ)

def cleanupEnded (s : σ) : Bool := (site.get s).cleanup = .ended

def told (first : Bool) (next : Option (Except Failure Unit) → Process σ) (ended : Bool) :
    Process σ :=
  if !ended then next none
  else if !first then next (some (.ok ()))
  else
    Process.step (fun _ s =>
      let (j, result) := (site.get s).takeCancelError
      (result, site.put j s)) fun result => next (some result)

end Worksite

/-- Whether whoever has this duty may pause for the condition or up to the deadline. -/
def Duty.Rests (site : Worksite σ) (condition : σ → Bool) (deadline : Option Nat) : Duty → Prop
  | timer due => ∃ l, deadline = some l ∧ l ≤ due
  | endCleanup due => ∃ l, deadline = some l ∧ l ≤ due
  | endBody => True
  | answerCancel _ _ => condition = site.cleanupEnded
  | answerWait _ => condition = fun s => (site.get s).ended
  | beginBody => False
  | callCleanup => False

/-- A process that, run at a time, keeps to the worksite and sees to the duties. -/
inductive Discharges (site : Worksite σ) : Nat → List Duty → Process σ → Prop
  | stop (now : Nat) : Discharges site now [] .stop
  | look {now : Nat} {ds : List Duty} {k : Nat → σ → Process σ}
    (next : ∀ s, Discharges site now ds (k now s)) : Discharges site now ds (.look k)
  | own {now : Nat} {ds : List Duty} {α : Type} {f : Nat → σ → α × σ} {k : α → Process σ}
    (same : ∀ now s, site.get (f now s).2 = site.get s)
    (next : ∀ a, Discharges site now ds (k a)) : Discharges site now ds (Process.step f k)
  | wait {now : Nat} {ds : List Duty} {ms : Nat} {p : Process σ}
    (rests : ∀ d ∈ ds, d.Rests site (fun _ => false) (some (now + ms)))
    (next : Discharges site (now + ms) ds p) : Discharges site now ds (.wait ms p)
  | await {now : Nat} {ds : List Duty} {condition : σ → Bool} {limit : Option Nat} {p : Process σ}
    (rests : ∀ d ∈ ds, d.Rests site condition (limit.map (now + ·)))
    (next : ∀ later, now ≤ later → Discharges site later ds p) :
    Discharges site now ds (.await condition limit p)
  | spawn {now : Nat} {cs ds : List Duty} {child p : Process σ}
    (spawned : Discharges site now cs child) (next : Discharges site now ds p) :
    Discharges site now (cs ++ ds) (.spawn child p)
  | giveWay {now : Nat} {ds : List Duty} {p : Process σ} (next : Discharges site now ds p) :
    Discharges site now ds (.giveWay p)
  | progress {now : Nat} {ds : List Duty} {hash : Option String} {fraction : Fraction}
    {k : Nat × Bool → Process σ}
    (next : ∀ interval arm, Discharges site now
      ((if arm then [.timer (now + interval)] else []) ++ ds) (k (interval, arm))) :
    Discharges site now ds (Process.step (fun _ s =>
      let (j, arm) := (site.get s).reportProgress hash fraction
      ((j.progressInterval, arm), site.put j s)) k)
  | flush {now : Nat} {ds : List Duty} {p : Process σ} (next : Discharges site now ds p) :
    Discharges site now (.timer now :: ds) (site.take (fun j => (j.flush, [])) p)
  | complete {now : Nat} {ds : List Duty} {hash : Option String} {reason : Reason}
    {result : Option Json} {p : Process σ} (next : Discharges site now ds p) :
    Discharges site now ds (site.take (Job.reportComplete hash reason result) p)
  | error {now : Nat} {ds : List Duty} {reason : Reason} {p : Process σ}
    (next : Discharges site now ds p) :
    Discharges site now ds (site.take (Job.reportError reason) p)
  | start {now : Nat} {ds : List Duty} {body : Activity σ BodyEnd}
    {k : Except Failure Unit → Process σ}
    (spawned : Discharges site now [.beginBody]
      (.giveWay (body fun e => site.take (Job.endBody e) .stop)))
    (next : ∀ r, Discharges site now ds (k r)) : Discharges site now ds (site.start body k)
  | beginBody {now : Nat} {ds : List Duty} {p : Process σ}
    (next : Discharges site now (.endBody :: ds) p) : Discharges site now (.beginBody :: ds) p
  | endBody {now : Nat} {ds : List Duty} {e : BodyEnd} {p : Process σ}
    (next : Discharges site now ds p) :
    Discharges site now (.endBody :: ds) (site.take (Job.endBody e) p)
  | request {now : Nat} {ds : List Duty} {k : Bool → Process σ}
    (next : ∀ i first, Discharges site now
      ((if first then [.callCleanup] else []) ++ .answerCancel i first :: ds) (k first)) :
    Discharges site now ds (Process.step (fun _ s =>
      let (j, first) := (site.get s).requestCancel
      (first, site.put j s)) k)
  | callCleanup {now : Nat} {ds : List Duty} {k : Job → Process σ}
    (next : ∀ j, Discharges site now (.endCleanup (now + j.cancelTimeout) :: ds) (k j)) :
    Discharges site now (.callCleanup :: ds)
      (site.take Job.beginCleanup (.look fun _ s => k (site.get s)))
  | endCleanup {now due : Nat} {ds : List Duty} {e : CleanupEnd} {p : Process σ}
    (next : Discharges site now ds p) :
    Discharges site now (.endCleanup due :: ds)
      (site.take (Job.settleCleanup e) (site.take (fun j => (j.endCleanup, [])) p))
  | answerCancel {now i : Nat} {first : Bool} {ds : List Duty}
    {k : Option (Except Failure Unit) → Process σ} (next : ∀ r, Discharges site now ds (k r)) :
    Discharges site now (.answerCancel i first :: ds)
      (.look fun _ s => site.told first k (site.cleanupEnded s))
  | wantOutcome {now : Nat} {ds : List Duty} {p : Process σ}
    (next : ∀ i, Discharges site now (.answerWait i :: ds) p) : Discharges site now ds p
  | answerWait {now i : Nat} {ds : List Duty} {k : Option JobOutcome → Process σ}
    (next : ∀ o, Discharges site now ds (k o)) :
    Discharges site now (.answerWait i :: ds) (.look fun _ s => k (site.get s).outcome)

/-- Whether a plan waits no longer than this, whatever it finds. -/
def Plan.Bounded {α : Type} : Nat → Plan β ν α → Prop
  | _, .done _ => True
  | ms, .look k => ∀ s, (k s).Bounded ms
  | ms, .set _ p => p.Bounded ms
  | ms, .note _ p => p.Bounded ms
  | ms, .wait n p => n ≤ ms ∧ p.Bounded (ms - n)

theorem Plan.within_bounded {α : Type} (p : Plan β ν α) (ms : Nat) : (p.within ms).Bounded ms := by
  induction p generalizing ms with
  | done a => trivial
  | look k ih => exact fun s => ih s ms
  | set s p ih => exact ih ms
  | note n p ih => exact ih ms
  | wait n p ih =>
    rw [Plan.within]
    split
    · next hle => exact ⟨hle, ih (ms - n)⟩
    · exact ⟨Nat.le_refl ms, trivial⟩

theorem Plan.Bounded.bind_done {α γ : Type} {p : Plan β ν α} {f : α → Plan β ν γ} {ms : Nat}
    (h : p.Bounded ms) (hf : ∀ a, ∃ c, f a = .done c) : (p.bind f).Bounded ms := by
  induction p generalizing ms with
  | done a =>
    obtain ⟨c, hc⟩ := hf a
    rw [Plan.bind, hc]
    trivial
  | look k ih => exact fun s => ih s (h s)
  | set s p ih => exact ih h
  | note n p ih => exact ih h
  | wait n p ih => exact ⟨h.1, ih h.2⟩

theorem Job.boundCleanup_bounded (j : Job) (callback : Plan β ν CleanupEnd) :
    (j.boundCleanup callback).Bounded j.cancelTimeout := by
  refine (callback.within_bounded j.cancelTimeout).bind_done fun a => ?_
  cases a with
  | none => exact ⟨_, rfl⟩
  | some e => exact ⟨_, rfl⟩

structure Worksite.Beside (site : Worksite σ) (place : Process.Setting β σ ν) : Prop where
  get_put (b : β) (s : σ) : site.get (place.put b s) = site.get s
  hear (n : ν) {now : Nat} {ds : List Duty} {p : Process σ} :
    Discharges site now ds p → Discharges site now ds (place.hear n p)

namespace Discharges

variable {site : Worksite σ} {now : Nat} {ds : List Duty}

theorem modify {f : Nat → σ → σ} {p : Process σ} (same : ∀ now s, site.get (f now s) = site.get s)
    (next : Discharges site now ds p) : Discharges site now ds (Process.modify f p) :=
  own (f := fun now s => ((), f now s)) (k := fun _ => p) same fun _ => next

theorem progressTimer (site : Worksite σ) (now interval : Nat) :
    Discharges site now [.timer (now + interval)] (site.progressTimer interval) := by
  refine .wait ?_ (.flush (.stop _))
  intro d hd
  obtain rfl := List.mem_singleton.1 hd
  exact ⟨now + interval, rfl, Nat.le_refl _⟩

theorem report (r : JobReport) {p : Process σ} (next : Discharges site now ds p) :
    Discharges site now ds (site.report r p) := by
  cases r with
  | complete hash reason result => exact .complete next
  | error reason => exact .error next
  | progress hash fraction =>
    refine .progress (k := fun x => if x.2 then .spawn (site.progressTimer x.1) p else p) ?_
    intro interval arm
    cases arm with
    | false => exact next
    | true => exact .spawn (.progressTimer site now interval) next

theorem perform {place : Process.Setting β σ ν} (hplace : site.Beside place) {α : Type} {ms : Nat}
    {plan : Plan β ν α} (hbounded : plan.Bounded ms) {k : α → Process σ}
    (next : ∀ later, now ≤ later → ∀ a, Discharges site later [.endCleanup (now + ms)] (k a)) :
    Discharges site now [.endCleanup (now + ms)] (Process.perform place plan k) := by
  induction plan generalizing now ms with
  | done a => exact next now (Nat.le_refl _) a
  | look f ih => exact .look fun s => ih (place.get s) (hbounded _) next
  | set b p ih => exact .modify (fun _ s => hplace.get_put b s) (ih hbounded next)
  | note n p ih => exact hplace.hear n (ih hbounded next)
  | wait n p ih =>
    obtain ⟨hn, hrest⟩ := hbounded
    have hlimit : now + ms = now + n + (ms - n) := by omega
    rw [hlimit] at next ⊢
    refine .wait ?_ (ih hrest fun later hlater => next later (by omega))
    intro d hd
    obtain rfl := List.mem_singleton.1 hd
    exact ⟨now + n, rfl, by omega⟩

theorem cleanup {place : Process.Setting β σ ν} (hplace : site.Beside place)
    (callback : Plan β ν CleanupEnd) :
    Discharges site now [.callCleanup] (site.cleanup place callback) := by
  refine .callCleanup (k := fun j => Process.perform place (j.boundCleanup callback) _) fun j => ?_
  refine perform hplace (j.boundCleanup_bounded callback) fun later _ e => ?_
  exact .endCleanup (.stop later)

theorem cancel {place : Process.Setting β σ ν} (hplace : site.Beside place)
    (callback : Plan β ν CleanupEnd) (limit : Option Nat) (hds : ∀ d ∈ ds, d = .endBody)
    {k : Option (Except Failure Unit) → Process σ}
    (next : ∀ later, now ≤ later → ∀ r, Discharges site later ds (k r)) :
    Discharges site now ds (site.cancel place callback limit k) := by
  refine .request fun i first => ?_
  have hwait : Discharges site now (.answerCancel i first :: ds) (.await site.cleanupEnded limit
      (.look fun _ s => site.told first k (site.cleanupEnded s))) := by
    refine .await ?_ fun later hlater => .answerCancel (next later hlater)
    intro d hd
    rcases List.mem_cons.1 hd with rfl | hd
    · exact rfl
    · obtain rfl := hds d hd
      trivial
  cases first with
  | false => exact hwait
  | true => exact .spawn (.cleanup hplace callback) hwait

theorem outcome (limit : Option Nat) (hds : ∀ d ∈ ds, d = .endBody)
    {k : Option JobOutcome → Process σ}
    (next : ∀ later, now ≤ later → ∀ o, Discharges site later ds (k o)) :
    Discharges site now ds (site.outcome limit k) := by
  refine .wantOutcome fun i => .await ?_ fun later hlater => ?_
  · intro d hd
    rcases List.mem_cons.1 hd with rfl | hd
    · exact rfl
    · obtain rfl := hds d hd
      trivial
  · exact .look fun _ => .answerWait (next later hlater)

end Discharges
end PackageHandling
