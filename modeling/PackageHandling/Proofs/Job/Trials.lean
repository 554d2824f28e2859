import PackageHandling.Rehearsal.Trial
import PackageHandling.Proofs.Job.Simulation

/-!
# Trials are scenes

The scripted bodies, cleanups and callers of a trial keep to the worksite of their job.  So what is
true of a job in every scene is true of the job of every trial.
-/

namespace PackageHandling
namespace Rehearsal
namespace Trial

theorem site_lawful : site.Lawful := ⟨fun _ _ => rfl, fun _ _ => rfl⟩

theorem cleanupPlace_beside : site.Beside cleanupPlace :=
  ⟨fun _ _ => rfl, fun _ _ _ _ h => h.modify fun _ _ => rfl⟩

theorem body_discharges (steps : List BodyStep) (now : Nat) :
    Discharges site now [.endBody] (body steps fun e => site.take (Job.endBody e) .stop) := by
  have hrests : ∀ (condition : Trial → Bool) (deadline : Option Nat),
      ∀ d ∈ [Duty.endBody], d.Rests site condition deadline := by
    intro condition deadline d hd
    obtain rfl := List.mem_singleton.1 hd
    trivial
  induction steps generalizing now with
  | nil => exact .endBody (.stop now)
  | cons step rest ih =>
    cases step with
    | sleep ms => exact .wait (hrests _ _) (ih (now + ms))
    | report r => exact (ih now).report r
    | awaitCancel => exact .await (hrests _ _) fun later _ => ih later
    | note text => exact (ih now).modify fun _ _ => rfl
    | finish e => exact .endBody (.stop now)

variable (s : CleanupScript)

theorem act_discharges (step : TrialStep) {next : TrialAnswer → Process Trial}
    (hnext : ∀ now answer, Discharges site now [] (next answer)) (now : Nat) :
    Discharges site now [] (act s step next) := by
  have hnobody : ∀ d ∈ ([] : List Duty), d = .endBody := by simp
  cases step with
  | subscribe => exact (hnext now _).modify fun _ _ => rfl
  | drain i => exact .own (fun _ _ => rfl) fun _ => hnext now _
  | start steps =>
    exact .start (.giveWay (.beginBody (body_discharges steps now))) fun _ => hnext now _
  | sleep ms => exact .wait (by simp) (hnext (now + ms) _)
  | cancel limit =>
    rw [act]
    refine .cancel cleanupPlace_beside (callback s) limit hnobody fun later _ r => ?_
    cases r <;> exact hnext later _
  | spawnCancel =>
    rw [act]
    refine .own (fun _ _ => rfl) fun i => ?_
    have hchild : Discharges site now [] (site.cancel cleanupPlace (callback s) none fun r =>
        .modify (fun _ t => { t with cancels := t.cancels.set i r }) .stop) := by
      refine .cancel cleanupPlace_beside (callback s) none hnobody fun later _ r => ?_
      exact (Discharges.stop later).modify fun _ _ => rfl
    exact .spawn hchild (hnext now _)
  | joinCancel i => exact .await (by simp) fun later _ => .look fun _ => hnext later _
  | state => exact .look fun _ => hnext now _
  | wait ms => exact .outcome (some ms) hnobody fun later _ o => hnext later _
  | notes => exact .own (fun _ _ => rfl) fun _ => hnext now _

theorem script_discharges (steps : List TrialStep) (now : Nat) :
    Discharges site now [] (script s steps) := by
  induction steps generalizing now with
  | nil => exact .stop now
  | cons step rest ih =>
    rw [script]
    refine act_discharges s step ?_ now
    intro later answer
    exact (ih later).modify fun _ _ => rfl

theorem run_is_scene (label : String) (config : Config) (steps : List TrialStep) :
    ∃ acts, ((Scene.fresh label config).run acts).job = (run s label config steps).job := by
  have hjob : site.get { job := .create label config } = .create label config := rfl
  obtain ⟨acts, hacts, -⟩ :=
    Timeline.run_is_scene site_lawful hjob (script_discharges s steps 0) patience
  exact ⟨acts, hacts⟩

end Trial
end Rehearsal
end PackageHandling
