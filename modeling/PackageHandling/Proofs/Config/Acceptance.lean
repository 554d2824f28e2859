import PackageHandling.Proofs.Config.Layers

/-!
# Configurations that are accepted

The budgets are looked at when the layers have settled them, so a budget of zero is refused
whichever layer it comes from, and one that a layer above it covers does no harm: the main statement
is `ofToml_decided`.
-/

namespace PackageHandling
namespace Config

/-- What the layers settle for each key but the cancel timeout.  The environment has variables for
the first three keys only. -/
structure Merged (env : Environment) (t : Toml.Table) (c : Config) : Prop where
  inner : Layered env "PACKAGE_WORKER_INNER_ACTION_TIMEOUT_MS"
    (t.number? "inner_action_timeout_ms") 30000 c.innerActionTimeout
  remote : Layered env "PACKAGE_WORKER_REMOTE_CHECK_TIMEOUT_MS"
    (t.number? "remote_check_timeout_ms") 10000 c.remoteCheckTimeout
  threshold : Layered env "PACKAGE_WORKER_SOURCE_STABILITY_THRESHOLD_MS"
    (t.number? "source_package_stability_threshold_ms") 4000 c.stabilityThreshold
  bypassAge : c.stabilityBypassAge = (t.number? "stability_bypass_age_secs").getD 21600
  progress : c.progressInterval = (t.number? "progress_interval_ms").getD 500

structure NonZero (c : Config) : Prop where
  inner : c.innerActionTimeout ≠ 0
  remote : c.remoteCheckTimeout ≠ 0
  progress : c.progressInterval ≠ 0

inductive FirstZero (c : Config) : String → Prop
  | inner (zero : c.innerActionTimeout = 0) : FirstZero c "inner_action_timeout_ms"
  | remote (inner : c.innerActionTimeout ≠ 0) (zero : c.remoteCheckTimeout = 0) :
    FirstZero c "remote_check_timeout_ms"
  | progress (inner : c.innerActionTimeout ≠ 0) (remote : c.remoteCheckTimeout ≠ 0)
    (zero : c.progressInterval = 0) : FirstZero c "progress_interval_ms"

variable {env : Environment} {source : String} {t : Toml.Table} {c c' : Config} {key key' : String}

theorem FirstZero.not_nonZero (h : c.FirstZero key) : ¬ c.NonZero := by
  intro hnonzero
  cases h with
  | inner zero => exact hnonzero.inner zero
  | remote _ zero => exact hnonzero.remote zero
  | progress _ _ zero => exact hnonzero.progress zero

theorem FirstZero.unique (h : c.FirstZero key) (h' : c.FirstZero key') : key = key' := by
  cases h <;> cases h' <;> first | rfl | contradiction

theorem validate_cases (c : Config) :
    (c.NonZero ∧ c.validate = .ok c) ∨
      ∃ key, c.FirstZero key ∧ c.validate = .error (.zero key) := by
  -- one case after the other, in the order in which validation looks at the budgets
  by_cases hinner : c.innerActionTimeout = 0
  · exact .inr ⟨_, .inner hinner, by simp [validate, positive, hinner]⟩
  by_cases hremote : c.remoteCheckTimeout = 0
  · exact .inr ⟨_, .remote hinner hremote, by simp [validate, positive, hinner, hremote]⟩
  by_cases hprogress : c.progressInterval = 0
  · exact .inr ⟨_, .progress hinner hremote hprogress,
      by simp [validate, positive, hinner, hremote, hprogress]⟩
  · exact .inl ⟨⟨hinner, hremote, hprogress⟩,
      by simp [validate, positive, hinner, hremote, hprogress]⟩

theorem validate_eq_ok_iff : c.validate = .ok c' ↔ c' = c ∧ c.NonZero := by
  obtain ⟨hnonzero, hvalid⟩ | ⟨key, hfirst, hinvalid⟩ := c.validate_cases
  · rw [hvalid]
    exact ⟨fun h => ⟨(Except.ok.inj h).symm, hnonzero⟩, fun h => congrArg Except.ok h.1.symm⟩
  · rw [hinvalid]
    exact ⟨nofun, fun h => absurd h.2 hfirst.not_nonZero⟩

theorem validate_eq_error_iff {cause : ConfigError} :
    c.validate = .error cause ↔ ∃ key, c.FirstZero key ∧ cause = .zero key := by
  obtain ⟨hnonzero, hvalid⟩ | ⟨key, hfirst, hinvalid⟩ := c.validate_cases
  · rw [hvalid]
    refine ⟨nofun, ?_⟩
    rintro ⟨key, hfirst, -⟩
    exact absurd hnonzero hfirst.not_nonZero
  · rw [hinvalid]
    refine ⟨fun h => ⟨key, hfirst, (Except.error.inj h).symm⟩, ?_⟩
    rintro ⟨key', hfirst', rfl⟩
    rw [hfirst.unique hfirst']

/-- A table of numbers can be laid over the defaults, and each key is then settled by its layers. -/
theorem exists_merged (env : Environment) (numbers : t.Numeric) :
    ∃ merged, overlay (default env) (tableValue? t) = .ok merged ∧ Merged env t merged :=
  ⟨_, overlay_eq _ numbers, {
    inner := layered_fromEnvironment ..
    remote := layered_fromEnvironment ..
    threshold := layered_fromEnvironment ..
    bypassAge := rfl
    progress := rfl }⟩

theorem nonZero_of_ofToml (accepted : ofToml env source = .ok c) : c.NonZero := by
  rw [ofToml] at accepted
  split at accepted
  · cases accepted
  · next t _ =>
    rw [ofTable] at accepted
    cases hmerged : overlay (default env) (tableValue? t) with
    | error cause =>
      rw [hmerged] at accepted
      cases accepted
    | ok merged =>
      rw [hmerged] at accepted
      obtain ⟨rfl, hnonzero⟩ := validate_eq_ok_iff.1 accepted
      exact hnonzero

/-- Each key is settled by the document, then the environment, then the constant; what comes of that
is accepted exactly if none of the three budgets is zero, else the first that is zero is named. -/
theorem ofToml_decided (env : Environment) (source : String) :
    (∀ t, Toml.read? source = some t → t.Numeric → ∃ merged, Merged env t merged ∧
      (∀ c, ofToml env source = .ok c ↔ c = merged ∧ merged.NonZero) ∧
      ∀ cause, ofToml env source = .error cause ↔ ∃ key, merged.FirstZero key ∧
        cause = .zero key ∧ cause.message = key ++ " must be greater than zero") ∧
    ∀ c, ofToml env source = .ok c → c.NonZero := by
  refine ⟨fun t document numbers => ?_, fun c accepted => nonZero_of_ofToml accepted⟩
  obtain ⟨merged, hoverlay, hmerged⟩ := exists_merged env numbers
  have hvalidated : ofToml env source = merged.validate := by
    rw [ofToml, document]
    simp only [ofTable, hoverlay]
    rfl
  refine ⟨merged, hmerged, fun c => ?_, fun cause => ?_⟩
  · rw [hvalidated]
    exact validate_eq_ok_iff
  · rw [hvalidated, validate_eq_error_iff]
    constructor
    · rintro ⟨key, hfirst, rfl⟩
      exact ⟨key, hfirst, rfl, rfl⟩
    · rintro ⟨key, hfirst, hcause, -⟩
      exact ⟨key, hfirst, hcause⟩

/-- The document covers a zero of the environment, but one that it leaves standing is refused. -/
theorem ofToml_decided_of_environment :
    let env (remote : String) : Environment := fun name =>
      if name = "PACKAGE_WORKER_INNER_ACTION_TIMEOUT_MS" then some "0"
      else if name = "PACKAGE_WORKER_REMOTE_CHECK_TIMEOUT_MS" then some remote
      else if name = "PACKAGE_WORKER_SOURCE_STABILITY_THRESHOLD_MS" then some " 007"
      else none
    ∃ t, Toml.read? shortActions = some t ∧ t.Numeric ∧
      (∃ c, ofToml (env "18446744073709551616") shortActions = .ok c ∧
        Merged (env "18446744073709551616") t c ∧ c.NonZero ∧ c.innerActionTimeout = 5000 ∧
        c.remoteCheckTimeout = 10000 ∧ c.stabilityThreshold = 7) ∧
      ∃ merged, Merged (env "+0") t merged ∧ merged.FirstZero "remote_check_timeout_ms" ∧
        ofToml (env "+0") shortActions = .error (.zero "remote_check_timeout_ms") := by
  intro env
  obtain ⟨t, hread, hnumeric, -⟩ := table_shortActions
  have haccepted : ofToml (env "18446744073709551616") shortActions =
      .ok ⟨5000, 10000, 7, 21600, 500, 0⟩ := by
    decide +kernel
  have hrefused : ofToml (env "+0") shortActions = .error (.zero "remote_check_timeout_ms") := by
    decide +kernel
  obtain ⟨hlayers, hnonzero⟩ := ofToml_decided (env "18446744073709551616") shortActions
  obtain ⟨_, hmerged, hok, -⟩ := hlayers t hread hnumeric
  obtain ⟨rfl, -⟩ := (hok _).1 haccepted
  obtain ⟨hlayers', -⟩ := ofToml_decided (env "+0") shortActions
  obtain ⟨merged, hmerged', -, herror⟩ := hlayers' t hread hnumeric
  obtain ⟨key, hfirst, hkey, -⟩ := (herror _).1 hrefused
  obtain rfl := ConfigError.zero.inj hkey
  exact ⟨t, hread, hnumeric, ⟨_, haccepted, hmerged, hnonzero _ haccepted, rfl, rfl, rfl⟩,
    merged, hmerged', hfirst, hrefused⟩

end Config
end PackageHandling
