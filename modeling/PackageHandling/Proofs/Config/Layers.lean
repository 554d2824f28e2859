import Mathlib.Data.List.Basic
import PackageHandling.Config

/-!
# The layers of a configuration

What a document sets lies over what the environment holds, and this over the constants.  The
cancel timeout falls back on the inner action timeout of the layers below the document, so it does
not follow what the document sets for that timeout: the main statement is `cancelTimeout_decided`.
-/

namespace PackageHandling
namespace Toml

def Node.unsigned? : Node → Option Nat
  | .scalar (.int n) => if 0 ≤ n then some n.toNat else none
  | _ => none

namespace Table

def Numeric (t : Table) : Prop := ∀ e ∈ t, e.2.unsigned?.isSome = true

instance (t : Table) : Decidable t.Numeric :=
  inferInstanceAs (Decidable (∀ e ∈ t, e.2.unsigned?.isSome = true))

def number? (t : Table) (key : String) : Option Nat := (t.lookup key).bind Node.unsigned?

theorem mem_of_lookup {t : Table} {key : String} {node : Node} (h : t.lookup key = some node) :
    (key, node) ∈ t := by
  obtain ⟨before, after, rfl, -⟩ := List.lookup_eq_some_iff.1 h
  exact List.mem_append_right _ List.mem_cons_self

theorem Numeric.tableValue?_eq {t : Table} (h : t.Numeric) (key : String) :
    Config.tableValue? t key = .ok (t.number? key) := by
  rw [Config.tableValue?, number?]
  cases hlookup : t.lookup key with
  | none => rfl
  | some node =>
    have hnumber : node.unsigned?.isSome = true := h _ (mem_of_lookup hlookup)
    match node with
    | .scalar (.int n) =>
      by_cases hn : 0 ≤ n
      · simp [Node.unsigned?, hn]
      · simp [Node.unsigned?, hn] at hnumber
    | .scalar (.text _) | .scalar .other | .closed | .table _ _ | .tables _ => cases hnumber

end Table
end Toml

namespace Config

def IsDecimal (digits : List Char) (n : Nat) : Prop :=
  digits ≠ [] ∧ (∀ c ∈ digits, c.isDigit = true) ∧ Json.digitsValue digits = n ∧
    n ≤ 0xFFFFFFFFFFFFFFFF

/-- Decimal digits, with a plus sign before them perhaps. -/
def Spells (s : List Char) (n : Nat) : Prop :=
  ∃ digits, (s = digits ∨ s = '+' :: digits) ∧ IsDecimal digits n

theorem isDecimal_iff {digits : List Char} {n : Nat} :
    (if digits.isEmpty || !digits.all Char.isDigit then none
      else if Json.digitsValue digits ≤ 0xFFFFFFFFFFFFFFFF then some (Json.digitsValue digits)
      else none) = some n ↔ IsDecimal digits n := by
  rw [IsDecimal]
  grind

theorem number?_eq_some_iff {s : List Char} {n : Nat} : number? s = some n ↔ Spells s n := by
  rw [number?.eq_def]
  split
  · next rest =>
    refine isDecimal_iff.trans ⟨fun h => ⟨rest, .inr rfl, h⟩, ?_⟩
    rintro ⟨digits, rfl | hplus, hdecimal⟩
    · exact absurd (hdecimal.2.1 '+' List.mem_cons_self) (by decide)
    · exact (List.cons.inj hplus).2 ▸ hdecimal
  · next hplain =>
    refine isDecimal_iff.trans ⟨fun h => ⟨s, .inl rfl, h⟩, ?_⟩
    rintro ⟨digits, rfl | hplus, hdecimal⟩
    · exact hdecimal
    · exact (hplain digits hplus).elim

def Holds (env : Environment) (name : String) (n : Nat) : Prop :=
  ∃ text, env name = some text ∧ Spells (Text.trim text.toList) n

/-- The value of a key: what the document sets, else the number that the variable holds, else the
fallback. -/
inductive Layered (env : Environment) (name : String) (set : Option Nat) (fallback : Nat) :
    Nat → Prop
  | document {n : Nat} (there : set = some n) : Layered env name set fallback n
  | environment {n : Nat} (absent : set = none) (held : Holds env name n) :
    Layered env name set fallback n
  | constant (absent : set = none) (unheld : ∀ n, ¬ Holds env name n) :
    Layered env name set fallback fallback

variable {env : Environment} {name : String} {n : Nat}

theorem held_iff :
    ((env name).bind fun text => number? (Text.trim text.toList)) = some n ↔ Holds env name n := by
  simp only [Option.bind_eq_some_iff, number?_eq_some_iff, Holds]

theorem layered_fromEnvironment (env : Environment) (name : String) (set : Option Nat)
    (fallback : Nat) :
    Layered env name set fallback (set.getD (fromEnvironment env name fallback)) := by
  cases set with
  | some n => exact .document rfl
  | none =>
    rw [Option.getD_none, fromEnvironment]
    cases held : (env name).bind fun text => number? (Text.trim text.toList) with
    | some n => exact .environment rfl (held_iff.1 held)
    | none =>
      refine .constant rfl fun n hn => ?_
      rw [held_iff.2 hn] at held
      cases held

theorem Layered.eq {set : Option Nat} {fallback : Nat} (h : Layered env name set fallback n) :
    n = set.getD (fromEnvironment env name fallback) := by
  cases h with
  | document there => rw [there, Option.getD_some]
  | environment absent held =>
    rw [absent, Option.getD_none, fromEnvironment, held_iff.2 held, Option.getD_some]
  | constant absent unheld =>
    have hnone : ((env name).bind fun text => number? (Text.trim text.toList)) = none :=
      Option.eq_none_iff_forall_ne_some.2 fun n hn => unheld n (held_iff.1 hn)
    rw [absent, Option.getD_none, fromEnvironment, hnone, Option.getD_none]

theorem overlay_eq (base : Config) {t : Toml.Table} (h : t.Numeric) :
    overlay base (tableValue? t) = .ok {
      innerActionTimeout := (t.number? "inner_action_timeout_ms").getD base.innerActionTimeout
      remoteCheckTimeout := (t.number? "remote_check_timeout_ms").getD base.remoteCheckTimeout
      stabilityThreshold :=
        (t.number? "source_package_stability_threshold_ms").getD base.stabilityThreshold
      stabilityBypassAge := (t.number? "stability_bypass_age_secs").getD base.stabilityBypassAge
      progressInterval := (t.number? "progress_interval_ms").getD base.progressInterval
      cancelTimeout := (t.number? "cancel_timeout_ms").getD base.cancelTimeout } := by
  have hvalues : tableValue? t = fun key => .ok (t.number? key) := funext h.tableValue?_eq
  rw [hvalues]
  rfl

theorem eq_of_validate {c c' : Config} (h : c.validate = .ok c') : c' = c := by
  rw [validate] at h
  split at h
  · cases h
  · exact (Except.ok.inj h).symm

theorem eq_of_ofToml {source : String} {t : Toml.Table} {c : Config}
    (document : Toml.read? source = some t) (numbers : t.Numeric)
    (accepted : ofToml env source = .ok c) : overlay (default env) (tableValue? t) = .ok c := by
  rw [ofToml, document] at accepted
  rw [overlay_eq _ numbers]
  simp only [ofTable, overlay_eq _ numbers] at accepted
  exact congrArg _ (eq_of_validate accepted).symm

/-- The cancel timeout is that of the document, else that of the environment, else the inner action
timeout as it is without the document. -/
theorem cancelTimeout_decided (env : Environment) {source : String} {t : Toml.Table} {c : Config}
    (document : Toml.read? source = some t) (numbers : t.Numeric)
    (accepted : ofToml env source = .ok c) :
    let innerSet := t.number? "inner_action_timeout_ms"
    let cancelSet := t.number? "cancel_timeout_ms"
    ∃ inner, Layered env "PACKAGE_WORKER_INNER_ACTION_TIMEOUT_MS" none 30000 inner ∧
      Layered env "PACKAGE_WORKER_INNER_ACTION_TIMEOUT_MS" innerSet 30000 c.innerActionTimeout ∧
      Layered env "PACKAGE_WORKER_CANCEL_TIMEOUT_MS" cancelSet inner c.cancelTimeout ∧
      (cancelSet = none → (∀ n, ¬ Holds env "PACKAGE_WORKER_CANCEL_TIMEOUT_MS" n) →
        c.cancelTimeout = inner ∧
        (c.cancelTimeout = c.innerActionTimeout ↔ ∀ n, innerSet = some n → n = inner)) := by
  intro innerSet cancelSet
  let inner := fromEnvironment env "PACKAGE_WORKER_INNER_ACTION_TIMEOUT_MS" 30000
  have hmerged := eq_of_ofToml document numbers accepted
  rw [overlay_eq _ numbers] at hmerged
  have hinner : c.innerActionTimeout = innerSet.getD inner := by
    rw [← Except.ok.inj hmerged]
    rfl
  have hcancel : c.cancelTimeout =
      cancelSet.getD (fromEnvironment env "PACKAGE_WORKER_CANCEL_TIMEOUT_MS" inner) := by
    rw [← Except.ok.inj hmerged]
    rfl
  refine ⟨inner, layered_fromEnvironment env _ none 30000,
    hinner ▸ layered_fromEnvironment env _ innerSet 30000,
    hcancel ▸ layered_fromEnvironment env _ cancelSet inner, fun hunset hunheld => ?_⟩
  have hfallback : c.cancelTimeout = inner := by
    rw [hcancel, ← (Layered.constant hunset hunheld).eq]
  refine ⟨hfallback, ?_⟩
  rw [hfallback, hinner]
  cases innerSet with
  | none => simp
  | some n => simpa using eq_comm

def shortActions : String := "inner_action_timeout_ms = 5000"

theorem table_shortActions :
    ∃ t, Toml.read? shortActions = some t ∧ t.Numeric ∧ t.number? "cancel_timeout_ms" = none := by
  have hread : ((Toml.read? shortActions).any fun t =>
      decide (t.Numeric ∧ t.number? "cancel_timeout_ms" = none)) = true := by
    decide +kernel
  obtain ⟨t, hread, ht⟩ := (Option.any_eq_true _ _).1 hread
  exact ⟨t, hread, of_decide_eq_true ht⟩

theorem not_holds_of_unset {env : Environment} {name : String} (h : env name = none) (n : Nat) :
    ¬ Holds env name n := by
  rintro ⟨text, htext, -⟩
  rw [h] at htext
  cases htext

/-- A plus sign and blanks around the number of the environment do no harm. -/
theorem cancelTimeout_decided_of_environment :
    let env : Environment := fun name =>
      if name = "PACKAGE_WORKER_INNER_ACTION_TIMEOUT_MS" then some " +7000 " else none
    ∃ t c, Toml.read? shortActions = some t ∧ t.Numeric ∧ ofToml env shortActions = .ok c ∧
      t.number? "cancel_timeout_ms" = none ∧
      (∀ n, ¬ Holds env "PACKAGE_WORKER_CANCEL_TIMEOUT_MS" n) ∧
      c.innerActionTimeout = 5000 ∧ c.cancelTimeout = 7000 ∧
      Layered env "PACKAGE_WORKER_INNER_ACTION_TIMEOUT_MS" none 30000 c.cancelTimeout := by
  intro env
  obtain ⟨t, hread, hnumeric, hunset⟩ := table_shortActions
  have haccepted : ofToml env shortActions = .ok ⟨5000, 10000, 4000, 21600, 500, 7000⟩ := by
    decide +kernel
  have hcancel : env "PACKAGE_WORKER_CANCEL_TIMEOUT_MS" = none := rfl
  have hunheld := not_holds_of_unset hcancel
  obtain ⟨inner, hinner, -, -, hfallback⟩ := cancelTimeout_decided env hread hnumeric haccepted
  obtain ⟨hsame, -⟩ := hfallback hunset hunheld
  exact ⟨t, _, hread, hnumeric, haccepted, hunset, hunheld, rfl, rfl, hsame ▸ hinner⟩

/-- Actions are cut off after five seconds by the document, and a cleanup after thirty. -/
theorem cancelTimeout_beyond_inner :
    let env : Environment := fun _ => none
    ∃ t c, Toml.read? shortActions = some t ∧ t.Numeric ∧ ofToml env shortActions = .ok c ∧
      t.number? "cancel_timeout_ms" = none ∧ env "PACKAGE_WORKER_CANCEL_TIMEOUT_MS" = none ∧
      c.innerActionTimeout = 5000 ∧ c.cancelTimeout = 30000 := by
  intro env
  obtain ⟨t, hread, hnumeric, hunset⟩ := table_shortActions
  have haccepted : ofToml env shortActions = .ok ⟨5000, 10000, 4000, 21600, 500, 30000⟩ := by
    decide +kernel
  exact ⟨t, _, hread, hnumeric, haccepted, hunset, rfl, rfl, rfl⟩

end Config
end PackageHandling
