import PackageHandling.Proofs.Plan.Budget

/-!
# Writing down what a plan answers

A plan can be run beside a record to which its answers are added, which changes nothing else.
`Extends` says that one plan does what another one does and adds to the record, and what it adds
is described by a condition on the answer; the condition of a plan is put together from those of
its parts.
-/

namespace PackageHandling
namespace Plan

variable {σ ν μ τ α α' γ γ' : Type}

/-- A plan on the first part of a state whose second part is a record. -/
def beside : Plan σ ν α → Plan (σ × List τ) ν α
  | done a => done a
  | look k => look fun s => (k s.1).beside
  | set s p => look fun t => set (s, t.2) p.beside
  | note n p => note n p.beside
  | wait ms p => wait ms p.beside

def recorded (write : α → List τ) (p : Plan σ ν α) : Plan (σ × List τ) ν α :=
  p.beside.bind fun a => look fun s => set (s.1, s.2 ++ write a) (done a)

def Course.extended (c : Course σ ν α) (form : α → α') (record : List τ) :
    Course (σ × List τ) ν α' :=
  ⟨form c.answer, c.elapsed, (c.state, record), c.notes⟩

/-- One plan does what the other does, and what it adds to the record is as the condition says. -/
def Extends (form : α → α') (p' : Plan (σ × List τ) ν α') (p : Plan σ ν α)
    (adds : α → List τ → Prop) : Prop :=
  ∀ s l, ∃ added, p'.run (s, l) = (p.run s).extended form (l ++ added) ∧
    adds (p.run s).answer added

/-- The same with the same answer. -/
abbrev Records (p' : Plan (σ × List τ) ν α) (p : Plan σ ν α) (adds : α → List τ → Prop) : Prop :=
  Extends id p' p adds

variable {form : α → α'} {form' : γ → γ'} {adds adds' : α → List τ → Prop}
variable {p' : Plan (σ × List τ) ν α'} {p : Plan σ ν α}

theorem Extends.mono (h : Extends form p' p adds) (himp : ∀ a l, adds a l → adds' a l) :
    Extends form p' p adds' := fun s l =>
  let ⟨added, hrun, hadds⟩ := h s l
  ⟨added, hrun, himp _ _ hadds⟩

theorem Extends.done {a : α} (h : adds a []) :
    Extends (σ := σ) (ν := ν) form (done (form a)) (done a) adds := fun s l =>
  ⟨[], by simp [run, Course.extended], h⟩

theorem Extends.error {ε : Type} {g : γ → γ'} {adds : Except ε γ → List τ → Prop} {e : ε}
    (h : adds (.error e) []) :
    Extends (σ := σ) (ν := ν) (Except.map g) (Plan.done (.error e)) (Plan.done (.error e))
      adds := fun s l =>
  ⟨[], by simp [run, Course.extended, Except.map], h⟩

theorem Extends.ok {ε : Type} {g : γ → γ'} {adds : Except ε γ → List τ → Prop} {c : γ}
    (h : adds (.ok c) []) :
    Extends (σ := σ) (ν := ν) (Except.map g) (Plan.done (.ok (g c))) (Plan.done (.ok c))
      adds := fun s l =>
  ⟨[], by simp [run, Course.extended, Except.map], h⟩

theorem Extends.bind {more : γ → List τ → Prop} {k' : α' → Plan (σ × List τ) ν γ'}
    {k : α → Plan σ ν γ} (hp : Extends form p' p adds)
    (hk : ∀ a l, adds a l → Extends form' (k' (form a)) (k a) fun c l' => more c (l ++ l')) :
    Extends form' (p'.bind k') (p.bind k) more := by
  intro s l
  obtain ⟨first, hfirst, hadds⟩ := hp s l
  obtain ⟨second, hsecond, hmore⟩ := hk _ _ hadds (p.run s).state (l ++ first)
  refine ⟨first ++ second, ?_, ?_⟩
  · simp only [run_bind, hfirst, Course.extended, hsecond, List.append_assoc]
  · simpa only [run_bind] using hmore

theorem Extends.note (n : ν) (h : Extends form p' p adds) :
    Extends form (note n p') (note n p) adds := by
  intro s l
  obtain ⟨added, hrun, hadds⟩ := h s l
  exact ⟨added, by simp only [run, hrun, Course.extended], hadds⟩

theorem Extends.wait (ms : Nat) (h : Extends form p' p adds) :
    Extends form (wait ms p') (wait ms p) adds := by
  intro s l
  obtain ⟨added, hrun, hadds⟩ := h s l
  exact ⟨added, by simp only [run, hrun, Course.extended], hadds⟩

theorem run_beside (p : Plan σ ν α) (s : σ) (l : List τ) :
    p.beside.run (s, l) = (p.run s).extended id l := by
  induction p generalizing s l with
  | done a => rfl
  | look k ih => exact ih s s l
  | set t p ih => exact ih t l
  | note n p ih => simp [beside, run, ih, Course.extended]
  | wait ms p ih => simp [beside, run, ih, Course.extended]

theorem beside_extends (p : Plan σ ν α) :
    Records (τ := τ) p.beside p fun _ added => added = [] := fun s l =>
  ⟨[], by rw [run_beside, List.append_nil], rfl⟩

theorem atomically_extends (f : σ → α × σ) :
    Records (ν := ν) (τ := τ) (atomically fun s => ((f s.1).1, (f s.1).2, s.2))
      (atomically f) fun _ added => added = [] := fun s l =>
  ⟨[], by simp [atomically, run, Course.extended], rfl⟩

/-! ### Under a budget -/

theorem within_beside (p : Plan σ ν α) (budget : Nat) :
    (p.beside : Plan (σ × List τ) ν α).within budget = (p.within budget).beside := by
  induction p generalizing budget with
  | done a => rfl
  | look k ih => simp only [beside, within, ih]
  | set s p ih => simp only [beside, within, ih]
  | note n p ih => simp only [beside, within, ih]
  | wait ms p ih =>
    by_cases hms : ms ≤ budget
    · simp only [beside, within, if_pos hms, ih]
    · simp only [beside, within, if_neg hms]

theorem run_within_recorded (write : α → List τ) (p : Plan σ ν α) (budget : Nat) (s : σ)
    (l : List τ) :
    ((p.recorded write).within budget).run (s, l) = ((p.within budget).run s).extended id
      (l ++ (((p.within budget).run s).answer.map write).getD []) := by
  induction p generalizing budget s l with
  | done a => rfl
  | look k ih => exact ih s budget s l
  | set t p ih => exact ih budget t l
  | note n p ih =>
    have hrest := ih budget s l
    simp only [recorded] at hrest
    simp only [recorded, beside, Plan.bind, within, run, hrest, Course.extended]
  | wait ms p ih =>
    by_cases hms : ms ≤ budget
    · have hrest := ih (budget - ms) s l
      simp only [recorded] at hrest
      simp only [recorded, beside, Plan.bind, within, if_pos hms, run, hrest, Course.extended]
    · simp [recorded, beside, Plan.bind, within, if_neg hms, run, Course.extended]

/-- Under a budget the answer and its time stay the same, and what is not cut off is written down
in full. -/
theorem Extends.run_within (h : Extends form p' p adds) (budget : Nat) (s : σ) (l : List τ) :
    ((p'.within budget).run (s, l)).answer = ((p.within budget).run s).answer.map form ∧
      ((p'.within budget).run (s, l)).elapsed = ((p.within budget).run s).elapsed ∧
      ∀ a, ((p.within budget).run s).answer = some a → ∃ added,
        (p'.within budget).run (s, l) =
          ((p.within budget).run s).extended (Option.map form) (l ++ added) ∧ adds a added := by
  obtain ⟨added, hrun, hadds⟩ := h s l
  have helapsed : (p'.run (s, l)).elapsed = (p.run s).elapsed := by rw [hrun]; rfl
  by_cases hle : (p.run s).elapsed ≤ budget
  · rw [within_of_le hle, within_of_le (helapsed ▸ hle), hrun]
    refine ⟨rfl, rfl, fun a ha => ⟨added, rfl, ?_⟩⟩
    obtain rfl := Option.some.inj ha
    exact hadds
  · obtain ⟨hnone, htime⟩ := late_of_gt (Nat.not_le.1 hle)
    obtain ⟨hnone', htime'⟩ := late_of_gt (helapsed ▸ Nat.not_le.1 hle)
    rw [hnone, hnone', htime, htime']
    exact ⟨rfl, rfl, fun a ha => by cases ha⟩

/-- An answer that comes in time is written down; what is cut off has none. -/
theorem attempt_recorded_extends {write : Except Failure α → List τ}
    (hwrite : ∀ f, write (.error f) = []) (p : Plan σ ν (Except Failure α)) (budget : Nat)
    (label : String) :
    Records ((p.recorded write).attempt budget label) (p.attempt budget label)
      fun a added => added = write a := by
  have hwithin : Records ((p.recorded write).within budget) (p.within budget)
      fun a added => added = (a.map write).getD [] := fun s l =>
    ⟨_, run_within_recorded write p budget s l, rfl⟩
  refine hwithin.bind fun a l hl => ?_
  cases a with
  | none => exact .done (by rw [hl, hwrite]; rfl)
  | some a => exact .done (by rw [hl]; simp)

theorem limited_beside_extends (p : Plan σ ν α) (budget : Nat) (label : String) :
    Records (τ := τ) (p.beside.limited budget label) (p.limited budget label)
      fun _ added => added = [] := by
  rw [limited, within_beside]
  refine (beside_extends (p.within budget)).bind fun a l hl => ?_
  cases a with
  | none => exact .done (by rw [hl]; rfl)
  | some a => exact .done (by rw [hl]; rfl)

theorem check_beside_extends (p : Plan σ ν Check) (budget : Nat) (label : String) :
    Records (τ := τ) (p.beside.check budget label) (p.check budget label)
      fun _ added => added = [] := by
  rw [check, within_beside]
  refine (beside_extends (p.within budget)).bind fun a l hl => ?_
  cases a with
  | none => exact .done (by rw [hl]; rfl)
  | some a => exact .done (by rw [hl]; rfl)

theorem mapNotes_beside (f : ν → μ) (p : Plan σ ν α) :
    (p.beside : Plan (σ × List τ) ν α).mapNotes f = (p.mapNotes f).beside := by
  induction p <;> simp_all [beside, mapNotes]

theorem mapNotes_recorded (f : ν → μ) (write : α → List τ) (p : Plan σ ν α) :
    (p.recorded write).mapNotes f = (p.mapNotes f).recorded write := by
  simp only [recorded]
  induction p <;> simp_all [beside, mapNotes, Plan.bind]

end Plan
end PackageHandling
