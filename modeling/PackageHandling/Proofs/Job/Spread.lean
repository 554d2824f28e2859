import PackageHandling.Timeline
import PackageHandling.Proofs.Job.Discharge

/-!
# Duties on a timeline

The processes of a timeline share the duties of a scene among them.  What the timeline does with its
processes, to queue them, to wake them or to let one go on, leaves each duty with the process that
sees to it.
-/

namespace PackageHandling

variable {σ : Type} {α γ : Type}

/-- Every one sees to some duties; the duties of all, one after the other. -/
inductive Share (sees : α → List Duty → Prop) : List α → List Duty → Prop
  | nil : Share sees [] []
  | cons {a : α} {as : List α} {ds es : List Duty} (first : sees a ds) (others : Share sees as es) :
    Share sees (a :: as) (ds ++ es)

namespace Share

variable {sees sees' : α → List Duty → Prop} {as bs : List α} {ds es : List Duty}

theorem single {a : α} (h : sees a ds) : Share sees [a] ds := by
  simpa using Share.cons h .nil

theorem of_single {a : α} (h : Share sees [a] ds) : sees a ds := by
  cases h with
  | cons first others =>
    cases others with
    | nil => simpa using first

theorem eq_nil (h : Share sees [] ds) : ds = [] := by
  cases h
  rfl

theorem append (h : Share sees as ds) (h' : Share sees bs es) :
    Share sees (as ++ bs) (ds ++ es) := by
  induction h with
  | nil => exact h'
  | cons first others ih =>
    rw [List.append_assoc]
    exact .cons first ih

theorem imp (h : Share sees as ds) (hsees : ∀ a ∈ as, ∀ ds, sees a ds → sees' a ds) :
    Share sees' as ds := by
  induction h with
  | nil => exact .nil
  | cons first others ih =>
    exact .cons (hsees _ (by simp) _ first) (ih fun a ha => hsees a (List.mem_cons_of_mem _ ha))

theorem map (f : α → γ) {sees : γ → List Duty → Prop} (h : Share (fun a => sees (f a)) as ds) :
    Share sees (as.map f) ds := by
  induction h with
  | nil => exact .nil
  | cons first others ih => exact .cons first ih

theorem exists_of_mem (h : Share sees as ds) {d : Duty} (hd : d ∈ ds) :
    ∃ a ∈ as, ∃ es, sees a es ∧ d ∈ es := by
  induction h with
  | nil => cases hd
  | cons first others ih =>
    rcases List.mem_append.1 hd with hd | hd
    · exact ⟨_, by simp, _, first, hd⟩
    · obtain ⟨a, ha, hrest⟩ := ih hd
      exact ⟨a, List.mem_cons_of_mem _ ha, hrest⟩

theorem filter (h : Share sees as ds) (p : α → Bool) :
    ∃ ds₁ ds₂, Share sees (as.filter p) ds₁ ∧ Share sees (as.filter (!p ·)) ds₂ ∧
      ∀ d, ds.count d = ds₁.count d + ds₂.count d := by
  induction h with
  | nil => exact ⟨[], [], .nil, .nil, fun _ => rfl⟩
  | @cons a as ds es first others ih =>
    obtain ⟨ds₁, ds₂, h₁, h₂, hcount⟩ := ih
    cases hp : p a with
    | true =>
      refine ⟨ds ++ ds₁, ds₂, by simpa [hp] using Share.cons first h₁, by simpa [hp] using h₂, ?_⟩
      intro d
      rw [List.count_append, List.count_append, hcount]
      omega
    | false =>
      refine ⟨ds₁, ds ++ ds₂, by simpa [hp] using h₁, by simpa [hp] using Share.cons first h₂, ?_⟩
      intro d
      rw [List.count_append, List.count_append, hcount]
      omega

end Share

namespace Timeline

/-- A paused process that sees to duties once it goes on, and may rest until then. -/
structure Resting (site : Worksite σ) (now : Nat) (x : Paused σ) (ds : List Duty) : Prop where
  next : ∀ later, now ≤ later → (x.deadline = some later ∨ ∃ s, x.condition s = true) →
    Discharges site later ds x.next
  deadline : ∀ l ∈ x.deadline, now ≤ l
  rests : ∀ d ∈ ds, d.Rests site x.condition x.deadline

def Going (site : Worksite σ) (now : Nat) (p : Process σ) (ds : List Duty) : Prop :=
  Discharges site now ds p

/-- The processes of a timeline see to these duties, in some order. -/
def Spread (site : Worksite σ) (t : Timeline σ) (ds : List Duty) : Prop :=
  ∃ ms rs ys ps, Share (Going site t.now) t.main.toList ms ∧ Share (Going site t.now) t.ready rs ∧
    Share (Going site t.now) t.yielded ys ∧ Share (Resting site t.now) t.paused ps ∧
    ∀ d, ds.count d = ms.count d + rs.count d + ys.count d + ps.count d

def mains (t : Timeline σ) : Nat := t.main.toList.length + t.paused.countP (·.isMain)

theorem wake_main {t : Timeline σ} (woken : List (Paused σ))
    (h : t.main.toList.length + woken.countP (·.isMain) ≤ 1) :
    (t.wake woken).main.toList = t.main.toList ++ (woken.filter (·.isMain)).map (·.next) := by
  have hfind : woken.find? (·.isMain) = (woken.filter (·.isMain)).head? := List.head?_filter.symm
  rw [List.countP_eq_length_filter] at h
  rw [wake]
  simp only [hfind]
  cases hmain : t.main with
  | none =>
    cases hwoken : woken.filter (·.isMain) with
    | nil => rfl
    | cons x rest =>
      rw [hmain, hwoken, List.length_cons] at h
      obtain rfl : rest = [] := List.eq_nil_of_length_eq_zero (by omega)
      rfl
  | some p =>
    rw [hmain, Option.toList_some, List.length_singleton] at h
    have hnil : woken.filter (·.isMain) = [] := List.eq_nil_of_length_eq_zero (by omega)
    rw [hnil]
    rfl

theorem mains_wake {t u : Timeline σ} {p : Paused σ → Bool} (h : t.mains ≤ 1)
    (hmain : u.main = t.main) (hpaused : u.paused = t.paused.filter (!p ·)) :
    (u.wake (t.paused.filter p)).mains = t.mains := by
  have hsplit := List.countP_eq_countP_filter_add t.paused (·.isMain) p
  rw [mains] at h
  have hwake := wake_main (t := u) (t.paused.filter p) (by rw [hmain]; omega)
  rw [mains, hwake, List.length_append, List.length_map, ← List.countP_eq_length_filter, hmain,
    mains]
  simp only [Timeline.wake, hpaused]
  omega

theorem put_eq (t : Timeline σ) (x : σ) :
    t.put x = Timeline.wake (t.paused.filter (Paused.condition · x))
      { t with state := x, paused := t.paused.filter (!Paused.condition · x) } := by
  simp [put, List.partition_eq_filter_filter, Function.comp_def]

theorem mains_put {t : Timeline σ} (h : t.mains ≤ 1) (x : σ) : (t.put x).mains = t.mains := by
  rw [put_eq]
  exact mains_wake h rfl rfl

theorem jump_eq (t : Timeline σ) (time : Nat) :
    t.jump time = Timeline.wake (t.paused.filter fun x => x.deadline.any (· ≤ time))
      { t with
        now := max t.now time
        paused := t.paused.filter fun x => !x.deadline.any (· ≤ time) } := by
  simp [jump, List.partition_eq_filter_filter, Function.comp_def]

theorem mains_jump {t : Timeline σ} (h : t.mains ≤ 1) (time : Nat) :
    (t.jump time).mains = t.mains := by
  rw [jump_eq]
  exact mains_wake h rfl rfl

namespace Spread

variable {site : Worksite σ} {t : Timeline σ} {ds es : List Duty}

theorem wake {u : Timeline σ} {p : Paused σ → Bool} (h : t.Spread site ds) (hmains : t.mains ≤ 1)
    (hsame : u.main = t.main ∧ u.ready = t.ready ∧ u.yielded = t.yielded)
    (hpaused : u.paused = t.paused.filter (!p ·))
    (hgoing : ∀ q es, q ∈ t.main.toList ++ t.ready ++ t.yielded → Going site t.now q es →
      Going site u.now q es)
    (hwoken : ∀ x es, p x = true → x ∈ t.paused → Resting site t.now x es →
      Going site u.now x.next es)
    (hresting : ∀ x es, p x = false → x ∈ t.paused → Resting site t.now x es →
      Resting site u.now x es) : (u.wake (t.paused.filter p)).Spread site ds := by
  obtain ⟨ms, rs, ys, ps, hms, hrs, hys, hps, hcount⟩ := h
  obtain ⟨ps₁, ps₂, hps₁, hps₂, hcount₁⟩ := hps.filter p
  have hgo : Share (fun x es => Going site u.now x.next es) (t.paused.filter p) ps₁ := by
    refine hps₁.imp fun x hx es hes => ?_
    obtain ⟨hmem, hp⟩ := List.mem_filter.1 hx
    exact hwoken x es hp hmem hes
  have hrest : Share (Resting site u.now) (t.paused.filter (!p ·)) ps₂ := by
    refine hps₂.imp fun x hx es hes => ?_
    obtain ⟨hmem, hp⟩ := List.mem_filter.1 hx
    exact hresting x es (by simpa using hp) hmem hes
  obtain ⟨ws, os, hws, hos, hcount₂⟩ := hgo.filter (·.isMain)
  obtain ⟨humain, huready, huyielded⟩ := hsame
  refine ⟨ms ++ ws, rs ++ os, ys, ps₂, ?_, ?_, ?_, ?_, ?_⟩
  · have hsplit := List.countP_eq_countP_filter_add t.paused (·.isMain) p
    rw [mains] at hmains
    rw [wake_main _ (by rw [humain]; omega), humain]
    refine Share.append (hms.imp fun q hq es => hgoing q es (by simp [hq])) ?_
    exact Share.map Paused.next hws
  · simp only [Timeline.wake, huready]
    refine Share.append (hrs.imp fun q hq es => hgoing q es (by simp [hq])) ?_
    exact Share.map Paused.next hos
  · simp only [Timeline.wake, huyielded]
    exact hys.imp fun q hq es => hgoing q es (by simp [hq])
  · simp only [Timeline.wake, hpaused]
    exact hrest
  · intro d
    rw [hcount, hcount₁, hcount₂, List.count_append, List.count_append]
    omega

theorem put (h : t.Spread site ds) (hmains : t.mains ≤ 1) (x : σ) : (t.put x).Spread site ds := by
  rw [put_eq]
  refine h.wake hmains ⟨rfl, rfl, rfl⟩ rfl (fun q es _ hq => hq) ?_ (fun y es _ _ hy => hy)
  intro y es hy _ hrest
  exact hrest.next t.now (Nat.le_refl _) (.inr ⟨x, hy⟩)

theorem jump (h : t.Spread site ds) (hmains : t.mains ≤ 1)
    (hnobody : t.main = none ∧ t.ready = [] ∧ t.yielded = []) {time : Nat}
    (htime : ∀ x ∈ t.paused, ∀ l ∈ x.deadline, time ≤ l) : (t.jump time).Spread site ds := by
  obtain ⟨hmain, hready, hyielded⟩ := hnobody
  rw [jump_eq]
  refine h.wake hmains ⟨rfl, rfl, rfl⟩ rfl ?_ ?_ ?_
  · intro q es hq
    simp [hmain, hready, hyielded] at hq
  · intro x es hdue hx hrest
    obtain ⟨l, hl, hle⟩ := (Option.any_eq_true _ _).1 hdue
    have hnow := hrest.deadline l hl
    have hlater : l = max t.now time := by
      have := of_decide_eq_true hle
      have := htime x hx l hl
      omega
    exact hlater ▸ hrest.next l hnow (.inl hl)
  · intro x es _ hx hrest
    have hle : t.now ≤ max t.now time := Nat.le_max_left ..
    refine ⟨fun later hlater => hrest.next later (Nat.le_trans hle hlater), ?_, hrest.rests⟩
    exact fun l hl => Nat.max_le.2 ⟨hrest.deadline l hl, htime x hx l hl⟩

theorem push_ready (h : t.Spread site es) {p : Process σ} (hp : Discharges site t.now ds p) :
    Spread site { t with ready := t.ready ++ [p] } (ds ++ es) := by
  obtain ⟨ms, rs, ys, ps, hms, hrs, hys, hps, hcount⟩ := h
  refine ⟨ms, rs ++ ds, ys, ps, hms, hrs.append (.single hp), hys, hps, fun d => ?_⟩
  rw [List.count_append, List.count_append, hcount]
  omega

theorem push_yielded (h : t.Spread site es) {p : Process σ} (hp : Discharges site t.now ds p) :
    Spread site { t with yielded := t.yielded ++ [p] } (ds ++ es) := by
  obtain ⟨ms, rs, ys, ps, hms, hrs, hys, hps, hcount⟩ := h
  refine ⟨ms, rs, ys ++ ds, ps, hms, hrs, hys.append (.single hp), hps, fun d => ?_⟩
  rw [List.count_append, List.count_append, hcount]
  omega

theorem push_paused (h : t.Spread site es) {x : Paused σ} (hx : Resting site t.now x ds) :
    Spread site { t with paused := t.paused ++ [x] } (ds ++ es) := by
  obtain ⟨ms, rs, ys, ps, hms, hrs, hys, hps, hcount⟩ := h
  refine ⟨ms, rs, ys, ps ++ ds, hms, hrs, hys, hps.append (.single hx), fun d => ?_⟩
  rw [List.count_append, List.count_append, hcount]
  omega

theorem push_main (h : t.Spread site es) (hmain : t.main = none) {p : Process σ}
    (hp : Discharges site t.now ds p) : Spread site { t with main := some p } (ds ++ es) := by
  obtain ⟨ms, rs, ys, ps, hms, hrs, hys, hps, hcount⟩ := h
  rw [hmain] at hms
  obtain rfl := hms.eq_nil
  refine ⟨ds, rs, ys, ps, .single hp, hrs, hys, hps, fun d => ?_⟩
  rw [List.count_append, hcount, List.count_nil]
  omega

theorem pop_main (h : t.Spread site ds) {p : Process σ} (hmain : t.main = some p) :
    ∃ es fs, Discharges site t.now es p ∧ Spread site { t with main := none } fs ∧
      ∀ d, ds.count d = es.count d + fs.count d := by
  obtain ⟨ms, rs, ys, ps, hms, hrs, hys, hps, hcount⟩ := h
  rw [hmain] at hms
  refine ⟨ms, rs ++ ys ++ ps, hms.of_single, ⟨[], rs, ys, ps, .nil, hrs, hys, hps, ?_⟩, ?_⟩
  · intro d
    rw [List.count_append, List.count_append, List.count_nil, Nat.zero_add]
  · intro d
    rw [hcount, List.count_append, List.count_append]
    omega

theorem pop_ready (h : t.Spread site ds) {p : Process σ} {rest : List (Process σ)}
    (hready : t.ready = p :: rest) :
    ∃ es fs, Discharges site t.now es p ∧ Spread site { t with ready := rest } fs ∧
      ∀ d, ds.count d = es.count d + fs.count d := by
  obtain ⟨ms, rs, ys, ps, hms, hrs, hys, hps, hcount⟩ := h
  rw [hready] at hrs
  cases hrs with
  | @cons _ _ es rs first others =>
    refine ⟨es, ms ++ rs ++ ys ++ ps, first, ⟨ms, rs, ys, ps, hms, others, hys, hps, ?_⟩, ?_⟩
    · intro d
      rw [List.count_append, List.count_append, List.count_append]
    · intro d
      rw [hcount, List.count_append, List.count_append, List.count_append, List.count_append]
      omega

/-- Those that let the others go first are ready when the others are not any more. -/
theorem round (h : t.Spread site ds) (hready : t.ready = []) :
    Spread site { t with ready := t.yielded, yielded := [], mainHadTurn := false } ds := by
  obtain ⟨ms, rs, ys, ps, hms, hrs, hys, hps, hcount⟩ := h
  rw [hready] at hrs
  obtain rfl := hrs.eq_nil
  refine ⟨ms, ys, [], ps, hms, hys, .nil, hps, fun d => ?_⟩
  rw [hcount, List.count_nil]
  omega

/-- While nobody is ready, every duty is with a process that rests. -/
theorem exists_resting (h : t.Spread site ds)
    (hnobody : t.main = none ∧ t.ready = [] ∧ t.yielded = []) {d : Duty} (hd : d ∈ ds) :
    ∃ x ∈ t.paused, ∃ es, Resting site t.now x es ∧ d ∈ es := by
  obtain ⟨ms, rs, ys, ps, hms, hrs, hys, hps, hcount⟩ := h
  obtain ⟨hmain, hready, hyielded⟩ := hnobody
  rw [hmain] at hms
  rw [hready] at hrs
  rw [hyielded] at hys
  obtain rfl := hms.eq_nil
  obtain rfl := hrs.eq_nil
  obtain rfl := hys.eq_nil
  refine hps.exists_of_mem (List.count_pos_iff.1 ?_)
  have hpos := List.count_pos_iff.2 hd
  rw [hcount] at hpos
  simpa using hpos

end Spread
end Timeline
end PackageHandling
