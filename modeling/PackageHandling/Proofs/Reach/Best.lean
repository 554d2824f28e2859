import Mathlib.Data.List.Forall2
import Mathlib.Data.List.Induction
import PackageHandling.Lookup
import PackageHandling.Proofs.Reach.Cost

/-!
# Which accessor is picked

The accessors are looked at in container order and configured order, and one that can be used takes
the place of the one that is held only if it costs less.  So what is held after any number of them
is the first of the cheapest: the main statement is `best_decided`.
-/

namespace PackageHandling

variable {β : Type}

namespace Candidate

/-- One step along the candidates: a new one is kept unless what is held costs no more. -/
def keep (held : Option Candidate) (c : Candidate) : Option Candidate :=
  if held.any (·.cost ≤ c.cost) then held else some c

/-- The pick among some candidates and one more takes one step from the pick among them. -/
theorem cheapest_concat (cs : List Candidate) (c : Candidate) :
    cheapest (cs ++ [c]) = keep (cheapest cs) c := by
  induction cs with
  | nil => rfl
  | cons head rest ih =>
    rw [List.cons_append, cheapest, ih, cheapest]
    cases cheapest rest <;> grind [keep]

/-- What is held once some candidates have been seen: the first of the cheapest among them. -/
def Held (seen : List Candidate) : Option Candidate → Prop
  | none => seen = []
  | some c => ∃ before after, seen = before ++ c :: after ∧
      (∀ d ∈ before, c.cost < d.cost) ∧ ∀ d ∈ after, c.cost ≤ d.cost

theorem Held.le {seen : List Candidate} {c d : Candidate} (h : Held seen (some c))
    (hd : d ∈ seen) : c.cost ≤ d.cost := by
  obtain ⟨before, after, rfl, hbefore, hafter⟩ := h
  rcases List.mem_append.1 hd with hd | hd
  · exact Nat.le_of_lt (hbefore d hd)
  · rcases List.mem_cons.1 hd with rfl | hd
    · exact Nat.le_refl _
    · exact hafter d hd

theorem Held.step {seen : List Candidate} {held : Option Candidate} (h : Held seen held)
    (c : Candidate) : Held (seen ++ [c]) (keep held c) := by
  cases held with
  | none =>
    obtain rfl : seen = [] := h
    exact ⟨[], [], rfl, nofun, nofun⟩
  | some d =>
    by_cases hle : d.cost ≤ c.cost
    · obtain ⟨before, after, rfl, hbefore, hafter⟩ := h
      rw [keep, if_pos (by simpa using hle)]
      refine ⟨before, after ++ [c], by simp, hbefore, fun e he => ?_⟩
      rcases List.mem_append.1 he with he | he
      · exact hafter e he
      · exact List.mem_singleton.1 he ▸ hle
    · rw [keep, if_neg (by simpa using hle)]
      exact ⟨seen, [], rfl, fun e he => Nat.lt_of_lt_of_le (Nat.not_le.1 hle) (h.le he), nofun⟩

theorem held_cheapest (cs : List Candidate) : Held cs (cheapest cs) := by
  induction cs using List.reverseRecOn with
  | nil => rfl
  | append_singleton seen c ih => exact cheapest_concat seen c ▸ ih.step c

theorem Held.unique {seen : List Candidate} {c d : Candidate} (hc : Held seen (some c))
    (hd : Held seen (some d)) : c = d := by
  obtain ⟨before, after, hc', hbefore, -⟩ := id hc
  obtain ⟨before', after', hd', hbefore', -⟩ := id hd
  have hcd : c.cost ≤ d.cost := hc.le (by simp [hd'])
  have hdc : d.cost ≤ c.cost := hd.le (by simp [hc'])
  have hsplits := List.append_eq_append_iff.1 (hc'.symm.trans hd')
  -- the one of the two that stands first is before the other, unless they are one
  rcases hsplits with ⟨between, hb, hrest⟩ | ⟨between, hb, hrest⟩
  · cases between with
    | nil => exact (List.cons.inj hrest).1
    | cons e es =>
      obtain rfl : c = e := (List.cons.inj hrest).1
      exact absurd hcd (Nat.not_le.2 (hbefore' c (by simp [hb])))
  · cases between with
    | nil => exact (List.cons.inj hrest).1.symm
    | cons e es =>
      obtain rfl : d = e := (List.cons.inj hrest).1
      exact absurd hdc (Nat.not_le.2 (hbefore d (by simp [hb])))

theorem cheapest_eq_some_iff {cs : List Candidate} {c : Candidate} :
    cheapest cs = some c ↔ Held cs (some c) := by
  have hheld := held_cheapest cs
  constructor
  · exact fun h => h ▸ hheld
  · intro h
    cases hcheapest : cheapest cs with
    | none =>
      rw [hcheapest] at hheld
      obtain rfl : cs = [] := hheld
      obtain ⟨before, after, hsplit, -⟩ := h
      simp at hsplit
    | some d =>
      rw [hcheapest] at hheld
      rw [h.unique hheld]

theorem cheapest_eq_none_iff {cs : List Candidate} : cheapest cs = none ↔ cs = [] := by
  cases cs with
  | nil => exact ⟨fun _ => rfl, fun _ => rfl⟩
  | cons c rest => rw [cheapest]; cases cheapest rest <;> simp

theorem held_filterMap_iff {ι : Type} {f : ι → Option Candidate} {is : List ι} {c : Candidate} :
    Held (is.filterMap f) (some c) ↔ ∃ before i after, is = before ++ i :: after ∧ f i = some c ∧
      (∀ j ∈ before, ∀ d, f j = some d → c.cost < d.cost) ∧
      ∀ j ∈ after, ∀ d, f j = some d → c.cost ≤ d.cost := by
  constructor
  · rintro ⟨before, after, hsplit, hbefore, hafter⟩
    obtain ⟨seen, rest, rfl, rfl, hrest⟩ := List.filterMap_eq_append_iff.1 hsplit
    obtain ⟨skipped, i, after', rfl, hskipped, hi, rfl⟩ := List.filterMap_eq_cons_iff.1 hrest
    refine ⟨seen ++ skipped, i, after', by simp, hi, fun j hj d hd => ?_, fun j hj d hd => ?_⟩
    · rcases List.mem_append.1 hj with hj | hj
      · exact hbefore d (List.mem_filterMap.2 ⟨j, hj, hd⟩)
      · rw [hskipped j hj] at hd
        cases hd
    · exact hafter d (List.mem_filterMap.2 ⟨j, hj, hd⟩)
  · rintro ⟨before, i, after, rfl, hi, hbefore, hafter⟩
    refine ⟨before.filterMap f, after.filterMap f, ?_, fun d hd => ?_, fun d hd => ?_⟩
    · rw [List.filterMap_append, List.filterMap_cons_some hi]
    · obtain ⟨j, hj, hd⟩ := List.mem_filterMap.1 hd
      exact hbefore j hj d hd
    · obtain ⟨j, hj, hd⟩ := List.mem_filterMap.1 hd
      exact hafter j hj d hd

end Candidate

namespace Registry

/-- The factory that was registered last for a kind of storage, if there is one. -/
def lastFactory? (calls : List (AccessType × Factory β)) (t : AccessType) : Option (Factory β) :=
  (calls.reverse.find? fun c => c.1 == t).map (·.2)

theorem lastFactory?_concat (calls : List (AccessType × Factory β)) (c : AccessType × Factory β)
    (t : AccessType) :
    lastFactory? (calls ++ [c]) t = if t = c.1 then some c.2 else lastFactory? calls t := by
  by_cases h : t = c.1
  · simp [lastFactory?, h]
  · simp [lastFactory?, h, Ne.symm h]

theorem exists_of_lastFactory? {calls : List (AccessType × Factory β)} {t : AccessType}
    {factory : Factory β} (h : lastFactory? calls t = some factory) :
    ∃ c ∈ calls, c.2 = factory := by
  obtain ⟨c, hc, rfl⟩ := Option.map_eq_some_iff.1 h
  exact ⟨c, List.mem_reverse.1 (List.mem_of_find?_eq_some hc), rfl⟩

/-- A registry holds the last registration of each kind, at the cost of the kind. -/
theorem registration?_ofList (calls : List (AccessType × Factory β)) (t : AccessType) :
    (ofList calls).registration? t =
      (lastFactory? calls t).map fun factory => ⟨t, factory, t.cost⟩ := by
  induction calls using List.reverseRecOn with
  | nil => rfl
  | append_singleton calls c ih =>
    rw [ofList, List.foldl_append, List.foldl_cons, List.foldl_nil, ← ofList,
      registration?_register, ih, lastFactory?_concat]
    split
    · next h => rw [h]; rfl
    · rfl

end Registry

structure PackageContainer.Reprioritized (c d : PackageContainer) : Prop where
  id : d.id = c.id
  accessors : c.accessors.entries.Forall₂
    (fun e f => ∃ priority, f = (e.1, { e.2 with priority := priority })) d.accessors.entries

namespace Worker

/-- The accessor allows the mode, its kind of storage is registered, and the factory of this kind
supports it where the worker is. -/
def Usable (location : Location) (calls : List (AccessType × Factory β)) (mode : AccessMode)
    (a : Accessor) : Prop :=
  mode.allows a = true ∧ ∃ factory, Registry.lastFactory? calls a.accessType = some factory ∧
    factory.supports location a = true

variable {w : Worker β} {calls : List (AccessType × Factory β)} {mode : AccessMode}
  {containers : List PackageContainer}

theorem candidate?_eq_some_iff (hw : w.registry = .ofList calls) {containerId accessorId : String}
    {a : Accessor} {c : Candidate} :
    w.candidate? mode containerId accessorId a = some c ↔
      Usable w.location calls mode a ∧
        c = ⟨containerId, accessorId, a.accessType, a.accessType.cost⟩ := by
  rw [candidate?, hw, Registry.registration?_ofList, Usable]
  cases mode.allows a with
  | false => simp
  | true =>
    cases Registry.lastFactory? calls a.accessType with
    | none => simp
    | some factory =>
      cases hsupports : factory.supports w.location a with
      | false => simp [hsupports]
      | true => simpa [hsupports] using eq_comm

theorem candidates_eq (w : Worker β) (mode : AccessMode) (containers : List PackageContainer) :
    w.candidates mode containers = (Pair.ofContainers containers).filterMap fun p =>
      w.candidate? mode p.container.id p.accessorId p.accessor := by
  rw [candidates, Pair.ofContainers, List.filterMap_flatMap]
  simp only [List.filterMap_map]
  rfl

theorem best_eq_none_iff (hw : w.registry = .ofList calls) :
    w.best mode containers = none ↔
      ∀ p ∈ Pair.ofContainers containers, ¬ Usable w.location calls mode p.accessor := by
  rw [best, Candidate.cheapest_eq_none_iff, candidates_eq, List.filterMap_eq_nil_iff]
  refine forall₂_congr fun p _ => ?_
  rw [Option.eq_none_iff_forall_ne_some]
  simp [candidate?_eq_some_iff hw]

theorem best_eq_some_iff (hw : w.registry = .ofList calls) {found : Candidate} :
    w.best mode containers = some found ↔
      ∃ before p after, Pair.ofContainers containers = before ++ p :: after ∧
        Usable w.location calls mode p.accessor ∧
        (∀ q ∈ before, Usable w.location calls mode q.accessor →
          p.accessor.accessType.cost < q.accessor.accessType.cost) ∧
        (∀ q ∈ after, Usable w.location calls mode q.accessor →
          p.accessor.accessType.cost ≤ q.accessor.accessType.cost) ∧
        found = ⟨p.container.id, p.accessorId, p.accessor.accessType,
          p.accessor.accessType.cost⟩ := by
  rw [best, Candidate.cheapest_eq_some_iff, candidates_eq, Candidate.held_filterMap_iff]
  refine exists_congr fun before => exists_congr fun p => exists_congr fun after =>
    and_congr_right fun _ => ?_
  rw [candidate?_eq_some_iff hw]
  constructor
  · rintro ⟨⟨husable, rfl⟩, hbefore, hafter⟩
    exact ⟨husable, fun q hq hu => hbefore q hq _ ((candidate?_eq_some_iff hw).2 ⟨hu, rfl⟩),
      fun q hq hu => hafter q hq _ ((candidate?_eq_some_iff hw).2 ⟨hu, rfl⟩), rfl⟩
  · rintro ⟨husable, hbefore, hafter, rfl⟩
    refine ⟨⟨husable, rfl⟩, fun q hq d hd => ?_, fun q hq d hd => ?_⟩
    · obtain ⟨hu, rfl⟩ := (candidate?_eq_some_iff hw).1 hd
      exact hbefore q hq hu
    · obtain ⟨hu, rfl⟩ := (candidate?_eq_some_iff hw).1 hd
      exact hafter q hq hu

section Reprioritized

/-- No factory among these registrations looks at the priority of an accessor. -/
def IgnorePriority (location : Location) (calls : List (AccessType × Factory β)) : Prop :=
  ∀ c ∈ calls, ∀ (a : Accessor) (priority : Option Int),
    c.2.supports location { a with priority := priority } = c.2.supports location a

theorem candidate?_reprioritized (hw : w.registry = .ofList calls)
    (hcalls : IgnorePriority w.location calls) (containerId accessorId : String) (a : Accessor)
    (priority : Option Int) :
    w.candidate? mode containerId accessorId { a with priority := priority } =
      w.candidate? mode containerId accessorId a := by
  have husable : Usable w.location calls mode { a with priority := priority } ↔
      Usable w.location calls mode a := by
    have hmode : mode.allows { a with priority := priority } = mode.allows a := by
      cases mode <;> rfl
    rw [Usable, Usable, hmode]
    refine and_congr_right fun _ => exists_congr fun factory => and_congr_right fun h => ?_
    obtain ⟨c, hc, rfl⟩ := Registry.exists_of_lastFactory? h
    rw [hcalls c hc]
  refine Option.ext fun c => ?_
  rw [candidate?_eq_some_iff hw, candidate?_eq_some_iff hw, husable]
  rfl

theorem filterMap_reprioritized (hw : w.registry = .ofList calls)
    (hcalls : IgnorePriority w.location calls) (id : String) {es fs : List (String × Accessor)}
    (h : es.Forall₂ (fun e f => ∃ priority, f = (e.1, { e.2 with priority := priority })) fs) :
    fs.filterMap (fun e => w.candidate? mode id e.1 e.2) =
      es.filterMap fun e => w.candidate? mode id e.1 e.2 := by
  induction h with
  | nil => rfl
  | cons hef _ ih =>
    obtain ⟨priority, rfl⟩ := hef
    rw [List.filterMap_cons, List.filterMap_cons, ih, candidate?_reprioritized hw hcalls]

theorem candidates_reprioritized (hw : w.registry = .ofList calls)
    (hcalls : IgnorePriority w.location calls) {containers' : List PackageContainer}
    (h : containers.Forall₂ PackageContainer.Reprioritized containers') :
    w.candidates mode containers' = w.candidates mode containers := by
  induction h with
  | nil => rfl
  | cons hcd _ ih =>
    rw [candidates, List.flatMap_cons, ← candidates, ih, hcd.id,
      filterMap_reprioritized hw hcalls _ hcd.accessors]
    rfl

end Reprioritized

/-- A worker picks the first of the cheapest accessors that it can use, in container order and
configured order; priorities play no part in it, unless a factory looks at them. -/
theorem best_decided (w : Worker β) (calls : List (AccessType × Factory β)) (mode : AccessMode)
    (containers : List PackageContainer) :
    let w := { w with registry := .ofList calls }
    let usable (p : Pair) : Prop := Usable w.location calls mode p.accessor
    let cost (p : Pair) : Nat := p.accessor.accessType.cost
    (w.best mode containers = none ↔ ∀ p ∈ Pair.ofContainers containers, ¬ usable p) ∧
    (∀ found, w.best mode containers = some found ↔
      ∃ before p after, Pair.ofContainers containers = before ++ p :: after ∧ usable p ∧
        (∀ q ∈ before, usable q → cost p < cost q) ∧ (∀ q ∈ after, usable q → cost p ≤ cost q) ∧
        found = ⟨p.container.id, p.accessorId, p.accessor.accessType, cost p⟩) ∧
    ∀ containers', containers.Forall₂ PackageContainer.Reprioritized containers' →
      IgnorePriority w.location calls → w.best mode containers' = w.best mode containers := by
  intro w usable cost
  have hw : w.registry = .ofList calls := rfl
  exact ⟨best_eq_none_iff hw, fun found => best_eq_some_iff hw, fun containers' h hcalls =>
    congrArg Candidate.cheapest (candidates_reprioritized hw hcalls h)⟩

/-- Of two folders, which cost less than the web, the one that stands first is picked. -/
theorem best_decided_of_folders :
    let factory : Factory Unit := { create := fun _ s => (.error .cancelHandlerMissing, s) }
    let calls := [(AccessType.http, factory), (AccessType.localFolder, factory)]
    let w : Worker Unit :=
      ⟨"worker", ⟨none, ["studio"]⟩, Config.default fun _ => none, .ofList calls⟩
    let web : Accessor := { allowRead := true, connection := .http none none false none }
    let folder (priority : Option Int) : Accessor :=
      { allowRead := true, priority, connection := .localFolder none none none }
    let containers (priority : Option Int) : List PackageContainer :=
      [⟨"web", "Web", Ordered.ofList [("page", web)]⟩,
        ⟨"disk", "Disk", Ordered.ofList [("first", folder none), ("second", folder priority)]⟩]
    (containers none).Forall₂ PackageContainer.Reprioritized (containers (some (-1))) ∧
      IgnorePriority w.location calls ∧
      w.best .read (containers (some (-1))) = some ⟨"disk", "first", .localFolder, 1⟩ := by
  intro factory calls w web folder containers
  have hreprioritized : (containers none).Forall₂ PackageContainer.Reprioritized
      (containers (some (-1))) :=
    .cons ⟨rfl, .cons ⟨none, rfl⟩ .nil⟩
      (.cons ⟨rfl, .cons ⟨none, rfl⟩ (.cons ⟨some (-1), rfl⟩ .nil)⟩ .nil)
  have hcalls : IgnorePriority w.location calls := by
    intro c hc a priority
    have hfactory : c.2 = factory := by
      rcases List.mem_pair.1 hc with rfl | rfl <;> rfl
    rw [hfactory]
    rfl
  obtain ⟨-, -, hsame⟩ := best_decided w calls .read (containers none)
  exact ⟨hreprioritized, hcalls, (hsame _ hreprioritized hcalls).trans (by decide)⟩

end Worker
end PackageHandling
