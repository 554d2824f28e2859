import PackageHandling.Reach

/-!
# The cost of a job and the reach of a worker

What a registration costs is set when it is made, so a candidate costs what its kind of storage
costs.  A job then has a cost exactly where the worker reaches its containers, and the cost is made
of the costs of the two candidates that are picked: the main statement is `standardCost_of_picked`.
-/

namespace PackageHandling

variable {β : Type}

namespace Registry

def ofList (calls : List (AccessType × Factory β)) : Registry β :=
  calls.foldl (fun r c => r.register c.1 c.2) empty

/-- Every registration is of the kind under which it is found, and costs what that kind costs. -/
def Priced (r : Registry β) : Prop :=
  ∀ t entry, r.registration? t = some entry → entry.accessType = t ∧ entry.cost = t.cost

theorem priced_empty : (empty : Registry β).Priced := fun _ _ h => by cases h

theorem Priced.register {r : Registry β} (h : r.Priced) (t : AccessType) (factory : Factory β) :
    (r.register t factory).Priced := by
  intro t' entry hentry
  rw [registration?_register] at hentry
  split at hentry
  · next ht =>
    obtain rfl := Option.some.inj hentry
    exact ⟨ht.symm, by rw [ht]⟩
  · exact h t' entry hentry

theorem priced_ofList (calls : List (AccessType × Factory β)) : (ofList calls).Priced :=
  List.foldlRecOn calls _ priced_empty fun _ h c _ => h.register c.1 c.2

end Registry

theorem Candidate.mem_of_cheapest {cs : List Candidate} {c : Candidate}
    (h : cheapest cs = some c) : c ∈ cs := by
  induction cs generalizing c with
  | nil => cases h
  | cons head rest ih =>
    rw [cheapest] at h
    cases hrest : cheapest rest with
    | none =>
      rw [hrest] at h
      exact Option.some.inj h ▸ List.mem_cons_self
    | some d =>
      rw [hrest] at h
      obtain rfl := Option.some.inj h
      split
      · exact List.mem_cons_of_mem _ (ih hrest)
      · exact List.mem_cons_self

def Expectation.sources? (e : Expectation) : Option (List PackageContainer) :=
  if e.sources.isEmpty then none else some e.sources

namespace Worker

variable {w : Worker β} {mode : AccessMode} {containers : List PackageContainer} {c : Candidate}

theorem cost_of_candidate? (hw : w.registry.Priced) {containerId accessorId : String}
    {a : Accessor} (h : w.candidate? mode containerId accessorId a = some c) :
    c.cost = c.accessType.cost := by
  rw [candidate?] at h
  split at h
  · cases h
  · split at h
    · cases h
    · next entry hentry =>
      split at h
      · obtain rfl := Option.some.inj h
        obtain ⟨htype, hcost⟩ := hw _ entry hentry
        rw [hcost, htype]
      · cases h

theorem cost_of_best (hw : w.registry.Priced) (h : w.best mode containers = some c) :
    c.cost = c.accessType.cost := by
  obtain ⟨container, -, hmem⟩ := List.mem_flatMap.1 (Candidate.mem_of_cheapest h)
  obtain ⟨e, -, he⟩ := List.mem_filterMap.1 hmem
  exact cost_of_candidate? hw he

def price (w : Worker β) (mode : AccessMode) (containers : List PackageContainer) : Option Nat :=
  (w.best mode containers).map (·.cost)

theorem price_eq (hw : w.registry.Priced) :
    w.price mode containers = (w.best mode containers).map (·.accessType.cost) :=
  Option.map_congr fun _ h => cost_of_best hw h

theorem price_pos (hw : w.registry.Priced) {cost : Nat}
    (h : w.price mode containers = some cost) : 0 < cost := by
  obtain ⟨c, hc, rfl⟩ := Option.map_eq_some_iff.1 h
  exact cost_of_best hw hc ▸ c.accessType.cost_pos

theorem reachSide_eq_ok (w : Worker β) (mode : AccessMode) (plural singular : String)
    (containers : List PackageContainer) :
    w.reachSide mode plural singular containers = .ok () ↔
      (w.price mode containers).isSome := by
  rw [reachSide, price, Option.isSome_map]
  split <;> simp_all

/-- What the sources of a job cost; no source costs nothing. -/
def sourcePrice (w : Worker β) (e : Expectation) : Option Nat :=
  if e.sources.isEmpty then some 0 else w.price .read e.sources

theorem standardCost_eq (hw : w.registry.Priced) (e : Expectation) :
    w.standardCost e = (w.sourcePrice e).bind fun source =>
      (w.price .write e.targets).map fun target => costFactor * (source + target) := by
  rw [sourcePrice, price_eq hw, price_eq hw, standardCost]
  split <;> cases w.best .write e.targets <;> rfl

theorem reaches_eq_ok (w : Worker β) (e : Expectation) :
    w.reaches e.sources? (some e.targets) = .ok () ↔
      (w.sourcePrice e).isSome ∧ (w.price .write e.targets).isSome := by
  rw [sourcePrice, ← reachSide_eq_ok w .write "targets" "target", Expectation.sources?]
  split
  · exact ⟨fun h => ⟨rfl, h⟩, And.right⟩
  · rw [← reachSide_eq_ok w .read "sources" "source", reaches]
    cases w.reachSide .read "sources" "source" e.sources with
    | error r => exact ⟨nofun, fun h => nomatch h.1⟩
    | ok _ => exact ⟨fun h => ⟨rfl, h⟩, And.right⟩

/-- A worker has a cost for a job if and only if it reaches its sources and targets; the cost is
thirty times what the two candidates that are picked cost by their registrations. -/
theorem standardCost_of_picked (w : Worker β) (calls : List (AccessType × Factory β))
    (e : Expectation) :
    let w := { w with registry := .ofList calls }
    w.registry.Priced ∧
    ((w.standardCost e).isSome ↔ w.reaches e.sources? (some e.targets) = .ok ()) ∧
    ∀ cost, w.standardCost e = some cost →
      ∃ source target, w.sourcePrice e = some source ∧ w.price .write e.targets = some target ∧
        cost = 30 * (source + target) ∧ 0 < cost := by
  intro w
  have hw : w.registry.Priced := Registry.priced_ofList calls
  refine ⟨hw, ?_, fun cost hcost => ?_⟩
  · rw [reaches_eq_ok, standardCost_eq hw]
    cases w.sourcePrice e <;> simp
  · rw [standardCost_eq hw] at hcost
    obtain ⟨source, hsource, hcost⟩ := Option.bind_eq_some_iff.1 hcost
    obtain ⟨target, htarget, rfl⟩ := Option.map_eq_some_iff.1 hcost
    have hpos : 0 < target := price_pos hw htarget
    exact ⟨source, target, hsource, htarget, rfl, Nat.mul_pos (by decide) (by omega)⟩

end Worker

def Expectation.fromWeb : Expectation where
  id := "copy"
  type := .fileCopy
  managerId := "manager"
  start := {
    sources := [⟨"source", "Source", Ordered.ofList
      [("share", { allowRead := true, connection := .fileShare none none none none "office" }),
        ("web", { allowRead := true, connection := .http none none false none })]⟩] }
  goal := {
    targets := [⟨"target", "Target", Ordered.ofList
      [("folder", { allowWrite := true, connection := .localFolder none none none })]⟩] }

namespace Worker

/-- The share cannot be reached, and of the two registrations for folders the later one counts. -/
theorem standardCost_of_picked_fromWeb :
    let factory : Factory Unit := { create := fun _ s => (.error .cancelHandlerMissing, s) }
    let closed : Factory Unit := { factory with supports := fun _ _ => false }
    let calls := [(AccessType.localFolder, closed), (AccessType.fileShare, factory),
      (AccessType.http, factory), (AccessType.localFolder, factory)]
    let w : Worker Unit :=
      ⟨"worker", ⟨none, ["studio"]⟩, Config.default fun _ => none, .ofList calls⟩
    w.standardCost .fromWeb = some 120 ∧
      ∃ source target, w.sourcePrice .fromWeb = some source ∧
        w.price .write Expectation.fromWeb.targets = some target ∧
        120 = 30 * (source + target) := by
  intro factory closed calls w
  have hcost : w.standardCost .fromWeb = some 120 := by decide
  obtain ⟨-, -, hpicked⟩ := standardCost_of_picked w calls .fromWeb
  obtain ⟨source, target, hsource, htarget, hsum, -⟩ := hpicked 120 hcost
  exact ⟨hcost, source, target, hsource, htarget, hsum⟩

end Worker
end PackageHandling
