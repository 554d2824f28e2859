import Mathlib.Logic.Relation
import PackageHandling.Proofs.Lookup.Rearranged
import PackageHandling.Proofs.Reach.Best

/-!
# The cost of a job as its surroundings grow

A side of a job costs the least that some accessor of it is offered at.  So the order of containers
and accessors plays no part, and whatever adds an offer can only make the job cheaper: the main
statement is `standardCost_of_growth`.
-/

namespace PackageHandling

variable {β : Type}

/-- Whatever had a cost has one still, and none that is higher. -/
def NoDearer (after before : Option Nat) : Prop :=
  ∀ cost, before = some cost → ∃ cost' ≤ cost, after = some cost'

namespace NoDearer

variable {a b c : Option Nat}

theorem refl (a : Option Nat) : NoDearer a a := fun cost h => ⟨cost, Nat.le_refl _, h⟩

theorem trans (h : NoDearer c b) (h' : NoDearer b a) : NoDearer c a := by
  intro cost hcost
  obtain ⟨cost', hle', hb⟩ := h' cost hcost
  obtain ⟨cost'', hle'', hc⟩ := h cost' hb
  exact ⟨cost'', Nat.le_trans hle'' hle', hc⟩

theorem antisymm (h : NoDearer a b) (h' : NoDearer b a) : a = b := by
  cases b with
  | none =>
    cases a with
    | none => rfl
    | some n =>
      obtain ⟨cost, -, hnone⟩ := h' n rfl
      cases hnone
  | some m =>
    obtain ⟨n, hnm, rfl⟩ := h m rfl
    obtain ⟨k, hkn, hk⟩ := h' n rfl
    obtain rfl := Option.some.inj hk
    rw [Nat.le_antisymm hnm hkn]

end NoDearer

/-- The factory supports what can be reached from where the worker is, as all do by default. -/
def Factory.IsStandard (factory : Factory β) : Prop :=
  ∀ location a, factory.supports location a = a.reachableFrom location

def Registry.IsStandard (r : Registry β) : Prop :=
  ∃ calls : List (AccessType × Factory β), r = .ofList calls ∧ ∀ c ∈ calls, c.2.IsStandard

theorem Registry.IsStandard.priced {r : Registry β} (h : r.IsStandard) : r.Priced := by
  obtain ⟨calls, rfl, -⟩ := h
  exact priced_ofList calls

theorem Registry.IsStandard.register {r : Registry β} (h : r.IsStandard) (t : AccessType)
    {factory : Factory β} (hfactory : factory.IsStandard) : (r.register t factory).IsStandard := by
  obtain ⟨calls, rfl, hcalls⟩ := h
  refine ⟨calls ++ [(t, factory)], ?_, fun c hc => ?_⟩
  · rw [ofList, ofList, List.foldl_append]
    rfl
  · rcases List.mem_append.1 hc with hc | hc
    · exact hcalls c hc
    · obtain rfl := List.mem_singleton.1 hc
      exact hfactory

theorem Pair.map_accessor_eq {ps qs : List Pair} (h : ps.Forall₂ Pair.Rearranged qs) :
    ps.map (·.accessor) = qs.map (·.accessor) := by
  induction h with
  | nil => rfl
  | cons hpq _ ih => rw [List.map_cons, List.map_cons, hpq.accessor, ih]

namespace Accessor

inductive Granted (a : Accessor) : Accessor → Prop
  | read : Granted a { a with allowRead := true }
  | write : Granted a { a with allowWrite := true }

/-- The same storage, with all the rights of the other and perhaps more. -/
structure Covers (a b : Accessor) : Prop where
  connection : a.connection = b.connection
  rights : ∀ mode : AccessMode, mode.allows b = true → mode.allows a = true

theorem Covers.refl (a : Accessor) : a.Covers a := ⟨rfl, fun _ => id⟩

theorem Granted.covers {a a' : Accessor} (h : a.Granted a') : a'.Covers a := by
  cases h with
  | read => exact ⟨rfl, fun mode => by cases mode <;> simp [AccessMode.allows]⟩
  | write => exact ⟨rfl, fun mode => by cases mode <;> simp [AccessMode.allows]⟩

theorem reachableFrom_mono {a : Accessor} {computer : Option String} {networks more : List String}
    (hmore : networks ⊆ more) (h : a.reachableFrom ⟨computer, networks⟩ = true) :
    a.reachableFrom ⟨computer, more⟩ = true := by
  have hnetwork (network : Option String) (hall : network.all networks.contains = true) :
      network.all more.contains = true := by
    cases network with
    | none => rfl
    | some id => simpa using hmore (by simpa using hall)
  rw [reachableFrom] at h ⊢
  cases hconnection : a.connection with
  | localFolder folder file resource => rwa [hconnection] at h
  | corePackageInfo => rfl
  | fileShare | http | httpProxy | quantel | atemMediaStore =>
    rw [hconnection] at h
    exact hnetwork _ h

end Accessor

namespace PackageContainer

def allAccessors (containers : List PackageContainer) : List Accessor :=
  (Pair.ofContainers containers).map (·.accessor)

theorem allAccessors_append (cs ds : List PackageContainer) :
    allAccessors (cs ++ ds) = allAccessors cs ++ allAccessors ds := by
  rw [allAccessors, Pair.ofContainers, List.flatMap_append, List.map_append]
  rfl

theorem allAccessors_cons (c : PackageContainer) (cs : List PackageContainer) :
    allAccessors (c :: cs) = c.accessors.entries.map (·.2) ++ allAccessors cs := by
  rw [allAccessors, Pair.ofContainers_cons, List.map_append, Pair.ofContainer, List.map_map]
  rfl

theorem AllRearranged.allAccessors_perm {cs ds : List PackageContainer}
    (h : AllRearranged cs ds) : (allAccessors cs).Perm (allAccessors ds) := by
  obtain ⟨ps, hperm, hforall⟩ := Pair.ofContainers_rearranged h
  have hsame : ps.map (·.accessor) = allAccessors ds := Pair.map_accessor_eq hforall
  exact hsame ▸ hperm.map _

theorem AllRearranged.ne_nil {cs ds : List PackageContainer} (h : AllRearranged cs ds)
    (hcs : cs ≠ []) : ds ≠ [] := by
  obtain ⟨es, hperm, hforall⟩ := h
  rintro rfl
  obtain rfl := List.forall₂_nil_right_iff.1 hforall
  exact hcs hperm.eq_nil

/-- One container more, one accessor more in a container, or one right more to an accessor. -/
inductive Grown : List PackageContainer → List PackageContainer → Prop
  | container (before after : List PackageContainer) (c : PackageContainer) :
    Grown (before ++ after) (before ++ c :: after)
  | accessor (before after : List PackageContainer) (c : PackageContainer)
      {accessors : Ordered Accessor} {es fs : List (String × Accessor)} (id : String) (a : Accessor)
      (old : c.accessors.entries = es ++ fs) (new : accessors.entries = es ++ (id, a) :: fs) :
    Grown (before ++ c :: after) (before ++ { c with accessors } :: after)
  | right (before after : List PackageContainer) (c : PackageContainer)
      {accessors : Ordered Accessor} {es fs : List (String × Accessor)} (id : String)
      {a a' : Accessor} (granted : a.Granted a') (old : c.accessors.entries = es ++ (id, a) :: fs)
      (new : accessors.entries = es ++ (id, a') :: fs) :
    Grown (before ++ c :: after) (before ++ { c with accessors } :: after)

/-- Every accessor is still there, with the rights it had. -/
theorem Grown.exists_covering {cs ds : List PackageContainer} (h : Grown cs ds) {a : Accessor}
    (ha : a ∈ allAccessors cs) : ∃ a' ∈ allAccessors ds, a'.Covers a := by
  cases h with
  | container before after c =>
    refine ⟨a, ?_, .refl a⟩
    rw [allAccessors_append] at ha ⊢
    rw [allAccessors_cons]
    grind
  | accessor before after c id b old new =>
    refine ⟨a, ?_, .refl a⟩
    rw [allAccessors_append, allAccessors_cons, old] at ha
    rw [allAccessors_append, allAccessors_cons, new]
    grind
  | @right before after c accessors es fs id b b' granted old new =>
    rw [allAccessors_append, allAccessors_cons, old] at ha
    rw [allAccessors_append, allAccessors_cons, new]
    by_cases hab : a = b
    · exact ⟨b', by simp, hab ▸ granted.covers⟩
    · refine ⟨a, ?_, .refl a⟩
      grind

theorem Grown.ne_nil {cs ds : List PackageContainer} (h : Grown cs ds) : ds ≠ [] := by
  cases h <;> simp

end PackageContainer

namespace Worker

/-- An accessor can be used: it allows the mode, its kind is registered and it can be reached. -/
def CanUse (w : Worker β) (mode : AccessMode) (a : Accessor) : Prop :=
  mode.allows a = true ∧ w.registry.isRegistered a.accessType = true ∧
    a.reachableFrom w.location = true

/-- Some accessor can be used at this cost. -/
def Offered (w : Worker β) (mode : AccessMode) (containers : List PackageContainer) (n : Nat) :
    Prop :=
  ∃ a ∈ PackageContainer.allAccessors containers, w.CanUse mode a ∧ a.accessType.cost = n

variable {w w' : Worker β} {mode : AccessMode} {cs ds : List PackageContainer} {n : Nat}

theorem usable_iff {calls : List (AccessType × Factory β)} (hw : w.registry = .ofList calls)
    (hcalls : ∀ c ∈ calls, c.2.IsStandard) {a : Accessor} :
    Usable w.location calls mode a ↔ w.CanUse mode a := by
  rw [Usable, CanUse, hw, Registry.isRegistered, Registry.registration?_ofList, Option.isSome_map]
  refine and_congr_right fun _ => ?_
  cases hlast : Registry.lastFactory? calls a.accessType with
  | none => simp
  | some factory =>
    obtain ⟨c, hc, rfl⟩ := Registry.exists_of_lastFactory? hlast
    simp [hcalls c hc w.location a]

theorem not_offered_of_price (h : w.registry.IsStandard) (hnone : w.price mode cs = none) :
    ¬ w.Offered mode cs n := by
  obtain ⟨calls, hw, hcalls⟩ := h
  rintro ⟨a, ha, husable, -⟩
  obtain ⟨p, hp, rfl⟩ := List.mem_map.1 ha
  rw [price, Option.map_eq_none_iff, best_eq_none_iff hw] at hnone
  exact hnone p hp ((usable_iff hw hcalls).2 husable)

theorem offered_price (h : w.registry.IsStandard) (hsome : w.price mode cs = some n) :
    w.Offered mode cs n ∧ ∀ m, w.Offered mode cs m → n ≤ m := by
  obtain ⟨calls, hw, hcalls⟩ := h
  obtain ⟨found, hbest, rfl⟩ := Option.map_eq_some_iff.1 hsome
  obtain ⟨before, p, after, hsplit, husable, hbefore, hafter, rfl⟩ :=
    (best_eq_some_iff hw).1 hbest
  constructor
  · exact ⟨p.accessor, List.mem_map.2 ⟨p, by simp [hsplit], rfl⟩,
      (usable_iff hw hcalls).1 husable, rfl⟩
  · rintro m ⟨a, ha, hcan, rfl⟩
    obtain ⟨q, hq, rfl⟩ := List.mem_map.1 ha
    have huse := (usable_iff hw hcalls).2 hcan
    rw [hsplit] at hq
    rcases List.mem_append.1 hq with hq | hq
    · exact Nat.le_of_lt (hbefore q hq huse)
    · rcases List.mem_cons.1 hq with rfl | hq
      · exact Nat.le_refl _
      · exact hafter q hq huse

theorem noDearer_price (h : w.registry.IsStandard) (h' : w'.registry.IsStandard)
    (hoffers : ∀ n, w.Offered mode cs n → w'.Offered mode ds n) :
    NoDearer (w'.price mode ds) (w.price mode cs) := by
  intro n hn
  have hoffered := hoffers n (offered_price h hn).1
  cases hprice : w'.price mode ds with
  | none => exact absurd hoffered (not_offered_of_price h' hprice)
  | some m => exact ⟨m, (offered_price h' hprice).2 n hoffered, rfl⟩

theorem noDearer_standardCost {e e' : Expectation} (h : w.registry.IsStandard)
    (h' : w'.registry.IsStandard) (hsome : e.sources ≠ []) (hsome' : e'.sources ≠ [])
    (hread : ∀ n, w.Offered .read e.sources n → w'.Offered .read e'.sources n)
    (hwrite : ∀ n, w.Offered .write e.targets n → w'.Offered .write e'.targets n) :
    NoDearer (w'.standardCost e') (w.standardCost e) := by
  intro cost hcost
  rw [standardCost_eq h.priced, sourcePrice, if_neg (by simpa using hsome)] at hcost
  obtain ⟨source, hsource, hcost⟩ := Option.bind_eq_some_iff.1 hcost
  obtain ⟨target, htarget, rfl⟩ := Option.map_eq_some_iff.1 hcost
  obtain ⟨source', hles, hsource'⟩ := noDearer_price h h' hread source hsource
  obtain ⟨target', hlet, htarget'⟩ := noDearer_price h h' hwrite target htarget
  refine ⟨costFactor * (source' + target'), Nat.mul_le_mul_left _ (Nat.add_le_add hles hlet), ?_⟩
  rw [standardCost_eq h'.priced, sourcePrice, if_neg (by simpa using hsome'), hsource', htarget']
  rfl

theorem offered_of_grown (h : PackageContainer.Grown cs ds) (hn : w.Offered mode cs n) :
    w.Offered mode ds n := by
  obtain ⟨a, ha, ⟨hmode, hregistered, hreached⟩, hcost⟩ := hn
  obtain ⟨a', ha', hcovers⟩ := h.exists_covering ha
  have htype : a'.accessType = a.accessType := congrArg Connection.accessType hcovers.connection
  have hreach : a'.reachableFrom w.location = a.reachableFrom w.location :=
    congrArg (Connection.reachableFrom w.location) hcovers.connection
  exact ⟨a', ha', ⟨hcovers.rights mode hmode, htype ▸ hregistered, hreach ▸ hreached⟩,
    htype ▸ hcost⟩

theorem offered_of_perm (h : (PackageContainer.allAccessors cs).Perm
    (PackageContainer.allAccessors ds)) (hn : w.Offered mode cs n) : w.Offered mode ds n := by
  obtain ⟨a, ha, husable⟩ := hn
  exact ⟨a, h.mem_iff.1 ha, husable⟩

/-- Containers that grow on one side, one kind of storage more that is registered, or one network
more that the worker is on. -/
inductive Grown : Worker β × Expectation → Worker β × Expectation → Prop
  | sources (w : Worker β) {e e' : Expectation}
      (grown : PackageContainer.Grown e.sources e'.sources) (same : e'.targets = e.targets) :
    Grown (w, e) (w, e')
  | targets (w : Worker β) {e e' : Expectation} (same : e'.sources = e.sources)
      (grown : PackageContainer.Grown e.targets e'.targets) : Grown (w, e) (w, e')
  | registration (w : Worker β) (e : Expectation) (t : AccessType) {factory : Factory β}
      (standard : factory.IsStandard) :
    Grown (w, e) ({ w with registry := w.registry.register t factory }, e)
  | network (w : Worker β) (e : Expectation) {before after : List String} (id : String)
      (old : w.location.networks = before ++ after) :
    Grown (w, e)
      ({ w with location := { w.location with networks := before ++ id :: after } }, e)

theorem offered_of_registration {t : AccessType} {factory : Factory β}
    (hn : w.Offered mode cs n) :
    ({ w with registry := w.registry.register t factory } : Worker β).Offered mode cs n := by
  obtain ⟨a, ha, ⟨hmode, hregistered, hreached⟩, hcost⟩ := hn
  refine ⟨a, ha, ⟨hmode, ?_, hreached⟩, hcost⟩
  rw [Registry.isRegistered, Registry.registration?_register]
  split
  · rfl
  · exact hregistered

theorem offered_of_network {before after : List String} (id : String)
    (old : w.location.networks = before ++ after) (hn : w.Offered mode cs n) :
    ({ w with location := { w.location with networks := before ++ id :: after } } :
      Worker β).Offered mode cs n := by
  obtain ⟨a, ha, ⟨hmode, hregistered, hreached⟩, hcost⟩ := hn
  have hmore : w.location.networks ⊆ before ++ id :: after := by
    rw [old]
    grind
  exact ⟨a, ha, ⟨hmode, hregistered, Accessor.reachableFrom_mono hmore hreached⟩, hcost⟩

/-- What the cost of a job can be worked out for: standard factories, and a source to begin with. -/
structure Ordinary (x : Worker β × Expectation) : Prop where
  registry : x.1.registry.IsStandard
  sources : x.2.sources ≠ []

theorem Grown.ordinary {x y : Worker β × Expectation} (h : Grown x y) (hx : Ordinary x) :
    Ordinary y := by
  cases h with
  | sources w grown same => exact ⟨hx.registry, grown.ne_nil⟩
  | targets w same grown => exact ⟨hx.registry, fun hnil => hx.sources (same ▸ hnil)⟩
  | registration w e t standard => exact ⟨hx.registry.register t standard, hx.sources⟩
  | network w e id old => exact ⟨hx.registry, hx.sources⟩

theorem Grown.offered {x y : Worker β × Expectation} (h : Grown x y) :
    (∀ n, x.1.Offered .read x.2.sources n → y.1.Offered .read y.2.sources n) ∧
      ∀ n, x.1.Offered .write x.2.targets n → y.1.Offered .write y.2.targets n := by
  cases h with
  | sources w grown same => exact ⟨fun _ => offered_of_grown grown, fun _ hn => same ▸ hn⟩
  | targets w same grown => exact ⟨fun _ hn => same ▸ hn, fun _ => offered_of_grown grown⟩
  | registration w e t standard =>
    exact ⟨fun _ => offered_of_registration, fun _ => offered_of_registration⟩
  | network w e id old =>
    exact ⟨fun _ => offered_of_network id old, fun _ => offered_of_network id old⟩

theorem Grown.noDearer {x y : Worker β × Expectation} (h : Grown x y) (hx : Ordinary x) :
    NoDearer (y.1.standardCost y.2) (x.1.standardCost x.2) :=
  noDearer_standardCost hx.registry (h.ordinary hx).registry hx.sources (h.ordinary hx).sources
    h.offered.1 h.offered.2

open Relation (ReflTransGen)

theorem run_noDearer {x y : Worker β × Expectation} (hx : Ordinary x)
    (h : ReflTransGen Grown x y) :
    Ordinary y ∧ NoDearer (y.1.standardCost y.2) (x.1.standardCost x.2) := by
  induction h with
  | refl => exact ⟨hx, .refl _⟩
  | tail _ hgrown ih =>
    obtain ⟨hordinary, hcost⟩ := ih
    exact ⟨hgrown.ordinary hordinary, (hgrown.noDearer hordinary).trans hcost⟩

open PackageContainer (AllRearranged)

/-- The cost of a job is the same however the containers are arranged, and it is never lost nor
higher as containers, accessors, rights, kinds of storage and networks are added. -/
theorem standardCost_of_growth (w : Worker β) (e : Expectation) (standard : w.registry.IsStandard)
    (sources : e.sources ≠ []) :
    (∀ e', AllRearranged e.sources e'.sources → AllRearranged e.targets e'.targets →
      w.standardCost e' = w.standardCost e) ∧
    ∀ w' e', ReflTransGen Grown (w, e) (w', e') →
      NoDearer (w'.standardCost e') (w.standardCost e) := by
  refine ⟨fun e' hsources htargets => ?_, fun w' e' h => (run_noDearer ⟨standard, sources⟩ h).2⟩
  have hread := hsources.allAccessors_perm
  have hwrite := htargets.allAccessors_perm
  have hsources' : e'.sources ≠ [] := hsources.ne_nil sources
  refine NoDearer.antisymm ?_ ?_
  · exact noDearer_standardCost standard standard sources hsources'
      (fun _ => offered_of_perm hread) fun _ => offered_of_perm hwrite
  · exact noDearer_standardCost standard standard hsources' sources
      (fun _ => offered_of_perm hread.symm) fun _ => offered_of_perm hwrite.symm

/-- Once shares are registered and the network is joined, the worker reads from the share there. -/
theorem standardCost_of_growth_fromWeb :
    let factory : Factory Unit := { create := fun _ s => (.error .cancelHandlerMissing, s) }
    let w : Worker Unit := ⟨"worker", ⟨none, ["studio"]⟩, Config.default fun _ => none,
      .ofList [(.http, factory), (.localFolder, factory)]⟩
    let w' : Worker Unit := { w with
      location := ⟨none, ["studio", "office"]⟩
      registry := w.registry.register .fileShare factory }
    w.registry.IsStandard ∧ Expectation.fromWeb.sources ≠ [] ∧
      ReflTransGen Grown (w, .fromWeb) (w', .fromWeb) ∧ w.standardCost .fromWeb = some 120 ∧
      w'.standardCost .fromWeb = some 90 ∧
      NoDearer (w'.standardCost .fromWeb) (w.standardCost .fromWeb) := by
  intro factory w w'
  have hfactory : factory.IsStandard := fun _ _ => rfl
  have hstandard : w.registry.IsStandard := by
    refine ⟨_, rfl, fun c hc => ?_⟩
    rcases List.mem_pair.1 hc with rfl | rfl <;> exact hfactory
  have hsources : Expectation.fromWeb.sources ≠ [] := List.cons_ne_nil _ _
  let sharing : Worker Unit := { w with registry := w.registry.register .fileShare factory }
  have hshares : Grown (w, .fromWeb) (sharing, .fromWeb) :=
    .registration w .fromWeb .fileShare hfactory
  have hoffice : Grown (sharing, .fromWeb) (w', .fromWeb) :=
    @Grown.network _ sharing .fromWeb ["studio"] [] "office" rfl
  have hgrown : ReflTransGen Grown (w, .fromWeb) (w', .fromWeb) :=
    (ReflTransGen.single hshares).tail hoffice
  obtain ⟨-, hcost⟩ := w.standardCost_of_growth .fromWeb hstandard hsources
  exact ⟨hstandard, hsources, hgrown, by decide, by decide, hcost w' .fromWeb hgrown⟩

end Worker
end PackageHandling
