import PackageHandling.Accessor
import PackageHandling.Proofs.Json.Decoding

/-!
# Accessors are read as they were written

The members of a connection stand among those of its accessor, and neither takes one of the other's.
A package container keeps its accessors in their order.
-/

namespace PackageHandling

open Json

theorem AccessType.ofJson_toJson (t : AccessType) : ofJson t.toJson = .ok t := by
  cases t <;> rfl

namespace Connection

def Fits : Connection → Prop
  | quantel _ _ _ server _ _ _ _ => ∀ n ∈ server, n ≤ 0xFFFFFFFF
  | atemMediaStore _ _ bank _ => ∀ n ∈ bank, n ≤ 0xFFFFFFFF
  | _ => True

variable {room : Nat}

theorem yields_ofFields (t : AccessType) : Yields (room + 1) (ofFields t) Fits := by
  intro v c hv h
  obtain ⟨m, hm, h⟩ := record_eq_ok hv h
  cases t with
  | quantel =>
    obtain ⟨gateway, -, h⟩ := bind_eq_ok.1 h
    obtain ⟨codes, -, h⟩ := bind_eq_ok.1 h
    obtain ⟨zone, -, h⟩ := bind_eq_ok.1 h
    obtain ⟨server, hserver, h⟩ := bind_eq_ok.1 h
    obtain ⟨guid, -, h⟩ := bind_eq_ok.1 h
    obtain ⟨title, -, h⟩ := bind_eq_ok.1 h
    obtain ⟨fileFlow, -, h⟩ := bind_eq_ok.1 h
    obtain ⟨network, -, h⟩ := bind_eq_ok.1 h
    obtain rfl := Except.ok.inj h
    exact yields_asNat32.option hm hserver
  | atemMediaStore =>
    obtain ⟨host, -, h⟩ := bind_eq_ok.1 h
    obtain ⟨media, -, h⟩ := bind_eq_ok.1 h
    obtain ⟨bank, hbank, h⟩ := bind_eq_ok.1 h
    obtain ⟨network, -, h⟩ := bind_eq_ok.1 h
    obtain rfl := Except.ok.inj h
    exact yields_asNat32.option hm hbank
  | _ =>
    -- no other kind has a number
    repeat obtain ⟨_, -, h⟩ := bind_eq_ok.1 h
    obtain rfl := Except.ok.inj h
    trivial

theorem regular_fields {c : Connection} (hc : c.Fits) : ∀ m ∈ c.fields, Regular room m.2 := by
  have hcount : ∀ {x : Option Nat}, (∀ n ∈ x, n ≤ 0xFFFFFFFF) →
      Regular room (Json.ofOption .nat x) := fun hx =>
    .ofOption fun n hn => .nat ((hx n hn).trans (by decide))
  cases c with
  | quantel gateway codes zone server guid title fileFlow network =>
    simp [fields, hcount (x := server) hc]
  | atemMediaStore host media bank network => simp [fields, hcount (x := bank) hc]
  | _ => simp [fields]

theorem exact_fields {c : Connection} (hc : c.Fits) : ∀ m ∈ c.fields, Exact m.2 := fun m hm =>
  have hregular : Regular 0 m.2 := regular_fields hc m hm
  hregular.exact

theorem keys_fields (c : Connection) : c.fields.map (·.1) = fieldNames c.accessType := by
  cases c <;> rfl

theorem nodup_fieldNames (t : AccessType) : (fieldNames t).Nodup := by cases t <;> decide

theorem ofFields_fields {c : Connection} (hc : c.Fits) :
    ofFields c.accessType (.obj c.fields) = .ok c := by
  have hknown : ∀ m ∈ c.fields, m.1 ∈ fieldNames c.accessType := fun m hm =>
    keys_fields c ▸ List.mem_map_of_mem hm
  rw [ofFields, record_obj _ _ (keys_fields c ▸ nodup_fieldNames _) hknown]
  cases c with
  | localFolder folder file resource =>
    exact bind_eq_ok.2 ⟨folder, Members.option_text rfl,
      bind_eq_ok.2 ⟨file, Members.option_text rfl,
      bind_eq_ok.2 ⟨resource, Members.option_text rfl, rfl⟩⟩⟩
  | fileShare folder file user password network =>
    exact bind_eq_ok.2 ⟨folder, Members.option_text rfl,
      bind_eq_ok.2 ⟨file, Members.option_text rfl,
      bind_eq_ok.2 ⟨user, Members.option_text rfl,
      bind_eq_ok.2 ⟨password, Members.option_text rfl,
      bind_eq_ok.2 ⟨network, Members.option_text rfl, rfl⟩⟩⟩⟩⟩
  | http baseUrl url isImmutable network =>
    exact bind_eq_ok.2 ⟨baseUrl, Members.option_text rfl,
      bind_eq_ok.2 ⟨url, Members.option_text rfl,
      bind_eq_ok.2 ⟨isImmutable, Members.getD_found rfl rfl,
      bind_eq_ok.2 ⟨network, Members.option_text rfl, rfl⟩⟩⟩⟩
  | httpProxy baseUrl url network =>
    exact bind_eq_ok.2 ⟨baseUrl, Members.option_text rfl,
      bind_eq_ok.2 ⟨url, Members.option_text rfl,
      bind_eq_ok.2 ⟨network, Members.option_text rfl, rfl⟩⟩⟩
  | quantel gateway codes zone server guid title fileFlow network =>
    exact bind_eq_ok.2 ⟨gateway, Members.option_text rfl,
      bind_eq_ok.2 ⟨codes, Members.option_text rfl,
      bind_eq_ok.2 ⟨zone, Members.option_text rfl,
      bind_eq_ok.2 ⟨server, Members.option_nat32 hc rfl,
      bind_eq_ok.2 ⟨guid, Members.option_text rfl,
      bind_eq_ok.2 ⟨title, Members.option_text rfl,
      bind_eq_ok.2 ⟨fileFlow, Members.option_text rfl,
      bind_eq_ok.2 ⟨network, Members.option_text rfl, rfl⟩⟩⟩⟩⟩⟩⟩⟩
  | corePackageInfo => rfl
  | atemMediaStore host media bank network =>
    exact bind_eq_ok.2 ⟨host, Members.option_text rfl,
      bind_eq_ok.2 ⟨media, Members.option_text rfl,
      bind_eq_ok.2 ⟨bank, Members.option_nat32 hc rfl,
      bind_eq_ok.2 ⟨network, Members.option_text rfl, rfl⟩⟩⟩⟩

end Connection

namespace Accessor

/-- The priority is of 32 bits with a sign. -/
structure Fits (a : Accessor) : Prop where
  priority : ∀ n ∈ a.priority, -0x80000000 ≤ n ∧ n ≤ 0x7FFFFFFF
  connection : a.connection.Fits

variable {room : Nat}

theorem yields_ofJson : Yields (room + 1) ofJson Fits := by
  intro v a hv h
  rw [ofJson.eq_def] at h
  split at h
  · next found =>
    cases hv with
    | obj hmembers =>
      obtain ⟨m, hm, h⟩ := bind_eq_ok.1 h
      obtain ⟨label, -, h⟩ := bind_eq_ok.1 h
      obtain ⟨allowRead, -, h⟩ := bind_eq_ok.1 h
      obtain ⟨allowWrite, -, h⟩ := bind_eq_ok.1 h
      obtain ⟨priority, hpriority, h⟩ := bind_eq_ok.1 h
      obtain ⟨-, -, h⟩ := bind_eq_ok.1 h
      obtain ⟨m', -, h⟩ := bind_eq_ok.1 h
      obtain ⟨t, -, h⟩ := bind_eq_ok.1 h
      obtain ⟨connection, hconnection, h⟩ := bind_eq_ok.1 h
      obtain rfl := Except.ok.inj h
      exact {
        priority := (yields_asInt _ _ _).option (Members.ofObject_within hmembers hm) hpriority
        connection := Connection.yields_ofFields t (.obj fun e he => hmembers e
          (List.mem_filter.1 (List.mem_filter.1 he).1).1) hconnection }
  · cases h

theorem regular_toJson {a : Accessor} (ha : a.Fits) : Regular (room + 1) a.toJson := by
  have hpriority : Regular room (Json.ofOption .int a.priority) := .ofOption fun n hn =>
    .int ((by decide : (-0x8000000000000000 : Int) ≤ -0x80000000).trans (ha.priority n hn).1)
      ((ha.priority n hn).2.trans (by decide))
  refine .obj (List.forall_mem_append.2 ⟨by simp [hpriority], ?_⟩)
  exact List.forall_mem_cons.2 ⟨.str _, Connection.regular_fields ha.connection⟩

/-- The members that are the accessor's own. -/
def ownMembers (a : Accessor) : List (String × Json) :=
  [("label", .str a.label), ("allowRead", .bool a.allowRead), ("allowWrite", .bool a.allowWrite),
    ("priority", Json.ofOption .int a.priority)]

theorem toJson_eq (a : Accessor) : a.toJson = .obj (a.ownMembers ++ a.connection.tagged) := rfl

theorem keys_tagged (c : Connection) :
    c.tagged.map (·.1) = "type" :: Connection.fieldNames c.accessType := by
  rw [Connection.tagged, List.map_cons, Connection.keys_fields]

theorem not_mem_ownFields {c : Connection} : ∀ m ∈ c.tagged, m.1 ∉ ownFields := by
  have hkeys : ∀ t : AccessType, ∀ k ∈ "type" :: Connection.fieldNames t, k ∉ ownFields := by
    intro t
    cases t <;> decide
  exact fun m hm => hkeys _ _ (keys_tagged c ▸ List.mem_map_of_mem hm)

theorem distinct_keys (a : Accessor) : ((a.ownMembers ++ a.connection.tagged).map (·.1)).Nodup := by
  rw [List.map_append, keys_tagged]
  have hkeys : ∀ t : AccessType, (ownFields ++ "type" :: Connection.fieldNames t).Nodup := by
    intro t
    cases t <;> decide
  exact hkeys _

theorem mem_ownFields {a : Accessor} : ∀ m ∈ a.ownMembers, m.1 ∈ ownFields := by
  simp [ownMembers, ownFields]

theorem filter_type (a : Accessor) :
    a.connection.tagged.filter (·.1 ≠ "type") = a.connection.fields := by
  have hother : ∀ t : AccessType, ∀ k ∈ Connection.fieldNames t, k ≠ "type" := by
    intro t
    cases t <;> decide
  rw [Connection.tagged, List.filter_cons_of_neg (by simp)]
  exact List.filter_eq_self.2 fun m hm => by
    simpa using hother _ _ (a.connection.keys_fields ▸ List.mem_map_of_mem hm)

theorem ofJson_toJson {a : Accessor} (ha : a.Fits) : ofJson a.toJson = .ok a := by
  have hexact : Exact (.obj a.connection.tagged) := .obj (List.forall_mem_cons.2
    ⟨.str _, Connection.exact_fields ha.connection⟩)
  have hdistinct : (a.connection.tagged.map (·.1)).Nodup := by
    have hall := a.distinct_keys
    rw [List.map_append] at hall
    exact (List.nodup_append.1 hall).2.1
  have htype : spreadType a.accessType.toJson = .ok a.accessType :=
    AccessType.ofJson_toJson a.accessType
  rw [toJson_eq]
  refine bind_eq_ok.2 ⟨_, Members.ofObject_distinct _ a.distinct_keys, ?_⟩
  simp only [filter_known mem_ownFields not_mem_ownFields,
    filter_unknown mem_ownFields not_mem_ownFields, filter_type]
  exact bind_eq_ok.2 ⟨a.label, Members.getD_found rfl rfl,
    bind_eq_ok.2 ⟨a.allowRead, Members.getD_found rfl rfl,
    bind_eq_ok.2 ⟨a.allowWrite, Members.getD_found rfl rfl,
    bind_eq_ok.2 ⟨a.priority, Members.option_int32 ha.priority rfl,
    bind_eq_ok.2 ⟨(), hexact.readable,
    bind_eq_ok.2 ⟨_, Members.ofObject_distinct _ hdistinct,
    bind_eq_ok.2 ⟨a.accessType, Members.get_found rfl htype,
    bind_eq_ok.2 ⟨a.connection, Connection.ofFields_fields ha.connection, rfl⟩⟩⟩⟩⟩⟩⟩⟩

end Accessor

namespace PackageContainer

def Fits (c : PackageContainer) : Prop := ∀ e ∈ c.accessors.entries, e.2.Fits

variable {room : Nat}

theorem yields_accessorsOfJson : Yields (room + 2) accessorsOfJson fun t =>
    ∀ e ∈ t.entries, e.2.Fits := by
  intro v t hv h
  rw [accessorsOfJson.eq_def] at h
  split at h
  · cases hv with
    | obj hmembers =>
      obtain ⟨found, hfound, h⟩ := bind_eq_ok.1 h
      obtain rfl := Except.ok.inj h
      exact fun e he =>
        (Accessor.yields_ofJson.members hmembers hfound e (Ordered.mem_of_mem_ofList he)).1
  · cases h

theorem yields_ofJson : Yields (room + 3) ofJson Fits := by
  intro v c hv h
  obtain ⟨m, hm, h⟩ := record_eq_ok hv h
  obtain ⟨id, -, h⟩ := bind_eq_ok.1 h
  obtain ⟨label, -, h⟩ := bind_eq_ok.1 h
  obtain ⟨accessors, haccessors, h⟩ := bind_eq_ok.1 h
  obtain rfl := Except.ok.inj h
  exact yields_accessorsOfJson.getD hm (fun e he => by cases he) haccessors

theorem regular_toJson {c : PackageContainer} (hc : c.Fits) : Regular (room + 3) c.toJson := by
  have haccessors :
      Regular (room + 2) (.obj (c.accessors.entries.map fun e => (e.1, e.2.toJson))) :=
    .obj (List.forall_mem_map.2 fun e he => Accessor.regular_toJson (hc e he))
  exact .obj (by simp [haccessors])

theorem ofJson_toJson {c : PackageContainer} (hc : c.Fits) : ofJson c.toJson = .ok c := by
  have haccessors : accessorsOfJson (.obj (c.accessors.entries.map fun e => (e.1, e.2.toJson))) =
      .ok c.accessors := by
    rw [accessorsOfJson, members_map fun e he => Accessor.ofJson_toJson (hc e he)]
    exact congrArg Except.ok (Ordered.ofList_entries c.accessors)
  rw [toJson, ofJson, record_obj _ _ (by simp) (by simp)]
  exact bind_eq_ok.2 ⟨c.id, Members.get_found rfl rfl,
    bind_eq_ok.2 ⟨c.label, Members.get_found rfl rfl,
    bind_eq_ok.2 ⟨c.accessors, Members.getD_found rfl haccessors, rfl⟩⟩⟩

end PackageContainer
end PackageHandling
