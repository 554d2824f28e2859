import PackageHandling.Version
import PackageHandling.Proofs.Json.Decoding

/-!
# Expected versions are read as they were written
-/

namespace PackageHandling

open Json

namespace ExpectedVersion

def Fits : ExpectedVersion → Prop
  | file size date =>
    (∀ n ∈ size, n ≤ 0xFFFFFFFFFFFFFFFF) ∧
      ∀ t ∈ date, -0x8000000000000000 ≤ t ∧ t ≤ 0x7FFFFFFFFFFFFFFF
  | http _ length date _ =>
    (∀ n ∈ length, n ≤ 0xFFFFFFFFFFFFFFFF) ∧
      ∀ t ∈ date, -0x8000000000000000 ≤ t ∧ t ≤ 0x7FFFFFFFFFFFFFFF
  | quantel clone _ _ frames =>
    (∀ n ∈ clone, n ≤ 0xFFFFFFFFFFFFFFFF) ∧ ∀ n ∈ frames, n ≤ 0xFFFFFFFFFFFFFFFF
  | json size => ∀ n ∈ size, n ≤ 0xFFFFFFFFFFFFFFFF

variable {room : Nat}

theorem yields_ofJson : Yields (room + 1) ofJson Fits := by
  intro v e hv h
  obtain ⟨⟨tag, rest⟩, htagged, h⟩ := bind_eq_ok.1 h
  have hrest := tagged_nests hv htagged
  simp only at h
  split at h
  · obtain ⟨m, hm, h⟩ := record_eq_ok hrest h
    obtain ⟨size, hsize, h⟩ := bind_eq_ok.1 h
    obtain ⟨date, hdate, h⟩ := bind_eq_ok.1 h
    obtain rfl := Except.ok.inj h
    exact ⟨yields_asNat64.option hm hsize, (yields_asInt _ _ _).option hm hdate⟩
  · obtain ⟨m, hm, h⟩ := record_eq_ok hrest h
    obtain ⟨type, -, h⟩ := bind_eq_ok.1 h
    obtain ⟨length, hlength, h⟩ := bind_eq_ok.1 h
    obtain ⟨date, hdate, h⟩ := bind_eq_ok.1 h
    obtain ⟨etags, -, h⟩ := bind_eq_ok.1 h
    obtain rfl := Except.ok.inj h
    exact ⟨yields_asNat64.option hm hlength, (yields_asInt _ _ _).option hm hdate⟩
  · obtain ⟨m, hm, h⟩ := record_eq_ok hrest h
    obtain ⟨clone, hclone, h⟩ := bind_eq_ok.1 h
    obtain ⟨guid, -, h⟩ := bind_eq_ok.1 h
    obtain ⟨title, -, h⟩ := bind_eq_ok.1 h
    obtain ⟨frames, hframes, h⟩ := bind_eq_ok.1 h
    obtain rfl := Except.ok.inj h
    exact ⟨yields_asNat64.option hm hclone, yields_asNat64.option hm hframes⟩
  · obtain ⟨m, hm, h⟩ := record_eq_ok hrest h
    obtain ⟨size, hsize, h⟩ := bind_eq_ok.1 h
    obtain rfl := Except.ok.inj h
    exact yields_asNat64.option hm hsize
  · cases h

theorem toJson_ne_null (e : ExpectedVersion) : e.toJson ≠ .null := by
  cases e <;> exact fun h => by cases h

theorem regular_toJson {e : ExpectedVersion} (he : e.Fits) : Regular (room + 2) e.toJson := by
  have hcount : ∀ {x : Option Nat}, (∀ n ∈ x, n ≤ 0xFFFFFFFFFFFFFFFF) →
      Regular (room + 1) (Json.ofOption .nat x) := fun hx => .ofOption fun n hn => .nat (hx n hn)
  have hdate : ∀ {x : Option Int}, (∀ t ∈ x, -0x8000000000000000 ≤ t ∧ t ≤ 0x7FFFFFFFFFFFFFFF) →
      Regular (room + 1) (Json.ofOption .int x) := fun hx =>
    .ofOption fun t ht => .int (hx t ht).1 ((hx t ht).2.trans (by decide))
  cases e with
  | file size date => exact .obj (by simp [hcount he.1, hdate he.2])
  | http type length date etags =>
    have hetags : Regular (room + 1) (Json.ofOption (fun tags => .arr (tags.map .str)) etags) :=
      .ofOption fun tags _ => .map fun s _ => .str s
    exact .obj (by simp [hcount he.1, hdate he.2, hetags])
  | quantel clone guid title frames => exact .obj (by simp [hcount he.1, hcount he.2])
  | json size => exact .obj (by simp [hcount (x := size) he])

theorem ofJson_toJson {e : ExpectedVersion} (he : e.Fits) : ofJson e.toJson = .ok e := by
  have hregular : Regular 2 e.toJson := regular_toJson he
  have hexact := hregular.exact
  cases e with
  | file size date =>
    obtain ⟨hsize, hdate⟩ := he
    refine bind_eq_ok.2 ⟨_, tagged_obj _ hexact (by simp), ?_⟩
    simp only
    rw [record_obj _ _ (by simp) (by simp)]
    exact bind_eq_ok.2 ⟨size, Members.option_nat64 hsize rfl,
      bind_eq_ok.2 ⟨date, Members.option_int64 hdate rfl, rfl⟩⟩
  | http type length date etags =>
    obtain ⟨hlength, hdate⟩ := he
    refine bind_eq_ok.2 ⟨_, tagged_obj _ hexact (by simp), ?_⟩
    simp only
    rw [record_obj _ _ (by simp) (by simp)]
    exact bind_eq_ok.2 ⟨type, Members.option_text rfl,
      bind_eq_ok.2 ⟨length, Members.option_nat64 hlength rfl,
      bind_eq_ok.2 ⟨date, Members.option_int64 hdate rfl,
      bind_eq_ok.2 ⟨etags, Members.option_found rfl (fun _ h => by cases h)
        fun tags _ => asList_map fun _ _ => rfl, rfl⟩⟩⟩⟩
  | quantel clone guid title frames =>
    obtain ⟨hclone, hframes⟩ := he
    refine bind_eq_ok.2 ⟨_, tagged_obj _ hexact (by simp), ?_⟩
    simp only
    rw [record_obj _ _ (by simp) (by simp)]
    exact bind_eq_ok.2 ⟨clone, Members.option_nat64 hclone rfl,
      bind_eq_ok.2 ⟨guid, Members.option_text rfl,
      bind_eq_ok.2 ⟨title, Members.option_text rfl,
      bind_eq_ok.2 ⟨frames, Members.option_nat64 hframes rfl, rfl⟩⟩⟩⟩
  | json size =>
    refine bind_eq_ok.2 ⟨_, tagged_obj _ hexact (by simp), ?_⟩
    simp only
    rw [record_obj _ _ (by simp) (by simp)]
    exact bind_eq_ok.2 ⟨size, Members.option_nat64 he rfl, rfl⟩

end ExpectedVersion
end PackageHandling
