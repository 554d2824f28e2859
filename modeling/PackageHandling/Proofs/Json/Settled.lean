import PackageHandling.Proofs.Json.Nesting
import PackageHandling.Proofs.Json.Stored
import PackageHandling.Proofs.Keyed.Contents

/-!
# Values that are stored

What a value is stored as is its own stored form, and holds no more nested containers than the value
does.
-/

namespace PackageHandling
namespace Json

/-- A value in its stored form, with so many nested containers at most. -/
inductive Settled : Nat → Json → Prop
  | null {room : Nat} : Settled room .null
  | bool {room : Nat} (b : Bool) : Settled room (.bool b)
  | num {room : Nat} (n : Number) : Settled room (.num n)
  | str {room : Nat} (s : String) : Settled room (.str s)
  | arr {room : Nat} {items : List Json} (h : ∀ v ∈ items, Settled room v) :
      Settled (room + 1) (.arr items)
  | obj {room : Nat} {members : List (String × Json)} (hkeys : Sorted.Increasing members)
      (h : ∀ m ∈ members, Settled room m.2) : Settled (room + 1) (.obj members)

theorem freeItems?_eq_some {items ws : List Json} (h : freeItems? items = some ws) :
    ∀ w ∈ ws, ∃ v ∈ items, v.free? = some w := by
  induction items generalizing ws with
  | nil =>
    obtain rfl := Option.some.inj h
    exact fun w hw => by cases hw
  | cons v rest ih =>
    obtain ⟨head, hhead, h⟩ := Option.bind_eq_some_iff.1 h
    obtain ⟨tail, htail, h⟩ := Option.bind_eq_some_iff.1 h
    obtain rfl := Option.some.inj h
    refine List.forall_mem_cons.2 ⟨⟨v, List.mem_cons_self, hhead⟩, fun w hw => ?_⟩
    obtain ⟨u, hu, hfree⟩ := ih htail w hw
    exact ⟨u, List.mem_cons_of_mem _ hu, hfree⟩

theorem freeMembers?_eq_some {members ws : List (String × Json)}
    (h : freeMembers? members = some ws) :
    ∀ w ∈ ws, ∃ m ∈ members, m.2.free? = some w.2 := by
  induction members generalizing ws with
  | nil =>
    obtain rfl := Option.some.inj h
    exact fun w hw => by cases hw
  | cons m rest ih =>
    obtain ⟨key, v⟩ := m
    obtain ⟨head, hhead, h⟩ := Option.bind_eq_some_iff.1 h
    obtain ⟨tail, htail, h⟩ := Option.bind_eq_some_iff.1 h
    obtain rfl := Option.some.inj h
    refine List.forall_mem_cons.2 ⟨⟨(key, v), List.mem_cons_self, hhead⟩, fun w hw => ?_⟩
    obtain ⟨u, hu, hfree⟩ := ih htail w hw
    exact ⟨u, List.mem_cons_of_mem _ hu, hfree⟩

theorem Nests.settled {room : Nat} {v : Json} (h : Nests room v) {w : Json}
    (hw : v.free? = some w) : Settled room w := by
  induction h generalizing w with
  | null =>
    obtain rfl := Option.some.inj hw
    exact .null
  | bool b =>
    obtain rfl := Option.some.inj hw
    exact .bool b
  | num n =>
    obtain rfl := Option.some.inj hw
    exact .num n
  | str s =>
    obtain rfl := Option.some.inj hw
    exact .str s
  | unreadable => cases hw
  | arr _ ih =>
    obtain ⟨ws, hws, rfl⟩ := Option.map_eq_some_iff.1 hw
    refine .arr fun u hu => ?_
    obtain ⟨v, hv, hfree⟩ := freeItems?_eq_some hws u hu
    exact ih v hv hfree
  | obj _ ih =>
    obtain ⟨ws, hws, rfl⟩ := Option.map_eq_some_iff.1 hw
    refine .obj (Sorted.ofList ws).increasing fun u hu => ?_
    obtain ⟨m, hm, hfree⟩ := freeMembers?_eq_some hws u (Sorted.mem_of_mem_ofList hu)
    exact ih m hm hfree

theorem freeItems?_self {items : List Json} (h : ∀ v ∈ items, v.free? = some v) :
    freeItems? items = some items := by
  induction items with
  | nil => rfl
  | cons v rest ih =>
    have hrest := ih fun u hu => h u (List.mem_cons_of_mem _ hu)
    simp [freeItems?, h v List.mem_cons_self, hrest]

theorem freeMembers?_self {members : List (String × Json)}
    (h : ∀ m ∈ members, m.2.free? = some m.2) : freeMembers? members = some members := by
  induction members with
  | nil => rfl
  | cons m rest ih =>
    have hrest := ih fun u hu => h u (List.mem_cons_of_mem _ hu)
    simp [freeMembers?, h m List.mem_cons_self, hrest]

/-- A stored form is its own stored form. -/
theorem Settled.free? {room : Nat} {v : Json} (h : Settled room v) : v.free? = some v := by
  induction h with
  | arr _ ih => rw [Json.free?, freeItems?_self ih, Option.map_some]
  | @obj room members hkeys _ ih =>
    rw [Json.free?, freeMembers?_self ih, Option.map_some, Sorted.entries_ofList hkeys]
  | _ => rfl

theorem Settled.nests {room : Nat} {v : Json} (h : Settled room v) : Nests room v := by
  induction h with
  | null => exact .null
  | bool b => exact .bool b
  | num n => exact .num n
  | str s => exact .str s
  | arr _ ih => exact .arr ih
  | obj _ _ ih => exact .obj ih

theorem Settled.asFree {room : Nat} {v : Json} (h : Settled room v) : asFree v = .ok v := by
  rw [Json.asFree, h.free?]

theorem freeItems?_isSome {items : List Json} (h : ∀ v ∈ items, ∃ w, v.free? = some w) :
    ∃ ws, freeItems? items = some ws := by
  induction items with
  | nil => exact ⟨[], rfl⟩
  | cons v rest ih =>
    obtain ⟨⟨w, hw⟩, hrest⟩ := List.forall_mem_cons.1 h
    obtain ⟨ws, hws⟩ := ih hrest
    exact ⟨w :: ws, by simp [freeItems?, hw, hws]⟩

theorem freeMembers?_isSome {members : List (String × Json)}
    (h : ∀ m ∈ members, ∃ w, m.2.free? = some w) : ∃ ws, freeMembers? members = some ws := by
  induction members with
  | nil => exact ⟨[], rfl⟩
  | cons m rest ih =>
    obtain ⟨⟨w, hw⟩, hrest⟩ := List.forall_mem_cons.1 h
    obtain ⟨ws, hws⟩ := ih hrest
    exact ⟨(m.1, w) :: ws, by simp [freeMembers?, hw, hws]⟩

theorem Exact.free? {v : Json} (h : Exact v) : ∃ w, v.free? = some w := by
  induction h with
  | arr _ ih =>
    obtain ⟨ws, hws⟩ := freeItems?_isSome ih
    exact ⟨_, by rw [Json.free?, hws, Option.map_some]⟩
  | obj _ ih =>
    obtain ⟨ws, hws⟩ := freeMembers?_isSome ih
    exact ⟨_, by rw [Json.free?, hws, Option.map_some]⟩
  | _ => exact ⟨_, rfl⟩

theorem Exact.readable {v : Json} (h : Exact v) : v.readable = .ok () := by
  obtain ⟨w, hw⟩ := h.free?
  rw [Json.readable, Json.asFree, hw]
  rfl

end Json
end PackageHandling
