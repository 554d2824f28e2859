import PackageHandling.Proofs.Json.Reading

/-!
# How deeply a document is nested

No value of a document holds more containers, one in the other, than there is room for.
-/

namespace PackageHandling
namespace Json

/-- A value in which so many containers are nested at most. -/
inductive Nests : Nat → Json → Prop
  | null {room : Nat} : Nests room .null
  | bool {room : Nat} (b : Bool) : Nests room (.bool b)
  | num {room : Nat} (n : Number) : Nests room (.num n)
  | str {room : Nat} (s : String) : Nests room (.str s)
  | unreadable {room : Nat} : Nests room .unreadable
  | arr {room : Nat} {items : List Json} (h : ∀ v ∈ items, Nests room v) :
      Nests (room + 1) (.arr items)
  | obj {room : Nat} {members : List (String × Json)} (h : ∀ m ∈ members, Nests room m.2) :
      Nests (room + 1) (.obj members)

theorem Plain.regular {v : Json} (h : Plain v) {room : Nat} (hv : Nests room v) :
    Regular room v := by
  induction h generalizing room with
  | null => exact .null
  | bool b => exact .bool b
  | int hlow hhigh => exact .int hlow hhigh
  | str s => exact .str s
  | arr _ ih =>
    cases hv with
    | arr hitems => exact .arr fun v hv => ih v hv (hitems v hv)
  | obj _ ih =>
    cases hv with
    | obj hmembers => exact .obj fun m hm => ih m hm (hmembers m hm)

section

attribute [simp] Regular.null Regular.bool Regular.str

variable {α : Type} {room : Nat} {write : α → Json}

theorem regular_int {n : Int} :
    Regular room (.int n) ↔ -0x8000000000000000 ≤ n ∧ n ≤ 0xFFFFFFFFFFFFFFFF :=
  ⟨fun h => by cases h with | int hlow hhigh => exact ⟨hlow, hhigh⟩, fun h => .int h.1 h.2⟩

theorem regular_arr {items : List Json} :
    Regular (room + 1) (.arr items) ↔ ∀ v ∈ items, Regular room v :=
  ⟨fun h => by cases h with | arr hitems => exact hitems, .arr⟩

theorem regular_obj {members : List (String × Json)} :
    Regular (room + 1) (.obj members) ↔ ∀ m ∈ members, Regular room m.2 :=
  ⟨fun h => by cases h with | obj hmembers => exact hmembers, .obj⟩

theorem Regular.nat {n : Nat} (h : n ≤ 0xFFFFFFFFFFFFFFFF) : Regular room (.nat n) :=
  .int (by omega) (by omega)

theorem Regular.ofOption {x : Option α} (h : ∀ a ∈ x, Regular room (write a)) :
    Regular room (Json.ofOption write x) := by
  cases x with
  | none => exact .null
  | some a => exact h a rfl

@[simp] theorem Regular.ofOption_str (x : Option String) : Regular room (Json.ofOption .str x) :=
  .ofOption fun s _ => .str s

theorem Regular.map {as : List α} (h : ∀ a ∈ as, Regular room (write a)) :
    Regular (room + 1) (.arr (as.map write)) :=
  .arr (List.forall_mem_map.2 h)

end

inductive Numeric : Json → Prop
  | num (n : Number) : Numeric (.num n)
  | unreadable : Numeric .unreadable

theorem Numeric.nests {v : Json} (h : Numeric v) (room : Nat) : Nests room v := by
  cases h with
  | num n => exact .num n
  | unreadable => exact .unreadable

theorem numeric_number (b : Option UInt64) : Numeric (number b) := by
  cases b with
  | none => exact .unreadable
  | some bits => exact .num _

section Numbers

variable {negative : Bool} {significand dropped : Nat} {exponent : Int} {s rest : List Char}
  {v : Json}

theorem exponentPart_numeric (h : exponentPart negative significand exponent s = some (v, rest)) :
    Numeric v := by
  simp only [exponentPart] at h
  -- whatever the sign, an exponent without digits is refused
  split at h <;> split_ifs at h <;> cases h <;> first | exact .unreadable | exact numeric_number _

theorem exponentOrEnd_numeric
    (h : exponentOrEnd negative significand exponent s = some (v, rest)) : Numeric v := by
  rw [exponentOrEnd.eq_def] at h
  split at h
  · exact exponentPart_numeric h
  · exact exponentPart_numeric h
  · cases h
    exact numeric_number _

theorem fractionPart_numeric (h : fractionPart negative significand exponent s = some (v, rest)) :
    Numeric v := by
  simp only [fractionPart] at h
  split at h
  · cases h
  · exact exponentOrEnd_numeric h

theorem afterWhole_numeric (h : afterWhole negative significand dropped s = some (v, rest)) :
    Numeric v := by
  rw [afterWhole.eq_def] at h
  split at h
  · exact fractionPart_numeric h
  · exact exponentPart_numeric h
  · exact exponentPart_numeric h
  split at h
  · cases h
    exact numeric_number _
  split at h
  · cases h
    exact .num _
  split at h
  · cases h
    exact numeric_number _
  · cases h
    exact .num _

theorem unsignedNumber_numeric (h : unsignedNumber negative s = some (v, rest)) : Numeric v := by
  rw [unsignedNumber.eq_def] at h
  split at h
  · split at h
    · split at h
      · cases h
      · exact afterWhole_numeric h
    · exact afterWhole_numeric h
  · simp only at h
    split at h
    · cases h
    · exact afterWhole_numeric h

end Numbers

theorem inRoom_arr_nests {room : Nat} {items : List Json} (h : ∀ v ∈ items, Nests (room - 1) v) :
    Nests room (inRoom room (.arr items)) := by
  cases room with
  | zero => exact .unreadable
  | succ room => exact .arr h

theorem inRoom_obj_nests {room : Nat} {members : List (String × Json)}
    (h : ∀ m ∈ members, Nests (room - 1) m.2) : Nests room (inRoom room (.obj members)) := by
  cases room with
  | zero => exact .unreadable
  | succ room => exact .obj h

theorem literal?_eq_some {word : String} {v w : Json} {s rest : List Char}
    (h : literal? word v s = some (w, rest)) : w = v := by
  rw [literal?] at h
  split at h
  · exact (Prod.mk.inj (Option.some.inj h)).1.symm
  · cases h

/-! ### Steps of the reader -/

/-- With so much fuel, a value leaves room for what it holds. -/
def ValuesNest (fuel : Nat) : Prop :=
  ∀ ⦃room s v rest⦄, value room fuel s = some (v, rest) → Nests room v

def ElementsNest (fuel : Nat) : Prop :=
  ∀ ⦃room s items rest⦄, elements room fuel s = some (items, rest) → ∀ v ∈ items, Nests room v

def MembersNest (fuel : Nat) : Prop :=
  ∀ ⦃room s members rest⦄, memberList room fuel s = some (some members, rest) →
    ∀ m ∈ members, Nests room m.2

variable {fuel : Nat}

theorem ValuesNest.succ (helements : ElementsNest fuel) (hmembers : MembersNest fuel) :
    ValuesNest (fuel + 1) := by
  intro room s v rest h
  rw [value.eq_def] at h
  simp only at h
  split at h
  · obtain rfl := literal?_eq_some h
    exact .null
  · obtain rfl := literal?_eq_some h
    exact .bool true
  · obtain rfl := literal?_eq_some h
    exact .bool false
  · exact (unsignedNumber_numeric h).nests room
  · obtain ⟨⟨text, t⟩, -, ht⟩ := Option.map_eq_some_iff.1 h
    obtain ⟨rfl, -⟩ := Prod.mk.inj ht
    cases text with
    | none => exact .unreadable
    | some text => exact .str text
  · split at h
    · obtain ⟨rfl, -⟩ := Prod.mk.inj (Option.some.inj h)
      exact inRoom_arr_nests fun v hv => by cases hv
    · obtain ⟨⟨items, t⟩, hitems, ht⟩ := Option.bind_eq_some_iff.1 h
      obtain ⟨rfl, -⟩ := Prod.mk.inj (Option.some.inj ht)
      exact inRoom_arr_nests (helements hitems)
  · split at h
    · obtain ⟨rfl, -⟩ := Prod.mk.inj (Option.some.inj h)
      exact inRoom_obj_nests fun m hm => by cases hm
    · obtain ⟨⟨found, t⟩, hfound, ht⟩ := Option.bind_eq_some_iff.1 h
      obtain ⟨rfl, -⟩ := Prod.mk.inj (Option.some.inj ht)
      cases found with
      | none =>
        rw [inRoom]
        split <;> exact .unreadable
      | some members => exact inRoom_obj_nests (hmembers hfound)
  · exact (unsignedNumber_numeric h).nests room

theorem ElementsNest.succ (hvalue : ValuesNest fuel) (helements : ElementsNest fuel) :
    ElementsNest (fuel + 1) := by
  intro room s items rest h
  rw [elements] at h
  obtain ⟨⟨head, t⟩, hhead, h⟩ := Option.bind_eq_some_iff.1 h
  simp only at h
  split at h
  · obtain ⟨rfl, -⟩ := Prod.mk.inj (Option.some.inj h)
    exact fun v hv => List.mem_singleton.1 hv ▸ hvalue hhead
  · obtain ⟨⟨tail, t'⟩, htail, ht⟩ := Option.bind_eq_some_iff.1 h
    obtain ⟨rfl, -⟩ := Prod.mk.inj (Option.some.inj ht)
    exact List.forall_mem_cons.2 ⟨hvalue hhead, helements htail⟩
  · cases h

theorem MembersNest.succ (hvalue : ValuesNest fuel) (hmembers : MembersNest fuel) :
    MembersNest (fuel + 1) := by
  intro room s members rest h
  rw [memberList.eq_def] at h
  simp only at h
  split at h
  · obtain ⟨⟨key, t⟩, -, h⟩ := Option.bind_eq_some_iff.1 h
    simp only at h
    split at h
    · obtain ⟨⟨head, t'⟩, hhead, h⟩ := Option.bind_eq_some_iff.1 h
      simp only at h
      split at h
      · obtain ⟨hentry, -⟩ := Prod.mk.inj (Option.some.inj h)
        obtain ⟨e, he, rfl⟩ := Option.map_eq_some_iff.1 hentry
        obtain ⟨k, -, rfl⟩ := Option.map_eq_some_iff.1 he
        exact fun m hm => List.mem_singleton.1 hm ▸ hvalue hhead
      · obtain ⟨⟨tail, t''⟩, htail, h⟩ := Option.bind_eq_some_iff.1 h
        obtain ⟨hentry, -⟩ := Prod.mk.inj (Option.some.inj h)
        obtain ⟨e, he, hrest⟩ := Option.bind_eq_some_iff.1 hentry
        obtain ⟨k, -, rfl⟩ := Option.map_eq_some_iff.1 he
        obtain ⟨others, rfl, hcons⟩ := Option.bind_eq_some_iff.1 hrest
        obtain rfl := Option.some.inj hcons
        exact List.forall_mem_cons.2 ⟨hvalue hhead, hmembers htail⟩
      · cases h
    · cases h
  · cases h

/-- No value holds more nested containers than there is room for. -/
theorem value_nests (fuel : Nat) : ValuesNest fuel ∧ ElementsNest fuel ∧ MembersNest fuel := by
  induction fuel with
  | zero =>
    exact ⟨fun _ _ _ _ h => by simp [value] at h, fun _ _ _ _ h => by simp [elements] at h,
      fun _ _ _ _ h => by simp [memberList] at h⟩
  | succ fuel ih =>
    obtain ⟨hvalue, helements, hmembers⟩ := ih
    exact ⟨.succ helements hmembers, .succ hvalue helements, .succ hvalue hmembers⟩

theorem read?_nests {text : String} {v : Json} (h : read? text = some v) :
    Nests nestingLimit v := by
  rw [read?, readNested?] at h
  split at h
  · next hread =>
    split at h
    · obtain rfl := Option.some.inj h
      exact (value_nests _).1 hread
    · cases h
  · cases h

end Json
end PackageHandling
