import PackageHandling.Proofs.Json.Settled

/-!
# What decoders accept

`Yields` says what holds of everything that a decoder accepts where there is room for a value; for a
record it is put together from what its members yield.
-/

namespace PackageHandling
namespace Json

variable {ε α γ : Type} {room : Nat}

theorem mem_of_mapM_eq_ok {f : α → Except ε γ} {as : List α} {cs : List γ}
    (h : as.mapM f = .ok cs) : ∀ c ∈ cs, ∃ a ∈ as, f a = .ok c := by
  induction as generalizing cs with
  | nil =>
    obtain rfl := Except.ok.inj h
    exact fun c hc => by cases hc
  | cons a as ih =>
    rw [List.mapM_cons] at h
    obtain ⟨c, hc, h⟩ := bind_eq_ok.1 h
    obtain ⟨cs', hcs, h⟩ := bind_eq_ok.1 h
    obtain rfl := Except.ok.inj h
    refine List.forall_mem_cons.2 ⟨⟨a, List.mem_cons_self, hc⟩, fun c' hc' => ?_⟩
    obtain ⟨a', ha', hfound⟩ := ih hcs c' hc'
    exact ⟨a', List.mem_cons_of_mem _ ha', hfound⟩

/-- Where there is room for a value, what is made of it is as the condition says. -/
def Yields (room : Nat) (f : Json → Decoded α) (P : α → Prop) : Prop :=
  ∀ ⦃v a⦄, Nests room v → f v = .ok a → P a

theorem yields_asInt (low high : Int) (expected : String) :
    Yields room (asInt low high expected) fun n => low ≤ n ∧ n ≤ high := by
  intro v n _ h
  rw [asInt.eq_def] at h
  split at h
  · split at h
    · next hin => exact Except.ok.inj h ▸ hin
    · cases h
  · cases h

theorem yields_asNat64 : Yields room asNat64 fun n => n ≤ 0xFFFFFFFFFFFFFFFF := by
  intro v n hv h
  obtain ⟨i, hi, rfl⟩ := map_eq_ok.1 h
  have hin := yields_asInt _ _ _ hv hi
  omega

theorem yields_asNat32 : Yields room asNat32 fun n => n ≤ 0xFFFFFFFF := by
  intro v n hv h
  obtain ⟨i, hi, rfl⟩ := map_eq_ok.1 h
  have hin := yields_asInt _ _ _ hv hi
  omega

theorem yields_asFree : Yields room asFree (Settled room) := by
  intro v w hv h
  rw [asFree] at h
  split at h
  · next stored hstored =>
    obtain rfl := Except.ok.inj h
    exact hv.settled hstored
  · cases h

section

variable {f : Json → Decoded α} {P : α → Prop}

theorem Yields.asOption (h : Yields room f P) :
    Yields room (asOption f) fun x => ∀ a ∈ x, P a := by
  intro v x hv hx a ha
  rw [Json.asOption.eq_def] at hx
  split at hx
  · obtain rfl := Except.ok.inj hx
    cases ha
  · obtain ⟨a', ha', rfl⟩ := map_eq_ok.1 hx
    obtain rfl := Option.some.inj ha
    exact h hv ha'

theorem Yields.asList (h : Yields room f P) :
    Yields (room + 1) (asList f) fun as => ∀ a ∈ as, P a := by
  intro v as hv has
  rw [Json.asList.eq_def] at has
  split at has
  · cases hv with
    | arr hitems =>
      intro a ha
      obtain ⟨u, hu, hfound⟩ := mem_of_mapM_eq_ok has a ha
      exact h (hitems u hu) hfound
  · cases has

theorem Yields.members (h : Yields room f P) {found : List (String × Json)}
    (hfound : ∀ e ∈ found, Nests room e.2) {as : List (String × α)}
    (has : found.mapM (fun e => do return (e.1, ← f e.2)) = (.ok as : Decoded _)) :
    ∀ e ∈ as, P e.2 ∧ ∃ m ∈ found, m.1 = e.1 := by
  intro e he
  obtain ⟨m, hm, hmade⟩ := mem_of_mapM_eq_ok has e he
  obtain ⟨a, ha, hmade⟩ := bind_eq_ok.1 hmade
  obtain rfl := Except.ok.inj hmade
  exact ⟨h (hfound m hm) ha, m, hm, rfl⟩

namespace Members

/-- There is so much room for what each member holds. -/
def Within (room : Nat) (m : Members) : Prop := ∀ e ∈ m.found, Nests room e.2

variable {m : Members} {field : String} {a : α}

theorem get?_eq_ok (hm : m.Within room) (h : Yields room f P) {x : Option α}
    (hx : m.get? field f = .ok x) : ∀ a ∈ x, P a := by
  intro a ha
  rw [get?] at hx
  split at hx
  · obtain rfl := Except.ok.inj hx
    cases ha
  · next v hv =>
    obtain ⟨a', ha', rfl⟩ := map_eq_ok.1 hx
    obtain rfl := Option.some.inj ha
    obtain ⟨l, r, hfound, -⟩ := List.lookup_eq_some_iff.1 hv
    exact h (hm (field, v) (by simp [hfound])) ha'

end Members

theorem Yields.getD {m : Members} (h : Yields room f P) (hm : m.Within room) {field : String}
    {default a : α} (hdefault : P default) (ha : m.getD field default f = .ok a) : P a := by
  obtain ⟨x, hx, hget⟩ := bind_eq_ok.1 ha
  obtain rfl := Except.ok.inj hget
  cases x with
  | none => exact hdefault
  | some a' => exact Members.get?_eq_ok hm h hx a' rfl

theorem Yields.option {m : Members} (h : Yields room f P) (hm : m.Within room) {field : String}
    {x : Option α} (hx : m.option field f = .ok x) : ∀ a ∈ x, P a :=
  h.asOption.getD hm (fun a ha => by cases ha) hx

end

theorem Members.ofObject_within {known : List String} {members : List (String × Json)} {m : Members}
    (hmembers : ∀ e ∈ members, Nests room e.2) (h : Members.ofObject known members = .ok m) :
    m.Within room := by
  obtain ⟨-, -, hm⟩ := bind_eq_ok.1 h
  obtain rfl := Except.ok.inj hm
  exact fun e he => hmembers e (List.mem_filter.1 he).1

theorem record_eq_ok {known : List String} {what : String} {v : Json} {make : Members → Decoded α}
    {a : α} (hv : Nests (room + 1) v) (h : record known what v make = .ok a) :
    ∃ m : Members, m.Within room ∧ make m = .ok a := by
  rw [record.eq_def] at h
  split at h
  · cases hv with
    | obj hmembers =>
      obtain ⟨m, hm, hmake⟩ := bind_eq_ok.1 h
      exact ⟨m, Members.ofObject_within hmembers hm, hmake⟩
  · next items =>
    cases hv with
    | arr hitems =>
      obtain ⟨a', hmake, hend⟩ := bind_eq_ok.1 h
      have hall : (Members.ofArray known (elementCount what known.length) items).Within room :=
        fun e he => hitems e.2 (List.of_mem_zip (a := e.1) he).2
      refine ⟨_, hall, ?_⟩
      split at hend
      · cases hend
      · exact hmake.trans hend
  · cases h

theorem tagged_nests {tag what name : String} {v rest : Json} (hv : Nests room v)
    (h : tagged tag what v = .ok (name, rest)) : Nests room rest := by
  obtain ⟨-, -, h⟩ := bind_eq_ok.1 h
  split at h
  · next found =>
    split at h
    · cases h
    · obtain ⟨name', -, h⟩ := bind_eq_ok.1 h
      obtain ⟨-, rfl⟩ := Prod.mk.inj (Except.ok.inj h)
      cases hv with
      | obj hmembers => exact .obj fun m hm => hmembers m (List.mem_filter.1 hm).1
    · cases h
  · cases h
  · obtain ⟨name', -, h⟩ := bind_eq_ok.1 h
    obtain ⟨-, rfl⟩ := Prod.mk.inj (Except.ok.inj h)
    cases hv with
    | arr hitems => exact .arr fun v hv => hitems v (List.mem_cons_of_mem _ hv)
  · cases h

theorem tagged_obj {tag name : String} (what : String) {fields : List (String × Json)}
    (hexact : Exact (.obj ((tag, .str name) :: fields))) (hother : ∀ m ∈ fields, m.1 ≠ tag) :
    (Json.obj ((tag, .str name) :: fields)).tagged tag what = .ok (name, .obj fields) := by
  have hnone : fields.filter (·.1 = tag) = [] :=
    List.filter_eq_nil_iff.2 fun m hm => by simpa using hother m hm
  have hall : fields.filter (·.1 ≠ tag) = fields :=
    List.filter_eq_self.2 fun m hm => by simpa using hother m hm
  have hfirst : ((tag, .str name) :: fields).filter (·.1 = tag) = [(tag, .str name)] := by
    rw [List.filter_cons_of_pos (by simp), hnone]
  have hrest : ((tag, .str name) :: fields).filter (·.1 ≠ tag) = fields := by
    rw [List.filter_cons_of_neg (by simp), hall]
  simp only [tagged, hexact.readable, hfirst, hrest]
  rfl

end Json
end PackageHandling
