import PackageHandling.Json.Decode

/-!
# The stored form of a value

An object whose keys increase is stored as it is, member by member, and a record is read from an
object without repeated keys member by member: each member that is decoded as it was written gives
back what it was written for.
-/

namespace PackageHandling

namespace Sorted

variable {α γ : Type}

theorem insertEntry_last {key : String} {value : α} {entries : List (String × α)}
    (h : ∀ e ∈ entries, Text.precedes e.1 key = true) :
    insertEntry key value entries = entries ++ [(key, value)] := by
  induction entries with
  | nil => rfl
  | cons head rest ih =>
    obtain ⟨k, v⟩ := head
    have hk : Text.precedes k key = true := h (k, v) List.mem_cons_self
    have hno : ¬ Text.precedes key k = true := fun hback => by
      simpa [Text.precedes_self] using Text.precedes_trans hk hback
    rw [insertEntry, if_neg hno, if_pos hk, ih fun e he => h e (List.mem_cons_of_mem _ he)]
    rfl

theorem entries_foldl_insert (es : List (String × α)) (t : Sorted α)
    (h : Increasing (t.entries ++ es)) :
    (es.foldl (fun t e => t.insert e.1 e.2) t).entries = t.entries ++ es := by
  induction es generalizing t with
  | nil => simp
  | cons e es ih =>
    have hbefore : ∀ e' ∈ t.entries, Text.precedes e'.1 e.1 = true := fun e' he' =>
      (List.pairwise_append.1 h).2.2 e' he' e List.mem_cons_self
    have hinsert : (t.insert e.1 e.2).entries = t.entries ++ [e] := insertEntry_last hbefore
    rw [List.foldl_cons, ih _ (by simpa [hinsert] using h), hinsert, List.append_assoc]
    rfl

theorem entries_ofList {es : List (String × α)} (h : Increasing es) : (ofList es).entries = es :=
  entries_foldl_insert es empty h

theorem ofList_entries (t : Sorted α) : ofList t.entries = t := ext (entries_ofList t.increasing)

theorem increasing_map {es : List (String × α)} (h : Increasing es) (f : α → γ) :
    Increasing (es.map fun e => (e.1, f e.2)) :=
  List.pairwise_map.2 h

end Sorted

namespace Json

variable {α : Type}

theorem freeMembers?_map {es : List (String × α)} {write stored : α → Json}
    (h : ∀ e ∈ es, (write e.2).free? = some (stored e.2)) :
    freeMembers? (es.map fun e => (e.1, write e.2)) =
      some (es.map fun e => (e.1, stored e.2)) := by
  induction es with
  | nil => rfl
  | cons e es ih =>
    have hrest := ih fun e' he' => h e' (List.mem_cons_of_mem _ he')
    simp [freeMembers?, h e List.mem_cons_self, hrest]

theorem free?_table (t : Sorted α) {write stored : α → Json}
    (h : ∀ e ∈ t.entries, (write e.2).free? = some (stored e.2)) :
    (Json.obj (t.entries.map fun e => (e.1, write e.2))).free? =
      some (.obj (t.entries.map fun e => (e.1, stored e.2))) := by
  rw [free?, freeMembers?_map h, Option.map_some,
    Sorted.entries_ofList (Sorted.increasing_map t.increasing stored)]

/-! ### Decoders in sequence -/

section

variable {ε γ : Type}

theorem bind_eq_ok {x : Except ε α} {f : α → Except ε γ} {c : γ} :
    (x >>= f) = .ok c ↔ ∃ a, x = .ok a ∧ f a = .ok c := by
  cases x with
  | error e => exact ⟨fun h => (by cases h), fun ⟨a, h, _⟩ => (by cases h)⟩
  | ok a => exact ⟨fun h => ⟨a, rfl, h⟩, fun ⟨a', ha, h⟩ => by cases ha; exact h⟩

theorem map_eq_ok {x : Except ε α} {f : α → γ} {c : γ} :
    f <$> x = .ok c ↔ ∃ a, x = .ok a ∧ f a = c := by
  cases x with
  | error e => exact ⟨fun h => (by cases h), fun ⟨a, h, _⟩ => (by cases h)⟩
  | ok a => exact ⟨fun h => ⟨a, rfl, Except.ok.inj h⟩, fun ⟨a', ha, h⟩ => by cases ha; cases h; rfl⟩

theorem mapM_map_eq_ok {f : α → Except ε γ} {write : γ → α} {cs : List γ}
    (h : ∀ c ∈ cs, f (write c) = .ok c) : (cs.map write).mapM f = .ok cs := by
  induction cs with
  | nil => rfl
  | cons c cs ih =>
    obtain ⟨hfirst, hrest⟩ := List.forall_mem_cons.1 h
    rw [List.map_cons, List.mapM_cons, hfirst, ih hrest]
    rfl

theorem mapM_self {f : γ → Except ε γ} {cs : List γ} (h : ∀ c ∈ cs, f c = .ok c) :
    cs.mapM f = .ok cs := by
  have hmap : (cs.map id).mapM f = .ok cs := mapM_map_eq_ok h
  rwa [List.map_id] at hmap

end

/-! ### Records -/

namespace Members

theorem scan_distinct (known : List String) {members : List (String × Json)} {seen : List String}
    (hdistinct : (members.map (·.1)).Nodup) (hseen : ∀ m ∈ members, m.1 ∉ seen) :
    ofObject.scan known members seen = .ok () := by
  induction members generalizing seen with
  | nil => rfl
  | cons m members ih =>
    obtain ⟨k, v⟩ := m
    rw [List.map_cons, List.nodup_cons] at hdistinct
    rw [ofObject.scan, if_neg (hseen (k, v) List.mem_cons_self)]
    refine ih hdistinct.2 fun m hm => ?_
    have hother : m.1 ≠ k := fun heq => hdistinct.1 (List.mem_map.2 ⟨m, hm, heq⟩)
    have hold := hseen m (List.mem_cons_of_mem _ hm)
    split
    · exact fun hmem => (List.mem_cons.1 hmem).elim hother hold
    · exact hold

/-- No key is there twice, so the known members are the record's. -/
theorem ofObject_distinct (known : List String) {members : List (String × Json)}
    (hdistinct : (members.map (·.1)).Nodup) :
    ofObject known members = .ok ⟨members.filter (·.1 ∈ known), false, .missing⟩ := by
  rw [ofObject, scan_distinct known hdistinct fun _ _ => List.not_mem_nil]
  rfl

theorem get?_found {m : Members} {field : String} {f : Json → Decoded α} {v : Json} {a : α}
    (hm : m.found.lookup field = some v) (hv : f v = .ok a) : m.get? field f = .ok (some a) := by
  rw [get?, hm]
  simp only [hv]
  rfl

theorem get?_absent {m : Members} {field : String} (f : Json → Decoded α)
    (hm : m.found.lookup field = none) : m.get? field f = .ok none := by
  rw [get?, hm]

end Members

/-- A record is made from its members, where each is known and none is there twice. -/
theorem record_obj {known : List String} (what : String) {members : List (String × Json)}
    (make : Members → Decoded α) (hdistinct : (members.map (·.1)).Nodup)
    (hknown : ∀ m ∈ members, m.1 ∈ known) :
    record known what (.obj members) make = make ⟨members, false, .missing⟩ := by
  have hall : members.filter (·.1 ∈ known) = members :=
    List.filter_eq_self.2 fun m hm => decide_eq_true (hknown m hm)
  rw [record, Members.ofObject_distinct known hdistinct, hall]
  rfl

theorem ofOption_inj {f : α → Json} (hnull : ∀ a, f a ≠ .null)
    (hinj : ∀ a b, f a = f b → a = b) {x y : Option α} (h : ofOption f x = ofOption f y) :
    x = y := by
  cases x with
  | none =>
    cases y with
    | none => rfl
    | some b => exact absurd h.symm (hnull b)
  | some a =>
    cases y with
    | none => exact absurd h (hnull a)
    | some b => exact congrArg some (hinj a b h)

theorem asOption_ofOption {f : α → Json} {g : Json → Decoded α} (hnull : ∀ a, f a ≠ .null)
    {x : Option α} (h : ∀ a, x = some a → g (f a) = .ok a) : asOption g (ofOption f x) = .ok x := by
  cases x with
  | none => rfl
  | some a =>
    rw [ofOption, asOption.eq_2 _ _ (hnull a), h a rfl]
    rfl

theorem free?_ofOption {f stored : α → Json} {x : Option α}
    (h : ∀ a, x = some a → (f a).free? = some (stored a)) :
    (ofOption f x).free? = some (ofOption stored x) := by
  cases x with
  | none => rfl
  | some a => exact h a rfl

/-! ### Members of a record -/

theorem asNat64_nat {n : Nat} (h : n ≤ 0xFFFFFFFFFFFFFFFF) : asNat64 (.nat n) = .ok n := by
  have hin : (0 : Int) ≤ n ∧ (n : Int) ≤ 0xFFFFFFFFFFFFFFFF := by omega
  rw [asNat64, nat, asInt, if_pos hin]
  rfl

theorem asNat32_nat {n : Nat} (h : n ≤ 0xFFFFFFFF) : asNat32 (.nat n) = .ok n := by
  have hin : (0 : Int) ≤ n ∧ (n : Int) ≤ 0xFFFFFFFF := by omega
  rw [asNat32, nat, asInt, if_pos hin]
  rfl

theorem asInt64_int {n : Int} (h : -0x8000000000000000 ≤ n ∧ n ≤ 0x7FFFFFFFFFFFFFFF) :
    asInt64 (.int n) = .ok n := by
  rw [asInt64, int, asInt, if_pos h]

theorem asInt32_int {n : Int} (h : -0x80000000 ≤ n ∧ n ≤ 0x7FFFFFFF) :
    asInt32 (.int n) = .ok n := by
  rw [asInt32, int, asInt, if_pos h]

theorem asList_map {f : Json → Decoded α} {write : α → Json} {as : List α}
    (h : ∀ a ∈ as, f (write a) = .ok a) : asList f (.arr (as.map write)) = .ok as := by
  rw [asList]
  exact mapM_map_eq_ok h

theorem members_map {f : Json → Decoded α} {write : α → Json} {as : List (String × α)}
    (h : ∀ e ∈ as, f (write e.2) = .ok e.2) :
    (as.map fun e => (e.1, write e.2)).mapM (fun e => do return (e.1, ← f e.2)) =
      (.ok as : Decoded _) :=
  mapM_map_eq_ok fun e he => bind_eq_ok.2 ⟨e.2, h e he, rfl⟩

theorem Members.get_found {m : Members} {field : String} {f : Json → Decoded α} {v : Json} {a : α}
    (hm : m.found.lookup field = some v) (hv : f v = .ok a) : m.get field f = .ok a := by
  rw [get, get?_found hm hv]
  rfl

theorem Members.getD_found {m : Members} {field : String} {f : Json → Decoded α} {v : Json}
    {default a : α} (hm : m.found.lookup field = some v) (hv : f v = .ok a) :
    m.getD field default f = .ok a := by
  rw [getD, get?_found hm hv]
  rfl

theorem Members.option_found {m : Members} {field : String} {f : Json → Decoded α}
    {write : α → Json} {x : Option α} (hm : m.found.lookup field = some (ofOption write x))
    (hnull : ∀ a, write a ≠ .null) (hx : ∀ a ∈ x, f (write a) = .ok a) :
    m.option field f = .ok x :=
  getD_found hm (asOption_ofOption hnull hx)

section

variable {known : List String} {own others : List (String × Json)}

theorem filter_known (hown : ∀ m ∈ own, m.1 ∈ known) (hothers : ∀ m ∈ others, m.1 ∉ known) :
    (own ++ others).filter (·.1 ∈ known) = own := by
  have hnone : others.filter (·.1 ∈ known) = [] :=
    List.filter_eq_nil_iff.2 fun m hm => by simpa using hothers m hm
  rw [List.filter_append, hnone, List.append_nil]
  exact List.filter_eq_self.2 fun m hm => by simpa using hown m hm

theorem filter_unknown (hown : ∀ m ∈ own, m.1 ∈ known) (hothers : ∀ m ∈ others, m.1 ∉ known) :
    (own ++ others).filter (·.1 ∉ known) = others := by
  have hnone : own.filter (·.1 ∉ known) = [] :=
    List.filter_eq_nil_iff.2 fun m hm => by simpa using hown m hm
  rw [List.filter_append, hnone, List.nil_append]
  exact List.filter_eq_self.2 fun m hm => by simpa using hothers m hm

end

section

variable {m : Members} {field : String}

theorem Members.option_text {x : Option String}
    (hm : m.found.lookup field = some (ofOption .str x)) : m.option field asText = .ok x :=
  option_found hm (fun _ h => by cases h) fun _ _ => rfl

theorem Members.option_nat64 {x : Option Nat} (hx : ∀ n ∈ x, n ≤ 0xFFFFFFFFFFFFFFFF)
    (hm : m.found.lookup field = some (ofOption .nat x)) : m.option field asNat64 = .ok x :=
  option_found hm (fun _ h => by cases h) fun n hn => asNat64_nat (hx n hn)

theorem Members.option_nat32 {x : Option Nat} (hx : ∀ n ∈ x, n ≤ 0xFFFFFFFF)
    (hm : m.found.lookup field = some (ofOption .nat x)) : m.option field asNat32 = .ok x :=
  option_found hm (fun _ h => by cases h) fun n hn => asNat32_nat (hx n hn)

theorem Members.option_int64 {x : Option Int}
    (hx : ∀ n ∈ x, -0x8000000000000000 ≤ n ∧ n ≤ 0x7FFFFFFFFFFFFFFF)
    (hm : m.found.lookup field = some (ofOption .int x)) : m.option field asInt64 = .ok x :=
  option_found hm (fun _ h => by cases h) fun n hn => asInt64_int (hx n hn)

theorem Members.option_int32 {x : Option Int} (hx : ∀ n ∈ x, -0x80000000 ≤ n ∧ n ≤ 0x7FFFFFFF)
    (hm : m.found.lookup field = some (ofOption .int x)) : m.option field asInt32 = .ok x :=
  option_found hm (fun _ h => by cases h) fun n hn => asInt32_int (hx n hn)

end

end Json
end PackageHandling
