import PackageHandling.Keyed

/-!
# What keyed collections hold

A collection that is made from a list holds nothing but entries of the list, and one that is made
from its own entries is the same collection.
-/

namespace PackageHandling

/-- Where a step adds one thing at most, a run adds nothing but what it was given. -/
theorem mem_of_mem_foldl {τ ι : Type} (holds : τ → ι → Prop) {step : τ → ι → τ}
    (hstep : ∀ t i j, holds (step t i) j → j = i ∨ holds t j) {is : List ι} {t : τ} {j : ι}
    (h : holds (is.foldl step t) j) : j ∈ is ∨ holds t j := by
  induction is generalizing t with
  | nil => exact .inr h
  | cons i is ih =>
    rcases ih h with h | h
    · exact .inl (List.mem_cons_of_mem _ h)
    · rcases hstep t i j h with rfl | h
      · exact .inl List.mem_cons_self
      · exact .inr h

namespace Sorted

variable {α : Type}

theorem eq_or_mem_of_mem_insertEntry {key : String} {value : α} {entries : List (String × α)}
    {e : String × α} (h : e ∈ insertEntry key value entries) : e = (key, value) ∨ e ∈ entries := by
  induction entries with
  | nil => exact .inl (List.mem_singleton.1 h)
  | cons head rest ih =>
    obtain ⟨k, v⟩ := head
    rw [insertEntry] at h
    split at h
    · exact List.mem_cons.1 h
    split at h
    · rcases List.mem_cons.1 h with rfl | h
      · exact .inr List.mem_cons_self
      · exact (ih h).imp_right (List.mem_cons_of_mem _)
    · exact (List.mem_cons.1 h).imp_right (List.mem_cons_of_mem _)

theorem Increasing.nodup {entries : List (String × α)} (h : Increasing entries) :
    (entries.map (·.1)).Nodup :=
  List.pairwise_map.2 (h.imp fun {a b} hlt heq => by
    rw [heq, Text.precedes_self] at hlt
    cases hlt)

theorem mem_of_mem_ofList {entries : List (String × α)} {e : String × α}
    (h : e ∈ (ofList entries).entries) : e ∈ entries :=
  have hstep : ∀ (t : Sorted α) (e' e : String × α), e ∈ (t.insert e'.1 e'.2).entries →
      e = e' ∨ e ∈ t.entries := fun _ _ _ => eq_or_mem_of_mem_insertEntry
  (mem_of_mem_foldl (fun (t : Sorted α) e => e ∈ t.entries) hstep h).resolve_right List.not_mem_nil

end Sorted

namespace Ordered

variable {α : Type}

theorem put_of_not_mem {key : String} {value : α} {entries : List (String × α)}
    (h : key ∉ entries.map (·.1)) : put key value entries = entries ++ [(key, value)] := by
  induction entries with
  | nil => rfl
  | cons head rest ih =>
    obtain ⟨k, v⟩ := head
    rw [List.map_cons, List.mem_cons, not_or] at h
    rw [put, if_neg (Ne.symm h.1), ih h.2]
    rfl

theorem entries_foldl_insert (es : List (String × α)) (t : Ordered α)
    (h : ((t.entries ++ es).map (·.1)).Nodup) :
    (es.foldl (fun t e => t.insert e.1 e.2) t).entries = t.entries ++ es := by
  induction es generalizing t with
  | nil => simp
  | cons e es ih =>
    have hnew : e.1 ∉ t.entries.map (·.1) := by
      rw [List.map_append, List.nodup_append] at h
      exact fun hmem => h.2.2 _ hmem _ List.mem_cons_self rfl
    have hinsert : (t.insert e.1 e.2).entries = t.entries ++ [e] := put_of_not_mem hnew
    rw [List.foldl_cons, ih _ (by simpa [hinsert] using h), hinsert, List.append_assoc]
    rfl

theorem ofList_entries (t : Ordered α) : ofList t.entries = t :=
  ext (entries_foldl_insert t.entries empty t.distinct)

theorem eq_or_mem_of_mem_put {key : String} {value : α} {entries : List (String × α)}
    {e : String × α} (h : e ∈ put key value entries) : e = (key, value) ∨ e ∈ entries := by
  induction entries with
  | nil => exact .inl (List.mem_singleton.1 h)
  | cons head rest ih =>
    obtain ⟨k, v⟩ := head
    rw [put] at h
    split at h
    · exact (List.mem_cons.1 h).imp_right (List.mem_cons_of_mem _)
    · rcases List.mem_cons.1 h with rfl | h
      · exact .inr List.mem_cons_self
      · exact (ih h).imp_right (List.mem_cons_of_mem _)

theorem mem_of_mem_ofList {entries : List (String × α)} {e : String × α}
    (h : e ∈ (ofList entries).entries) : e ∈ entries :=
  have hstep : ∀ (t : Ordered α) (e' e : String × α), e ∈ (t.insert e'.1 e'.2).entries →
      e = e' ∨ e ∈ t.entries := fun _ _ _ => eq_or_mem_of_mem_put
  (mem_of_mem_foldl (fun (t : Ordered α) e => e ∈ t.entries) hstep h).resolve_right
    List.not_mem_nil

end Ordered
end PackageHandling
