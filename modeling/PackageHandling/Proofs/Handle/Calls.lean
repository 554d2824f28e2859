import PackageHandling.Handle

/-!
# Calls of handle operations

What a call of an operation comes to, and which operations of handles a course has called.
-/

namespace PackageHandling

def Note.operation? : Note → Option (String × Operation)
  | called id o => some (id, o)
  | _ => none

namespace Plan

variable {σ ν μ α : Type}

theorem run_mapNotes (f : ν → μ) (p : Plan σ ν α) (s : σ) :
    (p.mapNotes f).run s =
      ⟨(p.run s).answer, (p.run s).elapsed, (p.run s).state, (p.run s).notes.map f⟩ := by
  induction p generalizing s <;> simp_all [mapNotes, run]

def Course.calls (c : Course σ Note α) : List (String × Operation) :=
  c.notes.filterMap Note.operation?

theorem calls_bind {β : Type} (p : Plan σ Note α) (f : α → Plan σ Note β) (s : σ) :
    ((p.bind f).run s).calls =
      (p.run s).calls ++ ((f (p.run s).answer).run (p.run s).state).calls := by
  rw [run_bind]
  exact List.filterMap_append

theorem calls_bind_done {β : Type} (p : Plan σ Note α) {f : α → Plan σ Note β}
    (hf : ∀ a, ∃ b, f a = .done b) (s : σ) : ((p.bind f).run s).calls = (p.run s).calls := by
  obtain ⟨b, hb⟩ := hf (p.run s).answer
  rw [calls_bind, hb]
  exact List.append_nil _

end Plan

namespace Handle

variable {β α : Type}

/-- A call of an operation is over when the operation is, and leaves what the operation leaves. -/
theorem run_call (h : Handle β) (o : Operation) (p : Backend β α) (s : β) :
    (h.call o p).run s = ⟨(p.run s).answer, (p.run s).elapsed, (p.run s).state,
      .called h.accessorId o :: (p.run s).notes.map .remarked⟩ := by
  simp [Handle.call, Plan.run, Plan.run_mapNotes]

/-- What a backend remarks is no call. -/
theorem operations_called (id : String) (o : Operation) (remarks : List String) :
    (Note.called id o :: remarks.map .remarked).filterMap Note.operation? = [(id, o)] := by
  have hremarks : (remarks.map Note.remarked).filterMap Note.operation? = [] := by
    induction remarks with
    | nil => rfl
    | cons text remarks ih => exact ih
  exact congrArg _ hremarks

theorem calls_call (h : Handle β) (o : Operation) (p : Backend β α) (s : β) :
    ((h.call o p).run s).calls = [(h.accessorId, o)] := by
  rw [run_call]
  exact operations_called ..

end Handle
end PackageHandling
