import PackageHandling.Proofs.Lookup.Trace

/-!
# Reports of courses

What can be seen of a course but for its log: its answer, the time it takes, the state it leaves,
and the handle operations that it calls, each with the time at which it is called.  Reports are
put together like the plans that they are of.
-/

namespace PackageHandling

/-- Where some case applies, and every case that applies gives the result, the cases say all. -/
theorem case_iff_eq {α : Type} {Case : α → Prop} {result : α} (applies : ∃ a, Case a)
    (gives : ∀ a, Case a → a = result) (a : α) : Case a ↔ a = result := by
  constructor
  · exact gives a
  · rintro rfl
    obtain ⟨b, hcase⟩ := applies
    rw [← gives b hcase]
    exact hcase

structure HandleCall where
  time : Nat
  accessorId : String
  operation : Operation
  deriving DecidableEq

namespace HandleCall

def later (ms : Nat) (c : HandleCall) : HandleCall := { c with time := ms + c.time }

theorem later_later (ms ms' : Nat) (c : HandleCall) :
    later ms (later ms' c) = later (ms + ms') c := by
  simp [later, Nat.add_assoc]

def name (c : HandleCall) : String × Operation := (c.accessorId, c.operation)

def ofNote? : Note → Option HandleCall
  | .called id o => some ⟨0, id, o⟩
  | _ => none

end HandleCall

namespace Plan

variable {σ α γ : Type}

def timedCalls : Plan σ Note α → σ → List HandleCall
  | done _, _ => []
  | look k, s => (k s).timedCalls s
  | set s p, _ => p.timedCalls s
  | note n p, s => (HandleCall.ofNote? n).toList ++ p.timedCalls s
  | wait ms p, s => (p.timedCalls s).map (HandleCall.later ms)

theorem timedCalls_bind (p : Plan σ Note α) (f : α → Plan σ Note γ) (s : σ) :
    (p.bind f).timedCalls s =
      let first := p.run s
      p.timedCalls s ++
        ((f first.answer).timedCalls first.state).map (HandleCall.later first.elapsed) := by
  induction p generalizing s with
  | done a =>
    have hnow : HandleCall.later 0 = id := by funext c; simp [HandleCall.later]
    simp only [Plan.bind, timedCalls, run, hnow, List.map_id, List.nil_append]
  | look k ih => exact ih s s
  | set t p ih => exact ih t
  | note n p ih => simp only [Plan.bind, timedCalls, run, ih, List.append_assoc]
  | wait ms p ih =>
    have hlater : HandleCall.later ms ∘ HandleCall.later (p.run s).elapsed =
        HandleCall.later (ms + (p.run s).elapsed) := funext (HandleCall.later_later ms _)
    simp only [Plan.bind, timedCalls, run, ih, List.map_append, List.map_map, hlater]

structure Report (σ α : Type) where
  answer : α
  elapsed : Nat
  state : σ
  calls : List HandleCall

def report (p : Plan σ Note α) (s : σ) : Report σ α :=
  ⟨(p.run s).answer, (p.run s).elapsed, (p.run s).state, p.timedCalls s⟩

@[simp] theorem report_done (a : α) (s : σ) :
    (done a : Plan σ Note α).report s = ⟨a, 0, s, []⟩ := rfl

theorem report_bind (p : Plan σ Note α) (f : α → Plan σ Note γ) (s : σ) :
    (p.bind f).report s =
      let first := p.report s
      let second := (f first.answer).report first.state
      ⟨second.answer, first.elapsed + second.elapsed, second.state,
        first.calls ++ second.calls.map (HandleCall.later first.elapsed)⟩ := by
  simp only [report, run_bind, timedCalls_bind]

@[simp] theorem report_logged (e : LogEvent) (p : Plan σ Note α) (s : σ) :
    (note (.logged e) p).report s = p.report s := rfl

@[simp] theorem report_wait (ms : Nat) (p : Plan σ Note α) (s : σ) :
    (wait ms p).report s =
      let r := p.report s
      ⟨r.answer, ms + r.elapsed, r.state, r.calls.map (HandleCall.later ms)⟩ := rfl

end Plan

namespace Handle

variable {β α : Type}

theorem timedCalls_remarks (p : Backend β α) (s : β) :
    (p.mapNotes Note.remarked).timedCalls s = [] := by
  induction p generalizing s with
  | done a => rfl
  | look k ih => exact ih s s
  | set t p ih => exact ih t
  | note n p ih => exact ih s
  | wait ms p ih =>
    rw [Plan.mapNotes, Plan.timedCalls, ih]
    rfl

theorem report_call (h : Handle β) (o : Operation) (p : Backend β α) (s : β) :
    (h.call o p).report s =
      ⟨(p.run s).answer, (p.run s).elapsed, (p.run s).state, [⟨0, h.accessorId, o⟩]⟩ := by
  have hcalls : (h.call o p).timedCalls s = [⟨0, h.accessorId, o⟩] := by
    rw [Handle.call, Plan.timedCalls, timedCalls_remarks]
    rfl
  rw [Plan.report, h.run_call, hcalls]

theorem timedCalls_call_within (h : Handle β) (o : Operation) (p : Backend β α) (budget : Nat)
    (s : β) : ((h.call o p).within budget).timedCalls s = [⟨0, h.accessorId, o⟩] := by
  have hwithin : (h.call o p).within budget = h.call o (p.within budget) :=
    congrArg (Plan.note _) (Plan.within_mapNotes _ p budget)
  rw [hwithin]
  exact congrArg Plan.Report.calls (h.report_call o (p.within budget) s)

theorem report_call_of_le (h : Handle β) (o : Operation) {p : Backend β α} {budget : Nat} {s : β}
    (hle : (p.run s).elapsed ≤ budget) :
    ((h.call o p).within budget).report s = ⟨some (p.run s).answer, (p.run s).elapsed,
      (p.run s).state, [⟨0, h.accessorId, o⟩]⟩ := by
  have hcall := h.run_call o p s
  have hover : ((h.call o p).run s).elapsed ≤ budget := by rw [hcall]; exact hle
  rw [Plan.report, Plan.within_of_le hover, hcall, h.timedCalls_call_within]

/-- A call that would take longer is over when its budget is. -/
theorem report_call_of_gt (h : Handle β) (o : Operation) {p : Backend β α} {budget : Nat} {s : β}
    (hlong : ¬ (p.run s).elapsed ≤ budget) :
    ((h.call o p).within budget).report s = ⟨none, budget, p.abandonedAt budget s,
      [⟨0, h.accessorId, o⟩]⟩ := by
  have hcall := h.run_call o p s
  have hover : ¬ ((h.call o p).run s).elapsed ≤ budget := by rw [hcall]; exact hlong
  obtain ⟨hanswer, helapsed, hstate⟩ := Plan.within_of_gt hover
  rw [Plan.report, hanswer, helapsed, hstate, h.timedCalls_call_within,
    Reference.abandonedAt_call]

theorem report_limited_of_le (h : Handle β) (o : Operation) (label : String) {p : Backend β α}
    {budget : Nat} {s : β} (hle : (p.run s).elapsed ≤ budget) :
    ((h.call o p).limited budget label).report s = ⟨.ok (p.run s).answer, (p.run s).elapsed,
      (p.run s).state, [⟨0, h.accessorId, o⟩]⟩ := by
  have hcall := h.report_call_of_le o hle
  rw [Plan.limited, Plan.bind_eq, Plan.report_bind, hcall]
  rfl

theorem report_limited_of_gt (h : Handle β) (o : Operation) (label : String) {p : Backend β α}
    {budget : Nat} {s : β} (hlong : ¬ (p.run s).elapsed ≤ budget) :
    ((h.call o p).limited budget label).report s = ⟨.error (.elapsed label budget), budget,
      p.abandonedAt budget s, [⟨0, h.accessorId, o⟩]⟩ := by
  have hcall := h.report_call_of_gt o hlong
  rw [Plan.limited, Plan.bind_eq, Plan.report_bind, hcall]
  rfl

end Handle
end PackageHandling
