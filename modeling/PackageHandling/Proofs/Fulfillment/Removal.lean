import PackageHandling.Proofs.Fulfillment.Record

/-!
# A target whose package was removed

A check that removes a stale package leaves the record beside it, and the next check goes by that
record again.  So a target is found fulfilled whenever the record that was stored last names the
source, also when there is no package any more: the main statement is `fulfilled_iff_last_stored`.
-/

namespace PackageHandling
namespace Handle

variable {β : Type}

/-- The records of a storage that keeps them apart from the packages: neither a removal nor an
update that fails changes them. -/
structure KeepsApart (h : Handle β) (record : β → Option Json) : Prop extends h.Keeps record where
  removed : ∀ reason s, record ((h.remove reason).run s).state = record s
  refused : ∀ r s f, ((h.update r).run s).answer = .error f →
    record ((h.update r).run s).state = record s

inductive Turn
  | poll (sourceHash : String) (wasFulfilled : Bool) | store (record : Json)

variable (h : Handle β) (kind : RecordKind)

namespace Turn

def run : Turn → β → β
  | poll sourceHash wasFulfilled, s => ((h.checkFulfilled kind sourceHash wasFulfilled).run s).state
  | store record, s => ((h.updateMetadata record).run s).state

def stored? : Turn → β → Option Json
  | poll .., _ => none
  | store record, s =>
    if ((h.updateMetadata record).run s).answer.toBool then some record else none

end Turn

/-- The state after a history of turns. -/
def after (turns : List Turn) (s : β) : β := turns.foldl (fun s t => t.run h kind s) s

def lastStored : List Turn → β → Option Json
  | [], _ => none
  | t :: turns, s => (lastStored turns (t.run h kind s)).or (t.stored? h s)

variable {h kind} {record : β → Option Json}

theorem KeepsApart.dropStale (hkeeps : h.KeepsApart record) (s : β) :
    record (h.dropStale.run s).state = record s := by
  have hremoved := hkeeps.removed "Target no longer matches source" s
  simp only [Handle.dropStale, Plan.bind_eq, Plan.run_bind, Plan.say, Plan.run, removePackage,
    run_call]
  cases ((h.remove "Target no longer matches source").run s).answer <;> exact hremoved

theorem KeepsApart.followUp (hkeeps : h.KeepsApart record) (sourceHash : String)
    (wasFulfilled : Bool) (read : Except Failure (Option kind.Record)) (s : β) :
    record ((h.followUp kind sourceHash wasFulfilled read).run s).state = record s := by
  cases read with
  | error f => rfl
  | ok found =>
    rw [Handle.followUp]
    split
    · exact hkeeps.dropStale s
    · rfl

/-- A turn leaves the record that it stores, or else the one that was there. -/
theorem KeepsApart.run (hkeeps : h.KeepsApart record) (t : Turn) (s : β) :
    record (t.run h kind s) = (t.stored? h s).or (record s) := by
  cases t with
  | poll sourceHash wasFulfilled =>
    rw [Turn.run, run_checkFulfilled, Turn.stored?, Option.none_or]
    refine (hkeeps.followUp ..).trans ?_
    rw [fetchMetadata, run_call]
    exact hkeeps.left s
  | store r =>
    rw [Turn.run, Turn.stored?, updateMetadata, run_call]
    cases hanswer : ((h.update r).run s).answer with
    | ok u => simpa [Except.toBool] using hkeeps.stored r s hanswer
    | error f => simpa [Except.toBool] using hkeeps.refused r s f hanswer

theorem KeepsApart.after (hkeeps : h.KeepsApart record) (turns : List Turn) (s : β) :
    record (after h kind turns s) = (lastStored h kind turns s).or (record s) := by
  induction turns generalizing s with
  | nil => rfl
  | cons t turns ih =>
    rw [Handle.after, List.foldl_cons, lastStored, Option.or_assoc, ← hkeeps.run]
    exact ih (t.run h kind s)

def answerTo (kind : RecordKind) (accessorId sourceHash : String) (record : Option Json) :
    Except Failure Fulfillment :=
  (readRecord kind.decode (.ok record)).map (judge kind accessorId sourceHash)

theorem Keeps.answer (hkeeps : h.Keeps record) (sourceHash : String) (wasFulfilled : Bool) (s : β) :
    ((h.checkFulfilled kind sourceHash wasFulfilled).run s).answer =
      answerTo kind h.accessorId sourceHash (record s) := by
  rw [run_checkFulfilled, answerTo]
  simp only [hkeeps.fetchMetadata]

theorem answerTo_eq_ok {accessorId sourceHash : String} {record : Option Json} :
    answerTo kind accessorId sourceHash record = .ok (.ok ()) ↔
      ∃ r m, record = some r ∧ kind.decode r = .ok m ∧ kind.recordedHash m = some sourceHash := by
  cases record with
  | none => simp [answerTo, readRecord, judge, staleness, Except.map]
  | some r =>
    cases hdecode : kind.decode r with
    | error m => simp [answerTo, readRecord, hdecode, Except.map]
    | ok m => simp [answerTo, readRecord, hdecode, Except.map, judge_eq_ok]

/-- After any history of checks and updates a target is fulfilled if and only if the record that was
stored last names the source, also if a check has removed the package since. -/
theorem fulfilled_iff_last_stored (hkeeps : h.KeepsApart record) (turns : List Turn) (s : β)
    (sourceHash : String) (wasFulfilled : Bool) :
    let check (t : β) := ((h.checkFulfilled kind sourceHash wasFulfilled).run t).answer
    let t := after h kind turns s
    (check t = .ok (.ok ()) ↔
      ∃ r m, (lastStored h kind turns s).or (record s) = some r ∧ kind.decode r = .ok m ∧
        kind.recordedHash m = some sourceHash) ∧
      ∀ later, lastStored h kind later t = none → check (after h kind later t) = check t := by
  intro check t
  have hcheck : ∀ u, check u = answerTo kind h.accessorId sourceHash (record u) :=
    hkeeps.toKeeps.answer sourceHash wasFulfilled
  refine ⟨?_, fun later hnone => ?_⟩
  · rw [hcheck, hkeeps.after, answerTo_eq_ok]
  · rw [hcheck, hcheck, hkeeps.after, hnone, Option.none_or]

end Handle

namespace Shelf

theorem handle_keepsApart : handle.KeepsApart Shelf.record where
  toKeeps := handle_keeps
  removed _ _ := rfl
  refused _ _ _ h := by cases h

def recordOf (hash : String) : Json := .obj [("sourceVersionHash", .str hash)]

/-- The source moves on, the package is removed, and the source goes back. -/
theorem fulfilled_without_package :
    let s : Shelf := ⟨true, some (recordOf "a")⟩
    let moved := (handle.checkFulfilled .versionMetadata "b" true).run s
    let back := (handle.checkFulfilled .versionMetadata "a" true).run moved.state
    moved.calls = [("shelf", .fetchMetadata), ("shelf", .removePackage)] ∧
      ((handle.remove "Target no longer matches source").run s).answer = .ok () ∧
      moved.state.package = false ∧ back.state.package = false ∧
      back.answer = .ok (.ok ()) :=
  ⟨rfl, rfl, rfl, rfl, rfl⟩

end Shelf

namespace Handle

/-- A record, a check that removes the package, and one that does not. -/
theorem fulfilled_iff_last_stored_on_shelf :
    let turns : List Turn := [.store (Shelf.recordOf "a"), .poll "b" true, .poll "c" false]
    let check (sourceHash : String) := ((Shelf.handle.checkFulfilled .versionMetadata sourceHash
      true).run (after Shelf.handle .versionMetadata turns ⟨true, none⟩)).answer
    check "a" = .ok (.ok ()) ∧ check "b" ≠ .ok (.ok ()) := by
  intro turns check
  have ha : check "a" = .ok (.ok ()) ↔ _ :=
    (fulfilled_iff_last_stored Shelf.handle_keepsApart turns ⟨true, none⟩ "a" true).1
  have hb : check "b" = .ok (.ok ()) ↔ _ :=
    (fulfilled_iff_last_stored Shelf.handle_keepsApart turns ⟨true, none⟩ "b" true).1
  refine ⟨ha.2 ⟨Shelf.recordOf "a", ⟨"a", none⟩, rfl, rfl, rfl⟩, fun h => ?_⟩
  obtain ⟨r, m, hr, hm, hhash⟩ := hb.1 h
  obtain rfl : Shelf.recordOf "a" = r := Option.some.inj hr
  obtain rfl : (⟨"a", none⟩ : VersionMetadata) = m := Except.ok.inj hm
  exact absurd hhash (by decide)

end Handle
end PackageHandling
