import PackageHandling.Readiness
import PackageHandling.Proofs.Handle.Calls
import PackageHandling.Proofs.Plan.InStep

/-!
# A journal of the handles of a run

Notes name a handle by its accessor, and a run may make several handles of one accessor.  A worker
can be run beside a journal in which each handle has a number of its own: it is written down which
operations are asked of it, and which of these pass.  What may be written down next is limited by
what stands there already, so that a journal says of each of its entries what has gone before it.
-/

namespace PackageHandling

open Plan

variable {β ε α α' γ γ' : Type}

/-- An operation is asked of a handle, or one that was asked has passed.  Handles are numbered in
the order in which they are asked for. -/
inductive Entry
  | asked (handle : Nat) (accessorId : String) (operation : Operation)
  | passed (handle : Nat) (operation : Operation)
  deriving DecidableEq

namespace Entry

def call? : Entry → Option (String × Operation)
  | asked _ id o => some (id, o)
  | passed .. => none

def made? : Entry → Option Nat
  | asked n _ .create => some n
  | _ => none

def ofAnswer (n : Nat) (o : Operation) : Except ε α → List Entry
  | .ok _ => [passed n o]
  | .error _ => []

@[simp] theorem call?_ofAnswer (n : Nat) (o : Operation) (a : Except ε α) :
    (ofAnswer n o a).filterMap call? = [] := by
  cases a <;> rfl

end Entry

abbrev Journal := List Entry

/-! ### Handles that write a journal -/

/-- An operation of the handle with this number: it is written down that it is asked, and at its end
whether it has passed. -/
def Handle.watch (n : Nat) (id : String) (o : Operation) (p : Backend β (Except ε α)) :
    Backend (β × Journal) (Except ε α) :=
  .look fun t => .set (t.1, t.2 ++ [.asked n id o]) (p.recorded (Entry.ofAnswer n o))

def Handle.watchCheck (n : Nat) (id : String) (o : Operation) (check : β → Check × β)
    (t : β × Journal) : Check × (β × Journal) :=
  ((check t.1).1, (check t.1).2,
    t.2 ++ [.asked n id o] ++ Entry.ofAnswer n o (check t.1).1)

def Handle.watched (n : Nat) (h : Handle β) : Handle (β × Journal) where
  accessType := h.accessType
  accessorId := h.accessorId
  basicCheck := watchCheck n h.accessorId .checkBasic h.basicCheck
  readCheck := watchCheck n h.accessorId .checkRead h.readCheck
  writeCheck := watchCheck n h.accessorId .checkWrite h.writeCheck
  packageReadCheck := watch n h.accessorId .checkPackageRead h.packageReadCheck
  probe := watch n h.accessorId .probe h.probe
  containerWriteCheck := watch n h.accessorId .checkContainerWrite h.containerWriteCheck
  actualVersion := watch n h.accessorId .actualVersion h.actualVersion
  remove reason := watch n h.accessorId .removePackage (h.remove reason)
  fetch := watch n h.accessorId .fetchMetadata h.fetch
  update record := watch n h.accessorId .updateMetadata (h.update record)
  forget := watch n h.accessorId .removeMetadata h.forget

def Journal.count (j : Journal) : Nat := (j.filterMap Entry.made?).length

def Factory.watched (f : Factory β) : Factory (β × Journal) where
  supports := f.supports
  create b t := ((f.create b t.1).1.map (Handle.watched (Journal.count t.2)), (f.create b t.1).2,
    t.2 ++ [.asked (Journal.count t.2) b.accessorId .create])

def Registry.watched (r : Registry β) : Registry (β × Journal) where
  registration? kind := (r.registration? kind).map fun entry =>
    ⟨entry.accessType, entry.factory.watched, entry.cost⟩

def Worker.watched (w : Worker β) : Worker (β × Journal) where
  id := w.id
  location := w.location
  config := w.config
  registry := w.registry.watched

def Selection.watched (n : Nat) (source : Selection β) : Selection (β × Journal) :=
  ⟨source.pair, source.handle.watched n⟩

/-! ### What may be written down -/

namespace Journal

/-- An operation of a handle has been asked and has passed. -/
def Passed (j : Journal) (n : Nat) (id : String) (o : Operation) : Prop :=
  .asked n id o ∈ j ∧ .passed n o ∈ j

theorem Passed.grow {j j' : Journal} {n : Nat} {id : String} {o : Operation}
    (h : Passed j n id o) (hgrown : j <+: j') : Passed j' n id o :=
  ⟨hgrown.subset h.1, hgrown.subset h.2⟩

def gates : List Operation := [.checkBasic, .checkRead, .checkPackageRead]

def Open (j : Journal) (n : Nat) (id : String) : Prop := ∀ o ∈ gates, Passed j n id o

theorem Open.grow {j j' : Journal} {n : Nat} {id : String} (h : Open j n id)
    (hgrown : j <+: j') : Open j' n id := fun o ho => (h o ho).grow hgrown

/-- What may come next: the version is read only of a handle whose checks have passed, and only the
handles allowed are probed. -/
inductive Next (probing : Nat → Prop) (j : Journal) : Entry → Prop
  | made (id : String) : Next probing j (.asked (count j) id .create)
  | asked {n : Nat} {id : String} {o : Operation} (known : o ≠ .create)
    (gated : o = .actualVersion → Open j n id) (probed : o = .probe → probing n) :
    Next probing j (.asked n id o)
  | passed (n : Nat) (o : Operation) : Next probing j (.passed n o)

inductive Sound (probing : Nat → Prop) : Journal → Prop
  | nil : Sound probing []
  | snoc {j : Journal} {e : Entry} (before : Sound probing j) (next : Next probing j e) :
    Sound probing (j ++ [e])

variable {probing probing' : Nat → Prop} {j j' : Journal}

/-- Each entry came next when it was written down. -/
theorem Sound.next {before after : Journal} {e : Entry}
    (h : Sound probing (before ++ e :: after)) : Next probing before e := by
  generalize hj : before ++ e :: after = j at h
  -- the entry is the last one, or it stands in the journal before the last one
  induction h generalizing after with
  | nil => cases List.append_eq_nil_iff.1 hj |>.2
  | @snoc j last hsound hnext ih =>
    rcases after.eq_nil_or_concat with rfl | ⟨after, last', rfl⟩
    · obtain ⟨rfl, hlast⟩ := List.append_inj' hj rfl
      obtain rfl := List.head_eq_of_cons_eq hlast
      exact hnext
    · rw [List.concat_eq_append, ← List.cons_append, ← List.append_assoc] at hj
      exact ih (List.append_inj' hj rfl).1

/-- The version is read of no handle before its checks have passed. -/
theorem Sound.gated {before after : Journal} {n : Nat} {id : String}
    (h : Sound probing (before ++ .asked n id .actualVersion :: after)) : Open before n id := by
  cases h.next with
  | asked known gated probed => exact gated rfl

theorem Sound.probed {n : Nat} {id : String} (h : Sound probing j)
    (hmem : .asked n id .probe ∈ j) : probing n := by
  obtain ⟨before, after, rfl⟩ := List.append_of_mem hmem
  cases h.next with
  | asked known gated probed => exact probed rfl

theorem Sound.mono (h : Sound probing j) (hprobing : ∀ n, probing n → probing' n) :
    Sound probing' j := by
  induction h with
  | nil => exact .nil
  | snoc before next ih =>
    refine ih.snoc ?_
    cases next with
    | made id => exact .made id
    | asked known gated probed => exact .asked known gated fun ho => hprobing _ (probed ho)
    | passed n o => exact .passed n o

theorem made_snoc {e : Entry} (h : e.made? = none) :
    (j ++ [e]).filterMap Entry.made? = j.filterMap Entry.made? := by
  rw [List.filterMap_append, List.filterMap_cons_none h]
  exact List.append_nil _

theorem Sound.numbered (h : Sound probing j) :
    j.filterMap Entry.made? = List.range (count j) := by
  induction h with
  | nil => rfl
  | @snoc j e before next ih =>
    cases next with
    | made id =>
      have hcount : count (j ++ [.asked (count j) id .create]) = count j + 1 := by
        simp [count, Entry.made?]
      rw [hcount, List.range_succ, List.filterMap_append, ih]
      rfl
    | @asked n id o known gated probed =>
      have hmade : Entry.made? (.asked n id o) = none := by
        cases o with
        | create => exact absurd rfl known
        | _ => rfl
      rw [count, made_snoc hmade]
      exact ih
    | passed n o =>
      rw [count, made_snoc rfl]
      exact ih

def Tells (j : Journal) (l : List Note) : Prop :=
  j.filterMap Entry.call? = l.filterMap Note.operation?

namespace Tells

variable {l : List Note}

theorem ask (h : Tells j l) (n : Nat) (id : String) (o : Operation) :
    Tells (j ++ [.asked n id o]) (l ++ [.called id o]) := by
  have hsame : j.filterMap Entry.call? = l.filterMap Note.operation? := h
  rw [Tells, List.filterMap_append, List.filterMap_append, hsame]
  rfl

theorem answer (h : Tells j l) (n : Nat) (o : Operation) (a : Except ε α) :
    Tells (j ++ Entry.ofAnswer n o a) l := by
  rw [Tells, List.filterMap_append, Entry.call?_ofAnswer, List.append_nil]
  exact h

theorem skip (h : Tells j l) {n : Note} (hn : n.operation? = none) : Tells j (l ++ [n]) := by
  rw [Tells, List.filterMap_append, List.filterMap_cons_none hn]
  exact h.trans (List.append_nil _).symm

end Tells
end Journal

/-! ### Courses beside a journal -/

/-- The journal is sound, only grows, and tells of the calls that are noted; the rest of the state
is that of the other course. -/
structure Kept (probing : Nat → Prop) (j : Journal) (t : β × Journal) (s : β) (l : List Note) :
    Prop where
  state : t.1 = s
  grown : j <+: t.2
  sound : Journal.Sound probing t.2
  tells : Journal.Tells t.2 l

theorem Kept.mono {probing probing' : Nat → Prop} {j : Journal} {t : β × Journal} {s : β}
    {l : List Note} (h : Kept probing j t s l) (hprobing : ∀ n, probing n → probing' n) :
    Kept probing' j t s l :=
  ⟨h.state, h.grown, h.sound.mono hprobing, h.tells⟩

/-- From a sound journal on, a plan keeps in step with another one and keeps the journal; the
condition is on what it comes to and on the journal that it leaves. -/
def Journaled (probing : Nat → Prop) (j : Journal) (reached : α' → α → Journal → Prop)
    (p' : Plan (β × Journal) Note α') (p : Plan β Note α) : Prop :=
  ∀ s l, Kept probing j (s, j) s l →
    InStep (Kept probing j) (fun a' a t s l => Kept probing j t s l ∧ reached a' a t.2) p' p (s, j)
      s l

namespace Journaled

variable {probing : Nat → Prop} {j j' : Journal}
variable {reached reached' : α' → α → Journal → Prop}
variable {p' : Plan (β × Journal) Note α'} {p : Plan β Note α}

theorem done {a' : α'} {a : α} (h : reached a' a j) :
    Journaled (β := β) probing j reached (.done a') (.done a) :=
  fun _ _ hkept => .done ⟨hkept, h⟩

theorem mono (h : Journaled probing j reached p' p)
    (himp : ∀ a' a j', j <+: j' → reached a' a j' → reached' a' a j') :
    Journaled probing j reached' p' p := by
  intro s l hkept
  refine (h s l hkept).mono (fun _ _ _ hheld => hheld) fun a' a t s l hmeets => ?_
  exact ⟨hmeets.1, himp a' a t.2 hmeets.1.grown hmeets.2⟩

theorem bind {after : γ' → γ → Journal → Prop} {k' : α' → Plan (β × Journal) Note γ'}
    {k : α → Plan β Note γ} (h : Journaled probing j reached p' p)
    (hk : ∀ a' a j', j <+: j' → reached a' a j' → Journaled probing j' after (k' a') (k a)) :
    Journaled probing j after (p'.bind k') (p.bind k) := by
  intro s l hkept
  refine (h s l hkept).bind ?_
  rintro a' a ⟨_, j'⟩ s l ⟨⟨rfl, hgrown, hsound, htells⟩, hreached⟩
  have hrest := hk a' a j' hgrown hreached _ l ⟨rfl, List.prefix_refl j', hsound, htells⟩
  have hback : ∀ {t s l}, Kept (β := β) probing j' t s l → Kept probing j t s l :=
    fun hheld => ⟨hheld.state, hgrown.trans hheld.grown, hheld.sound, hheld.tells⟩
  exact hrest.mono (fun _ _ _ hheld => hback hheld) fun _ _ _ _ _ hmeets =>
    ⟨hback hmeets.1, hmeets.2⟩

theorem note {n : Note} (hn : n.operation? = none) (h : Journaled probing j reached p' p) :
    Journaled probing j reached (.note n p') (.note n p) := by
  intro s l hkept
  exact .note n (h s _ ⟨rfl, hkept.grown, hkept.sound, hkept.tells.skip hn⟩)

theorem wait (ms : Nat) (h : Journaled probing j reached p' p) :
    Journaled probing j reached (.wait ms p') (.wait ms p) :=
  fun s l hkept => .wait ms hkept (h s l hkept)

theorem within (h : Journaled probing j reached p' p) (budget : Nat) :
    Journaled probing j (fun a' a j' => Option.Rel (fun a' a => reached a' a j') a' a)
      (p'.within budget) (p.within budget) := by
  intro s l hkept
  refine ((h s l hkept).within budget).mono (fun _ _ _ hheld => hheld) ?_
  intro a' a t s l hwithin
  cases hwithin with
  | answered meets => exact ⟨meets.1, .some meets.2⟩
  | cutOff now => exact ⟨now, .none⟩

/-- From any moment at which the journal is kept, it goes on being kept. -/
theorem run {t : β × Journal} {s : β} {l : List Note} (hkept : Kept probing j t s l)
    (h : Journaled probing t.2 reached p' p) :
    (p'.run t).elapsed = (p.run s).elapsed ∧ (p'.run t).notes = (p.run s).notes ∧
      Kept probing j (p'.run t).state (p.run s).state (l ++ (p.run s).notes) ∧
      reached (p'.run t).answer (p.run s).answer (p'.run t).state.2 := by
  obtain ⟨_, j'⟩ := t
  obtain ⟨rfl, hgrown, hsound, htells⟩ := hkept
  obtain ⟨helapsed, hnotes, hend, hreached⟩ :=
    (h _ l ⟨rfl, List.prefix_refl j', hsound, htells⟩).run
  exact ⟨helapsed, hnotes, ⟨hend.state, hgrown.trans hend.grown, hend.sound, hend.tells⟩,
    hreached⟩

end Journaled

namespace Handle

variable {probing : Nat → Prop} {j : Journal} {n : Nat} {o : Operation}

theorem passed_ofAnswer (j : Journal) (n : Nat) (id : String) (o : Operation) {a : Except ε α}
    (h : a.toBool = true) :
    Journal.Passed (j ++ [.asked n id o] ++ Entry.ofAnswer n o a) n id o := by
  cases a with
  | error e => cases h
  | ok a => exact ⟨by simp, by simp [Entry.ofAnswer]⟩

theorem kept_ofAnswer {id : String} {s : β} {l : List Note}
    (hsound : Journal.Sound probing (j ++ [Entry.asked n id o]))
    (htells : Journal.Tells (j ++ [Entry.asked n id o]) l) (a : Except ε α) :
    Kept probing j (s, j ++ [.asked n id o] ++ Entry.ofAnswer n o a) s l := by
  refine ⟨rfl, ?_, ?_, htells.answer n o a⟩
  · rw [List.append_assoc]
    exact List.prefix_append ..
  · cases a with
    | error e => simpa only [Entry.ofAnswer, List.append_nil] using hsound
    | ok a => exact hsound.snoc (.passed n o)

/-- An operation is written down when it is asked, and when it passes. -/
theorem call_journaled (h : Handle β) (p : Backend β (Except ε α))
    (hnext : Journal.Next probing j (.asked n h.accessorId o)) :
    Journaled probing j
      (fun a' a j' => a' = a ∧ (a.toBool = true → Journal.Passed j' n h.accessorId o))
      ((h.watched n).call o (watch n h.accessorId o p)) (h.call o p) := by
  intro s l hkept
  let asked : Journal := j ++ [.asked n h.accessorId o]
  have hsound : Journal.Sound probing asked := hkept.sound.snoc hnext
  have htells : Journal.Tells asked (l ++ [.called h.accessorId o]) := hkept.tells.ask ..
  have hheld : ∀ (s : β) l, Journal.Tells asked l → Kept probing j (s, asked) s l :=
    fun s l htells => ⟨rfl, List.prefix_append .., hsound, htells⟩
  have hrun := InStep.beside Note.remarked (fun l text h => h.skip rfl) hheld p htells (s := s)
  have hend : InStep (Kept probing j) (fun a' a t s l => Kept probing j t s l ∧ a' = a ∧
      (a.toBool = true → Journal.Passed t.2 n h.accessorId o))
      ((p.mapNotes .remarked).recorded (Entry.ofAnswer n o)) ((p.mapNotes .remarked).bind .done)
      (s, asked) s (l ++ [.called h.accessorId o]) := by
    rw [Plan.recorded]
    refine hrun.bind ?_
    rintro _ a _ s l ⟨rfl, rfl, htells⟩
    exact .look (.set (.done ⟨kept_ofAnswer hsound htells _, rfl, passed_ofAnswer j n _ o⟩))
  rw [Plan.bind_done] at hend
  refine .note _ (.look (.set ?_))
  rw [Plan.mapNotes_recorded]
  exact hend

theorem callCheck_journaled (h : Handle β) (check : β → Check × β)
    (hnext : Journal.Next probing j (.asked n h.accessorId o)) :
    Journaled probing j
      (fun a' a j' => a' = a ∧ (a.toBool = true → Journal.Passed j' n h.accessorId o))
      ((h.watched n).call o (.atomically (watchCheck n h.accessorId o check)))
      (h.call o (.atomically check)) := by
  intro s l hkept
  have hend := kept_ofAnswer (s := (check s).2) (hkept.sound.snoc hnext)
    (hkept.tells.ask n h.accessorId o) (check s).1
  exact .note _ (.look (.lookToo (.set (.setToo (.done
    ⟨hend, rfl, passed_ofAnswer j n _ o⟩)))))

end Handle
end PackageHandling
