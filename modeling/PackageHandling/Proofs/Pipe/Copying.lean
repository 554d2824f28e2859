import PackageHandling.Proofs.Pipe.Scene

/-!
# What a pipe copies

However source, target and cancels take turns, the target has a beginning of the stream, every chunk
that it has completely was announced, and a pipe that ends well has copied the whole stream: the
main statement is `run_copies`.
-/

namespace PackageHandling

namespace Pipe

variable {p : Pipe} {done : List (List UInt8)} {begun left : List UInt8} {count : Nat}

def totals (chunks : List (List UInt8)) : List Nat :=
  (List.range chunks.length).map fun i => (chunks.take (i + 1)).flatten.length

@[simp] theorem totals_snoc (chunks : List (List UInt8)) (c : List UInt8) :
    totals (chunks ++ [c]) = totals chunks ++ [(chunks ++ [c]).flatten.length] := by
  have hearlier : ∀ i ∈ List.range chunks.length,
      ((chunks ++ [c]).take (i + 1)).flatten.length = (chunks.take (i + 1)).flatten.length := by
    intro i hi
    rw [List.take_append_of_le_length (List.mem_range.1 hi)]
  simp only [totals, List.length_append, List.length_singleton, List.range_succ, List.map_append,
    List.map_congr_left hearlier, List.map_singleton]
  rw [List.take_of_length_le (by simp)]

@[simp] theorem length_totals (chunks : List (List UInt8)) :
    (totals chunks).length = chunks.length := by simp [totals]

theorem length_flatten_take_le (chunks : List (List UInt8)) {i j : Nat} (h : i ≤ j) :
    (chunks.take i).flatten.length ≤ (chunks.take j).flatten.length := by
  obtain ⟨rest, hrest⟩ := List.take_prefix_take_left (l := chunks) h
  simp [← hrest]

theorem length_flatten_take_lt {chunks : List (List UInt8)} (hchunks : ∀ c ∈ chunks, c ≠ [])
    {i : Nat} (hi : i < chunks.length) :
    (chunks.take i).flatten.length < (chunks.take (i + 1)).flatten.length := by
  have hpos : 0 < chunks[i].length := List.length_pos_iff.2 (hchunks _ (List.getElem_mem hi))
  rw [← List.take_append_getElem hi, List.flatten_append, List.length_append,
    List.flatten_singleton]
  omega

theorem totals_increasing {chunks : List (List UInt8)} (hchunks : ∀ c ∈ chunks, c ≠ []) :
    (totals chunks).Pairwise (· < ·) := by
  refine List.pairwise_map.2 (List.pairwise_lt_range.imp_of_mem fun hi hj hij => ?_)
  have hlt := length_flatten_take_lt hchunks (List.mem_range.1 hj)
  exact Nat.lt_of_le_of_lt (length_flatten_take_le chunks hij) hlt

theorem getLast_totals {chunks : List (List UInt8)} (h : 0 < chunks.flatten.length) :
    (totals chunks).getLast? = some chunks.flatten.length := by
  obtain rfl | ⟨chunks, c, rfl⟩ := chunks.eq_nil_or_concat
  · simp at h
  · simp

/-- The target has accepted these chunks and the beginning of the next one, and each of these chunks
was announced. -/
structure Copied (done : List (List UInt8)) (begun : List UInt8) (p : Pipe) : Prop where
  accepted : p.accepted = done.flatten ++ begun
  copied : p.copied = done.flatten.length
  progress : p.progress = totals done

theorem copied_join (sourceCancelled targetCancelled : Bool) :
    Copied [] [] (join sourceCancelled targetCancelled) := ⟨rfl, rfl, rfl⟩

theorem Copied.at_stage (h : Copied done begun p) (stage : PipeStage) :
    Copied done begun { p with stage } := ⟨h.accepted, h.copied, h.progress⟩

theorem Copied.accept_all (h : Copied done begun p) (hcount : left.length ≤ count) :
    Copied (done ++ [begun ++ left]) [] (p.accept left (begun ++ left).length count) := by
  have hcopied : p.copied + (begun ++ left).length = (done ++ [begun ++ left]).flatten.length := by
    simp [h.copied]
  refine ⟨?_, ?_, ?_⟩
  · simp [h.accepted, List.take_of_length_le hcount]
  · simp only [accept, if_pos hcount, hcopied]
  · simp only [accept, if_pos hcount, hcopied, h.progress, totals_snoc]

theorem Copied.accept_some (h : Copied done begun p) (hcount : ¬ left.length ≤ count)
    (length : Nat) : Copied done (begun ++ left.take count) (p.accept left length count) := by
  refine ⟨?_, ?_, ?_⟩
  · simp [h.accepted]
  · simp only [accept, if_neg hcount, h.copied]
  · simp only [accept, if_neg hcount, h.progress]

theorem Copied.accepted_all (h : Copied done [] p) : p.accepted = done.flatten := by
  rw [h.accepted, List.append_nil]

/-- A cancel will succeed: the handler is kept, or it has cancelled both streams. -/
def Armed (p : Pipe) : Prop :=
  p.scope.slot = .registered () ∨
    p.scope.slot = .fired ∧ p.sourceCancelled = true ∧ p.targetCancelled = true

theorem Armed.cancel (h : p.Armed) :
    (p.cancel.1 = .ok () ∧ p.cancel.2.sourceCancelled = true ∧
      p.cancel.2.targetCancelled = true ∧ p.cancel.2.scope.tripped = true) ∧
    p.cancel.2.Armed := by
  rcases h with hslot | ⟨hslot, hsource, htarget⟩
  · rw [Pipe.cancel, CancelScope.cancel_of_registered hslot]
    exact ⟨⟨rfl, rfl, rfl, rfl⟩, .inr ⟨rfl, rfl, rfl⟩⟩
  · rw [Pipe.cancel, CancelScope.cancel_of_fired hslot]
    exact ⟨⟨rfl, hsource, htarget, rfl⟩, .inr ⟨hslot, hsource, htarget⟩⟩

/-- Of a pipe, a cancel changes what has to do with cancels at most. -/
theorem cancel_frame (p : Pipe) : ∃ scope sourceCancelled targetCancelled,
    p.cancel.2 = { p with scope, sourceCancelled, targetCancelled } := by
  rw [cancel]
  split
  · exact ⟨p.scope, p.sourceCancelled, p.targetCancelled, rfl⟩
  · exact ⟨_, p.sourceCancelled, p.targetCancelled, rfl⟩
  · exact ⟨_, true, true, rfl⟩

end Pipe

namespace PipeScene

/-- What the target has of the chunks to come: nothing, or a beginning of the first one. -/
def Begins (begun : List UInt8) (more : List (List UInt8)) : Prop :=
  begun = [] ∨ ∃ left rest, left ≠ [] ∧ more = (begun ++ left) :: rest

/-- Where a scene stands, stage by stage. -/
inductive Stands (s : PipeSource) (t : PipeScene) : Prop
  | reading (done : List (List UInt8)) (stage : t.pipe.stage = .reading)
    (split : s.chunks = done ++ t.rest) (copied : t.pipe.Copied done [])
  | writing (done : List (List UInt8)) (begun left : List UInt8)
    (stage : t.pipe.stage = .writing left (begun ++ left).length) (more : left ≠ [])
    (split : s.chunks = done ++ (begun ++ left) :: t.rest) (copied : t.pipe.Copied done begun)
  | complete (stage : t.pipe.stage = .flushing ∨ t.pipe.stage = .closing ∨
      t.pipe.stage = .ended (.ok s.bytes.length))
    (ends : s.failure = none) (copied : t.pipe.Copied s.chunks [])
  | failed (done : List (List UInt8)) (begun : List UInt8) (more : List (List UInt8)) (f : Failure)
    (stage : t.pipe.stage = .ended (.error f)) (split : s.chunks = done ++ more)
    (begins : Begins begun more) (copied : t.pipe.Copied done begun)

variable {s : PipeSource} {t : PipeScene}

theorem Stands.copied (h : t.Stands s) : ∃ done begun more,
    s.chunks = done ++ more ∧ Begins begun more ∧ t.pipe.Copied done begun := by
  cases h with
  | reading done _ split copied => exact ⟨done, [], _, split, .inl rfl, copied⟩
  | writing done begun left _ more split copied =>
    exact ⟨done, begun, _, split, .inr ⟨left, t.rest, more, rfl⟩, copied⟩
  | complete _ _ copied => exact ⟨s.chunks, [], [], (List.append_nil _).symm, .inl rfl, copied⟩
  | failed done begun more _ _ split begins copied =>
    exact ⟨done, begun, more, split, begins, copied⟩

theorem Stands.of_reading (h : t.Stands s) (hstage : t.pipe.stage = .reading) :
    ∃ done, s.chunks = done ++ t.rest ∧ t.pipe.Copied done [] := by
  cases h with
  | reading done _ split copied => exact ⟨done, split, copied⟩
  | writing _ _ _ stage _ _ _ => simp [hstage] at stage
  | complete stage _ _ => simp [hstage] at stage
  | failed _ _ _ _ stage _ _ _ => simp [hstage] at stage

theorem Stands.of_writing (h : t.Stands s) {left : List UInt8} {length : Nat}
    (hstage : t.pipe.stage = .writing left length) :
    ∃ done begun, left ≠ [] ∧ length = (begun ++ left).length ∧
      s.chunks = done ++ (begun ++ left) :: t.rest ∧ t.pipe.Copied done begun := by
  cases h with
  | reading _ stage _ _ => simp [hstage] at stage
  | writing done begun kept stage more split copied =>
    obtain ⟨rfl, hlength⟩ : left = kept ∧ length = (begun ++ kept).length := by
      simpa [hstage] using stage
    exact ⟨done, begun, more, hlength, split, copied⟩
  | complete stage _ _ => simp [hstage] at stage
  | failed _ _ _ _ stage _ _ _ => simp [hstage] at stage

theorem Stands.of_complete (h : t.Stands s)
    (hstage : t.pipe.stage = .flushing ∨ t.pipe.stage = .closing) :
    s.failure = none ∧ t.pipe.Copied s.chunks [] := by
  cases h with
  | reading _ stage _ _ => simp [stage] at hstage
  | writing _ _ _ stage _ _ _ => simp [stage] at hstage
  | complete _ ends copied => exact ⟨ends, copied⟩
  | failed _ _ _ _ stage _ _ _ => simp [stage] at hstage

theorem Stands.of_ended (h : t.Stands s) {n : Nat} (hresult : t.pipe.result? = some (.ok n)) :
    s.failure = none ∧ n = s.bytes.length ∧ t.pipe.Copied s.chunks [] := by
  cases h with
  | reading _ stage _ _ => simp [Pipe.result?, stage] at hresult
  | writing _ _ _ stage _ _ _ => simp [Pipe.result?, stage] at hresult
  | complete stage ends copied =>
    rcases stage with stage | stage | stage <;> simp [Pipe.result?, stage] at hresult
    exact ⟨ends, hresult.symm, copied⟩
  | failed _ _ _ _ stage _ _ _ => simp [Pipe.result?, stage] at hresult

theorem stands_start (s : PipeSource) (sourceCancelled targetCancelled : Bool) :
    (start s sourceCancelled targetCancelled).Stands s :=
  .reading [] rfl rfl (Pipe.copied_join _ _)

theorem Stands.accept (h : t.Stands s) {left : List UInt8} {length : Nat}
    (hstage : t.pipe.stage = .writing left length) (count : Nat) :
    ({ t with pipe := t.pipe.accept left length count } : PipeScene).Stands s := by
  obtain ⟨done, begun, hmore, rfl, hsplit, hcopied⟩ := h.of_writing hstage
  by_cases hcount : left.length ≤ count
  · have hstage' : (t.pipe.accept left (begun ++ left).length count).stage = .reading := by
      rw [Pipe.accept, if_pos hcount]
    have hsplit' : s.chunks = (done ++ [begun ++ left]) ++ t.rest := by
      rw [hsplit, List.append_assoc, List.singleton_append]
    exact .reading _ hstage' hsplit' (hcopied.accept_all hcount)
  · have hwhole : begun ++ left.take count ++ left.drop count = begun ++ left := by
      rw [List.append_assoc, List.take_append_drop]
    have hstage' : (t.pipe.accept left (begun ++ left).length count).stage =
        .writing (left.drop count) (begun ++ left.take count ++ left.drop count).length := by
      rw [Pipe.accept, if_neg hcount, hwhole]
    have hmore' : left.drop count ≠ [] := by
      rw [ne_eq, List.drop_eq_nil_iff]
      exact hcount
    have hsplit' : s.chunks =
        done ++ (begun ++ left.take count ++ left.drop count) :: t.rest := by
      rw [hwhole, hsplit]
    exact .writing done _ _ hstage' hmore' hsplit' (hcopied.accept_some hcount _)

theorem Stands.moves {a : PipeAct} {u : PipeScene} (h : t.Stands s) (hmoves : t.Moves s a u) :
    u.Stands s := by
  cases hmoves with
  | stays _ => exact h
  | @chunk chunk rest stage more =>
    obtain ⟨done, hsplit, hcopied⟩ := h.of_reading stage
    have hchunk : chunk ≠ [] := s.nonempty chunk (by simp [hsplit, more])
    have hstage : (if chunk.isEmpty then .flushing else .writing chunk chunk.length) =
        PipeStage.writing chunk chunk.length := by simp [hchunk]
    exact .writing done [] chunk hstage hchunk (hsplit.trans (by rw [more]; rfl))
      (hcopied.at_stage _)
  | drained stage rest ends =>
    obtain ⟨done, hsplit, hcopied⟩ := h.of_reading stage
    obtain rfl : s.chunks = done := by rw [hsplit, rest, List.append_nil]
    exact .complete (.inl rfl) ends (hcopied.at_stage _)
  | accepted stage count => exact h.accept stage count
  | flushed stage =>
    obtain ⟨hends, hcopied⟩ := h.of_complete (.inl stage)
    exact .complete (.inr (.inl rfl)) hends (hcopied.at_stage _)
  | closed stage =>
    obtain ⟨hends, hcopied⟩ := h.of_complete (.inr stage)
    have hstage : (t.pipe.finish (.ok t.pipe.copied)).stage = .ended (.ok s.bytes.length) := by
      rw [hcopied.copied]
      rfl
    exact .complete (.inr (.inr hstage)) hends (hcopied.at_stage _)
  | failed _ f =>
    obtain ⟨done, begun, more, hsplit, hbegins, hcopied⟩ := h.copied
    exact .failed done begun more f rfl hsplit hbegins (hcopied.at_stage _)
  | cancelled =>
    obtain ⟨scope, sourceCancelled, targetCancelled, hcancel⟩ := t.pipe.cancel_frame
    rw [hcancel]
    cases h with
    | reading done stage split copied =>
      exact .reading done stage split ⟨copied.1, copied.2, copied.3⟩
    | writing done begun left stage more split copied =>
      exact .writing done begun left stage more split ⟨copied.1, copied.2, copied.3⟩
    | complete stage ends copied => exact .complete stage ends ⟨copied.1, copied.2, copied.3⟩
    | failed done begun more f stage split begins copied =>
      exact .failed done begun more f stage split begins ⟨copied.1, copied.2, copied.3⟩

theorem Stands.run (h : t.Stands s) (acts : List PipeAct) : (t.run s acts).Stands s :=
  run_keeps (fun t a h => h.moves (moves_act s t a)) h acts

theorem Begins.prefix_flatten {begun : List UInt8} {more : List (List UInt8)}
    (h : Begins begun more) : begun <+: more.flatten := by
  rcases h with rfl | ⟨left, rest, -, rfl⟩
  · exact List.nil_prefix
  · exact ⟨left ++ rest.flatten, by simp⟩

theorem Begins.length_lt {begun c : List UInt8} {rest : List (List UInt8)}
    (h : Begins begun (c :: rest)) (hc : c ≠ []) : begun.length < c.length := by
  rcases h with rfl | ⟨left, rest', hleft, hcons⟩
  · exact List.length_pos_iff.2 hc
  · obtain rfl : c = begun ++ left := (List.cons.inj hcons).1
    have hpos : 0 < left.length := List.length_pos_iff.2 hleft
    rw [List.length_append]
    omega

theorem Stands.accepted_prefix (h : t.Stands s) : t.pipe.accepted <+: s.bytes := by
  obtain ⟨done, begun, more, hsplit, hbegins, hcopied⟩ := h.copied
  rw [hcopied.accepted, PipeSource.bytes, hsplit, List.flatten_append]
  exact (List.prefix_append_right_inj _).2 hbegins.prefix_flatten

/-- What was announced are the totals of the chunks that the target has completely. -/
theorem Stands.announced (h : t.Stands s) :
    t.pipe.progress = Pipe.totals (s.chunks.take t.pipe.progress.length) ∧
    (s.chunks.take t.pipe.progress.length).flatten.length ≤ t.pipe.accepted.length ∧
    (t.pipe.progress.length < s.chunks.length → t.pipe.accepted.length <
      (s.chunks.take (t.pipe.progress.length + 1)).flatten.length) := by
  obtain ⟨done, begun, more, hsplit, hbegins, hcopied⟩ := h.copied
  have hlength : t.pipe.progress.length = done.length := by
    rw [hcopied.progress, Pipe.length_totals]
  have hdone : s.chunks.take done.length = done := by rw [hsplit, List.take_left]
  rw [hlength, hdone, hcopied.accepted, List.length_append]
  refine ⟨hcopied.progress, Nat.le_add_right _ _, fun hmore => ?_⟩
  cases more with
  | nil => simp [hsplit] at hmore
  | cons c rest =>
    have hc : c ≠ [] := s.nonempty c (by simp [hsplit])
    have hnext : s.chunks.take (done.length + 1) = done ++ [c] := by
      rw [hsplit, List.take_length_add_append]
      rfl
    have hlt : begun.length < c.length := hbegins.length_lt hc
    simp only [hnext, List.flatten_append, List.length_append, List.flatten_singleton]
    omega

theorem Stands.announced_iff (h : t.Stands s) {j : Nat} (hj : j < s.chunks.length) :
    j < t.pipe.progress.length ↔
      (s.chunks.take (j + 1)).flatten.length ≤ t.pipe.accepted.length := by
  obtain ⟨-, hdone, hnext⟩ := h.announced
  constructor
  · intro hlt
    exact Nat.le_trans (Pipe.length_flatten_take_le s.chunks hlt) hdone
  · intro hle
    refine Nat.lt_of_not_le fun hbeyond => ?_
    have hmissing := hnext (Nat.lt_of_le_of_lt hbeyond hj)
    have hmono : (s.chunks.take (t.pipe.progress.length + 1)).flatten.length ≤
        (s.chunks.take (j + 1)).flatten.length :=
      Pipe.length_flatten_take_le s.chunks (Nat.succ_le_succ hbeyond)
    omega

theorem Stands.progress_increasing (h : t.Stands s) : t.pipe.progress.Pairwise (· < ·) := by
  rw [h.announced.1]
  exact Pipe.totals_increasing fun c hc => s.nonempty c (List.mem_of_mem_take hc)

theorem Moves.accepted_grows {a : PipeAct} {u : PipeScene} (hmoves : t.Moves s a u) :
    t.pipe.accepted <+: u.pipe.accepted := by
  cases hmoves with
  | accepted _ count =>
    rw [Pipe.accepted_accept]
    exact List.prefix_append _ _
  | cancelled =>
    obtain ⟨_, _, _, hcancel⟩ := t.pipe.cancel_frame
    rw [hcancel]
    exact List.prefix_rfl
  | stays _ | chunk _ _ | drained _ _ _ | flushed _ | closed _ | failed _ _ =>
    exact List.prefix_rfl

/-- Whoever announces a total has just been told that the target has as much. -/
theorem Stands.announces (h : t.Stands s) {a : PipeAct} {u : PipeScene}
    (hmoves : t.Moves s a u) : u.pipe.progress = t.pipe.progress ∨
      u.pipe.progress = t.pipe.progress ++ [u.pipe.accepted.length] := by
  cases hmoves with
  | @accepted left length stage count =>
    obtain ⟨done, begun, -, rfl, -, hcopied⟩ := h.of_writing stage
    by_cases hcount : left.length ≤ count
    · have hall := hcopied.accept_all hcount
      refine .inr ?_
      rw [hall.progress, hall.accepted, Pipe.totals_snoc, hcopied.progress, List.append_nil]
    · have hsome := hcopied.accept_some hcount (begun ++ left).length
      exact .inl (hsome.progress.trans hcopied.progress.symm)
  | cancelled =>
    obtain ⟨_, _, _, hcancel⟩ := t.pipe.cancel_frame
    exact .inl (by rw [hcancel])
  | stays _ | chunk _ _ | drained _ _ _ | flushed _ | closed _ | failed _ _ => exact .inl rfl

theorem Moves.of_closing {a : PipeAct} {u : PipeScene} (hmoves : t.Moves s a u)
    (hstage : u.pipe.stage = .closing) :
    t.pipe.stage = .closing ∨ a = .flush (.ok ()) ∧ t.pipe.stage = .flushing := by
  cases hmoves with
  | stays _ => exact .inl hstage
  | chunk _ _ =>
    dsimp only at hstage
    split at hstage <;> cases hstage
  | accepted _ count =>
    dsimp only [Pipe.accept] at hstage
    split at hstage <;> cases hstage
  | flushed stage => exact .inr ⟨rfl, stage⟩
  | cancelled =>
    obtain ⟨_, _, _, hcancel⟩ := t.pipe.cancel_frame
    rw [hcancel] at hstage
    exact .inl hstage
  | drained _ _ _ | closed _ | failed _ _ => cases hstage

theorem flushed_of_closing {acts : List PipeAct} (hstart : t.pipe.stage ≠ .closing)
    (hstage : (t.run s acts).pipe.stage = .closing) :
    ∃ before after, acts = before ++ .flush (.ok ()) :: after ∧
      (t.run s before).pipe.stage = .flushing := by
  induction acts generalizing t with
  | nil => exact absurd hstage hstart
  | cons a acts ih =>
    by_cases hnow : (t.act s a).pipe.stage = .closing
    · obtain hbefore | ⟨rfl, hflushing⟩ := (moves_act s t a).of_closing hnow
      · exact absurd hbefore hstart
      · exact ⟨[], acts, rfl, hflushing⟩
    · obtain ⟨before, after, rfl, hflushing⟩ := ih hnow hstage
      exact ⟨a :: before, after, rfl, hflushing⟩

theorem Moves.armed {a : PipeAct} {u : PipeScene} (hmoves : t.Moves s a u)
    (h : t.pipe.Armed) : u.pipe.Armed := by
  cases hmoves with
  | accepted _ count =>
    dsimp only [Pipe.accept]
    split <;> exact h
  | cancelled => exact h.cancel.2
  | stays _ | chunk _ _ | drained _ _ _ | flushed _ | closed _ | failed _ _ => exact h

theorem armed_run (h : t.pipe.Armed) (acts : List PipeAct) : (t.run s acts).pipe.Armed :=
  run_keeps (P := fun t => t.pipe.Armed) (fun t a => (moves_act s t a).armed) h acts

/-- The target has a beginning of the stream, of which its complete chunks were announced, and is
closed only with the whole of it.  A cancel succeeds at any time and stops both streams. -/
theorem run_copies (s : PipeSource) (sourceCancelled targetCancelled : Bool)
    (acts : List PipeAct) :
    let t₀ := start s sourceCancelled targetCancelled
    let t := t₀.run s acts
    t.pipe.accepted <+: s.bytes ∧
    (t.pipe.progress = Pipe.totals (s.chunks.take t.pipe.progress.length) ∧
      t.pipe.progress.Pairwise (· < ·) ∧
      (∀ j < s.chunks.length, j < t.pipe.progress.length ↔
        (s.chunks.take (j + 1)).flatten.length ≤ t.pipe.accepted.length) ∧
      ∀ a, let u := t.act s a
        t.pipe.accepted <+: u.pipe.accepted ∧ (u.pipe.progress = t.pipe.progress ∨
          u.pipe.progress = t.pipe.progress ++ [u.pipe.accepted.length])) ∧
    (t.pipe.stage = .closing → s.failure = none ∧ t.pipe.accepted = s.bytes ∧
      ∃ before after, acts = before ++ .flush (.ok ()) :: after ∧
        (t₀.run s before).pipe.stage = .flushing) ∧
    (∀ n, t.pipe.result? = some (.ok n) →
      s.failure = none ∧ t.pipe.accepted = s.bytes ∧ n = s.bytes.length ∧
      (0 < n → t.pipe.progress.getLast? = some n)) ∧
    t.pipe.cancel.1 = .ok () ∧ t.pipe.cancel.2.sourceCancelled = true ∧
      t.pipe.cancel.2.targetCancelled = true ∧ t.pipe.cancel.2.scope.tripped = true := by
  intro t₀ t
  have h : t.Stands s := (stands_start s sourceCancelled targetCancelled).run acts
  have harmed : t.pipe.Armed := armed_run (.inl rfl) acts
  refine ⟨h.accepted_prefix, ⟨h.announced.1, h.progress_increasing, fun _ => h.announced_iff,
    fun a => ⟨(moves_act s t a).accepted_grows, h.announces (moves_act s t a)⟩⟩, ?_, ?_,
    harmed.cancel.1⟩
  · intro hstage
    obtain ⟨hends, hcopied⟩ := h.of_complete (.inr hstage)
    exact ⟨hends, hcopied.accepted_all, flushed_of_closing nofun hstage⟩
  · intro n hresult
    obtain ⟨hends, hlength, hcopied⟩ := h.of_ended hresult
    refine ⟨hends, hcopied.accepted_all, hlength, fun hpos => ?_⟩
    rw [hcopied.progress, hlength]
    exact Pipe.getLast_totals (hlength ▸ hpos)

/-- Two chunks, of which the first is written in two parts. -/
example :
    let s : PipeSource := { chunks := [[1, 2, 3], [4]], nonempty := by decide }
    let t := (start s false false).run s [.read, .write (.ok 2), .write (.ok 1), .read,
      .write (.ok 1), .read, .flush (.ok ()), .close (.ok ())]
    t.pipe.accepted = [1, 2, 3, 4] ∧ t.pipe.progress = [3, 4] ∧ t.pipe.result? = some (.ok 4) :=
  ⟨rfl, rfl, rfl⟩

end PipeScene
end PackageHandling
