import Mathlib.Data.Finset.Card
import Phrasebook.Proofs.Lock.Holding
import Phrasebook.Proofs.Tables

/-!
# Who waits for a lock

A lock counts the threads that wait to write, lets nobody begin to read in front of them, and
lets nobody sleep for whom it is free.

**Queue.**  `Threads.waitingFor` is the set of threads that wait for a side.  A step changes it
at the thread that moves and nowhere else (`card_waitingFor_update`).
**Invariant.**  `Threads.IsOrderly`: a safe lock counts the waiting writers, and whoever waits
has no open block.
**Results.**
* `Reachable.orderly`: what a lock records of its holders and of its queue, whom it admits while
  a writer waits, and that whoever reads may read again at once.
* `Reachable.wakes_waiting`: a step that makes the lock free for a waiting thread wakes the
  threads that wait; and a lock that nobody holds is free for one of them.
* `Sleeping.not_isReady`: so no thread sleeps through the end of its wait.
-/

namespace Phrasebook

universe u

namespace Lock

section Queue

variable {τ : Type u}

theorem queued_enqueue (l : Lock τ) (side : Side) :
    (l.enqueue side).queued = l.queued + if side = .write then 1 else 0 := by
  cases side <;> rfl

theorem queued_dequeue (l : Lock τ) (side : Side) :
    (l.dequeue side).queued = l.queued - if side = .write then 1 else 0 := by
  cases side <;> rfl

variable [DecidableEq τ] (l : Lock τ) (t : τ) (side : Side)

theorem queued_acquire : (l.acquire t side).queued = l.queued := by
  cases side <;> rfl

theorem queued_release : (l.release t side).queued = l.queued := by
  cases side with
  | read =>
      simp only [release]
      split <;> rfl
  | write => rfl

/-- Nobody reads a lock if no thread has a depth. -/
theorem readers_eq_zero {l : Lock τ} (h : ∀ t, l.depths.get? t = none) : l.readers = 0 := by
  rw [readers, Table.size, List.length_eq_zero_iff]
  by_contra hne
  obtain ⟨e, he⟩ := List.exists_mem_of_ne_nil _ hne
  have hsome : l.depths.get? e.1 = some e.2 := Table.get?_of_mem he
  rw [h] at hsome
  cases hsome

/-- What a thread in the queue for a side waits for. -/
def IsReady (l : Lock τ) : Side → Prop
  | .read => l.writer = none ∧ l.queued = 0
  | .write => l.writer = none ∧ l.readers = 0

instance : DecidablePred l.IsReady := fun side => by
  cases side <;> exact inferInstanceAs (Decidable (_ ∧ _))

/-- A thread that does not read is admitted as soon as the lock is ready for it. -/
theorem admits_iff_isReady {l : Lock τ} {t : τ} (h : l.depths.get? t = none) (side : Side) :
    l.admits t side = true ↔ l.IsReady side := by
  cases side <;> simp [admits, IsReady, Table.has, h]

end Queue

section Counts

variable {τ : Type u} [DecidableEq τ] {l : Lock τ} {t : τ} {blocks : List Side}

/-- The depth of a thread is the number of its open blocks in which it reads. -/
theorem Records.depth_eq (h : l.Records t blocks) : l.depth t = blocks.count .read := by
  cases h with
  | idle _ hd => simp [depth, hd]
  | reading n _ hd => simp [depth, hd]
  | writing _ hd => simp [depth, hd]

theorem Records.pos_of_get? (h : l.Records t blocks) {n : Nat}
    (hn : l.depths.get? t = some n) : 1 ≤ n := by
  cases h with
  | idle _ hd => simp [hd] at hn
  | reading m _ hd =>
      rw [hd, Option.some.injEq] at hn
      exact hn ▸ Nat.succ_pos m
  | writing _ hd => simp [hd] at hn

theorem Records.get?_eq_none (h : l.Records t blocks) (hdepth : l.depth t = 0) :
    l.depths.get? t = none := by
  cases hget : l.depths.get? t with
  | none => rfl
  | some n =>
      have hpos := h.pos_of_get? hget
      simp only [depth, hget, Option.getD_some] at hdepth
      omega

theorem Records.writer_iff (h : l.Records t blocks) : l.writer = some t ↔ .write ∈ blocks := by
  refine ⟨fun hwriter => ?_, h.writer_eq⟩
  cases h with
  | idle hw _ => exact absurd hwriter hw
  | reading _ hw _ => exact absurd hwriter hw
  | writing => exact List.mem_singleton_self _

end Counts

end Lock

namespace Threads

section Queue

variable {τ : Type u} [DecidableEq τ] {s : Threads τ} {t : τ} {side : Side} {c : Caller}

/-- The threads that wait for a side. -/
def waitingFor (s : Threads τ) (side : Side) : Finset τ :=
  s.callers.keys.toFinset.filter fun t => s.waiting? t = some side

theorem mem_waitingFor : t ∈ s.waitingFor side ↔ s.waiting? t = some side := by
  rw [waitingFor, Finset.mem_filter, List.mem_toFinset, and_iff_right_iff_imp]
  intro hwaiting
  by_contra hkey
  have hnone : s.waiting? t = none := by
    simp [waiting?, caller, Table.get?_of_not_mem hkey, Caller.idle]
  rw [hnone] at hwaiting
  cases hwaiting

theorem waitingFor_update (l : Lock τ) :
    (s.update t l c).waitingFor side =
      if c.waiting = some side then insert t (s.waitingFor side)
      else (s.waitingFor side).erase t := by
  ext u
  by_cases hu : t = u
  · subst hu
    by_cases hc : c.waiting = some side <;> simp [mem_waitingFor, waiting?, hc]
  · by_cases hc : c.waiting = some side <;>
      simp [mem_waitingFor, waiting?, hc, hu, Ne.symm hu]

/-- A change of one thread counts for the thread alone. -/
theorem card_waitingFor_update (l : Lock τ) :
    ((s.update t l c).waitingFor side).card + (if s.waiting? t = some side then 1 else 0) =
      (s.waitingFor side).card + if c.waiting = some side then 1 else 0 := by
  rw [waitingFor_update]
  by_cases hbefore : s.waiting? t = some side
  · have hmem : t ∈ s.waitingFor side := mem_waitingFor.2 hbefore
    by_cases hafter : c.waiting = some side
    · simp [hbefore, hafter, Finset.insert_eq_of_mem hmem]
    · simp [hbefore, hafter, Finset.card_erase_add_one hmem]
  · have hmem : t ∉ s.waitingFor side := fun h => hbefore (mem_waitingFor.1 h)
    by_cases hafter : c.waiting = some side
    · simp [hbefore, hafter, Finset.card_insert_of_notMem hmem]
    · simp [hbefore, hafter, Finset.erase_eq_of_notMem hmem]

end Queue

section Order

variable {τ : Type u} [DecidableEq τ] {s : Threads τ} {t other : τ} {move : Move} {e : Effect τ}
  {side : Side}

/-- A safe lock that counts the waiting writers, and whose waiting threads have no open block. -/
structure IsOrderly (s : Threads τ) : Prop extends s.IsSafe where
  counts : s.lock.queued = (s.waitingFor .write).card
  idle : ∀ t, s.waiting? t ≠ none → (s.caller t).blocks = []

theorem isOrderly_start : IsOrderly (start : Threads τ) where
  toIsSafe := isSafe_start
  counts := rfl
  idle _ h := absurd rfl h

/-- A thread that is neither refused nor admitted has no open block. -/
theorem IsSafe.blocks_eq_nil (h : s.IsSafe) (hrefusal : s.lock.refusal? t side = none)
    (hadmits : s.lock.admits t side = false) : (s.caller t).blocks = [] := by
  have hrecords := h.records t
  generalize (s.caller t).blocks = blocks at hrecords
  cases hrecords with
  | idle => rfl
  | reading n hwriter hdepth =>
      cases side with
      | read => simp [Lock.admits, Table.has, hdepth] at hadmits
      | write => simp [Lock.refusal?, Table.has, hdepth] at hrefusal
  | writing hwriter hdepth =>
      cases side <;> simp [Lock.refusal?, Table.has, hwriter, hdepth] at hrefusal

theorem IsSafe.get?_eq_none (h : s.IsSafe) (hblocks : (s.caller t).blocks = []) :
    s.lock.depths.get? t = none := by
  have hrecords := h.records t
  refine hrecords.get?_eq_none ?_
  rw [hrecords.depth_eq, hblocks]
  rfl

/-- The lock counts on if it counts as the moving thread joins the queue or leaves it. -/
theorem IsOrderly.counts_update (h : s.IsOrderly) {l : Lock τ} {c : Caller}
    (hcount : l.queued + (if s.waiting? t = some .write then 1 else 0) =
      s.lock.queued + if c.waiting = some .write then 1 else 0) :
    (s.update t l c).lock.queued = ((s.update t l c).waitingFor .write).card := by
  have hcard : ((s.update t l c).waitingFor .write).card +
      (if s.waiting? t = some .write then 1 else 0) =
        (s.waitingFor .write).card + if c.waiting = some .write then 1 else 0 :=
    card_waitingFor_update l
  have hcounts := h.counts
  rw [lock_update]
  omega

/-- A thread that leaves the queue was counted in it. -/
theorem IsOrderly.queued_dequeue (h : s.IsOrderly) (hwaiting : s.waiting? t = some side) :
    (s.lock.dequeue side).queued + (if s.waiting? t = some .write then 1 else 0) =
      s.lock.queued := by
  rw [Lock.queued_dequeue, hwaiting]
  cases side with
  | read => simp
  | write =>
      have hpos := Finset.card_pos.2 ⟨t, mem_waitingFor.2 hwaiting⟩
      have hcounts := h.counts
      simp
      omega

/-- Nobody else waits anew, and the moving thread only without an open block. -/
theorem IsOrderly.idle_update (h : s.IsOrderly) {l : Lock τ} {c : Caller}
    (hc : c.waiting ≠ none → c.blocks = []) (other : τ) :
    (s.update t l c).waiting? other ≠ none → ((s.update t l c).caller other).blocks = [] := by
  rw [waiting?, caller_update]
  split
  next => exact hc
  next => exact h.idle other

/-- Every step keeps a lock orderly. -/
theorem IsOrderly.step (h : s.IsOrderly) (hstep : s.step t move = some e) :
    e.threads.IsOrderly := by
  have hsafe := h.toIsSafe.step hstep
  have htransition := transition_of_step hstep
  generalize e.outcome = outcome, e.threads = s' at htransition hsafe
  cases htransition with
  | refused => exact h
  | entered hwaiting =>
      refine ⟨hsafe, h.counts_update ?_, h.idle_update (absurd rfl)⟩
      simp [Lock.queued_acquire, waiting?, hwaiting]
  | waits hwaiting hrefusal hadmits =>
      refine ⟨hsafe, h.counts_update ?_, h.idle_update fun _ => ?_⟩
      · simp [Lock.queued_enqueue, waiting?, hwaiting]
      · exact h.blocks_eq_nil hrefusal hadmits
  | resumed hwaiting =>
      refine ⟨hsafe, h.counts_update ?_, h.idle_update (absurd rfl)⟩
      simpa [Lock.queued_acquire] using h.queued_dequeue hwaiting
  | gaveUp hwaiting =>
      refine ⟨hsafe, h.counts_update ?_, h.idle_update (absurd rfl)⟩
      simpa using h.queued_dequeue hwaiting
  | left hcaller =>
      refine ⟨hsafe, h.counts_update ?_, h.idle_update (absurd rfl)⟩
      simp [Lock.queued_release, waiting?, hcaller]

theorem Reachable.isOrderly (h : Reachable s) : s.IsOrderly := by
  induction h with
  | start => exact isOrderly_start
  | step _ hstep ih => exact ih.step hstep

/-- Who begins to read without reading already finds no writer in the queue. -/
theorem IsOrderly.queued_eq_zero (h : s.IsOrderly) (hstep : s.step t move = some e)
    (hread : e.outcome = .acquired .read) (hdepth : s.lock.depth t = 0) : s.lock.queued = 0 := by
  have hadmits : s.lock.admits t .read = true := by
    have htransition := transition_of_step hstep
    rw [hread] at htransition
    generalize e.threads = s' at htransition
    cases htransition with
    | entered _ _ hadmits => exact hadmits
    | resumed _ hadmits => exact hadmits
  have hnone := (h.records t).get?_eq_none hdepth
  exact ((Lock.admits_iff_isReady hnone .read).1 hadmits).2

theorem step_enter (h : (s.caller t).waiting = none) (side : Side) :
    s.step t (.enter side) = some (s.enter t side) := by
  obtain ⟨blocks, hcaller⟩ : ∃ blocks, s.caller t = ⟨blocks, none⟩ :=
    ⟨(s.caller t).blocks, by rw [← h]⟩
  simp only [step, hcaller]

/-- Who reads already reads again at once, whoever waits. -/
theorem IsOrderly.nests (h : s.IsOrderly) (hdepth : s.lock.depth t ≠ 0) :
    ∃ e, s.step t (.enter .read) = some e ∧ e.outcome = .acquired .read ∧
      e.threads.lock.depth t = s.lock.depth t + 1 := by
  have hblocks : (s.caller t).blocks ≠ [] := by
    intro hnil
    rw [(h.records t).depth_eq, hnil] at hdepth
    exact hdepth rfl
  have hwaiting : (s.caller t).waiting = none := by
    by_contra hwaits
    exact hblocks (h.idle t hwaits)
  have hget : s.lock.depths.get? t ≠ none := by
    intro hnone
    exact hdepth (by simp [Lock.depth, hnone])
  have hwriter : s.lock.writer ≠ some t := fun hwrites =>
    hget (h.exclusive (by simp [hwrites]) t)
  have hrefusal : s.lock.refusal? t .read = none := by simp [Lock.refusal?, hwriter]
  have hadmits : s.lock.admits t .read = true := by
    simp [Lock.admits, Table.has, Option.isSome_iff_ne_none.2 hget]
  refine ⟨_, step_enter hwaiting .read, ?_, ?_⟩
  · simp [enter, hrefusal, hadmits]
  · simp [enter, hrefusal, hadmits, Lock.depth, Lock.acquire, Table.get?_modify]

/-- What a lock records, and whom it admits, wherever steps lead.  One thread at most writes; it is
the one that the lock names, and while there is one no reader is registered.  The depth of a thread
is the number of its blocks in which it reads, and no depth of zero is registered.  The queue counts
the threads that wait to write.  Nobody who does not read begins to read while a writer is in the
queue, and whoever reads can read again at once. -/
theorem Reachable.orderly (h : Reachable s) :
    (∀ t u, .write ∈ (s.caller t).blocks → .write ∈ (s.caller u).blocks → t = u) ∧
      (∀ t, s.lock.writer = some t ↔ .write ∈ (s.caller t).blocks) ∧
      (s.lock.isWritten = true → s.lock.readers = 0) ∧
      (∀ t, s.lock.depth t = (s.caller t).blocks.count .read) ∧
      (∀ t n, s.lock.depths.get? t = some n → 1 ≤ n) ∧
      (∃ writers : Finset τ, (∀ t, t ∈ writers ↔ s.waiting? t = some .write) ∧
        s.lock.queued = writers.card) ∧
      (∀ t move e, s.step t move = some e → e.outcome = .acquired .read → s.lock.depth t = 0 →
        s.lock.queued = 0) ∧
      ∀ t, s.lock.depth t ≠ 0 →
        ∃ e, s.step t (.enter .read) = some e ∧ e.outcome = .acquired .read ∧
          e.threads.lock.depth t = s.lock.depth t + 1 := by
  have horderly := h.isOrderly
  refine ⟨fun t u ht hu => ?_, fun t => (horderly.records t).writer_iff, fun hwritten => ?_,
    fun t => (horderly.records t).depth_eq, fun t n => (horderly.records t).pos_of_get?,
    ⟨s.waitingFor .write, fun t => mem_waitingFor, horderly.counts⟩,
    fun t move e => horderly.queued_eq_zero, fun t => horderly.nests⟩
  · exact horderly.eq_of_write hu (List.ne_nil_of_mem ht)
  · exact Lock.readers_eq_zero (horderly.exclusive (Option.isSome_iff_ne_none.1 hwritten))

/-- A reader with two blocks, a writer behind it, and a second reader behind the writer. -/
theorem Reachable.orderly_preferred :
    ∃ s : Threads Nat, Reachable s ∧ s.lock.depth 0 = 2 ∧
      s.waiting? 1 = some .write ∧ s.waiting? 2 = some .read ∧
      (∃ writers : Finset Nat, (∀ t, t ∈ writers ↔ s.waiting? t = some .write) ∧
        writers.card = 1) ∧
      (∀ e, s.step 2 .resume = some e → e.outcome ≠ .acquired .read) ∧
      ∃ e, s.step 0 (.enter .read) = some e ∧ e.outcome = .acquired .read ∧
        e.threads.lock.depth 0 = 3 := by
  have h₁ := Reachable.step .start
    (rfl : (Threads.start : Threads Nat).step 0 (.enter .read) = some _)
  have h₂ := h₁.step (rfl : Threads.step _ 1 (.enter .write) = some _)
  have h₃ := h₂.step (rfl : Threads.step _ 2 (.enter .read) = some _)
  have h₄ := h₃.step (rfl : Threads.step _ 0 (.enter .read) = some _)
  obtain ⟨-, -, -, -, -, ⟨writers, hmem, hcard⟩, hpreferred, hnests⟩ := h₄.orderly
  refine ⟨_, h₄, rfl, rfl, rfl, ⟨writers, hmem, hcard.symm⟩, fun e he houtcome => ?_, ?_⟩
  · exact absurd (hpreferred 2 _ e he houtcome rfl) (by decide)
  · exact hnests 0 (by decide)

end Order

section Wakings

variable {τ : Type u} [DecidableEq τ] {s : Threads τ} {t : τ} {move : Move} {e : Effect τ}
  {side : Side}

/-- Which steps wake the threads that wait: those in which a writer comes to the end of its wait or
of its block, and the one that leaves nobody reading. -/
theorem wakes_of_step (h : s.step t move = some e) :
    e.wakes =
      match e.outcome with
      | .acquired side | .gaveUp side => side == .write
      | .left side => side == .write || e.threads.lock.readers == 0
      | .refused _ | .waits _ => false := by
  unfold step at h
  split at h
  next side _ _ =>
    cases h
    unfold enter
    cases s.lock.refusal? t side with
    | some error => rfl
    | none => cases hadmits : s.lock.admits t side <;> simp
  next => cases h; rfl
  next =>
    split at h
    next => cases h; rfl
    next => cases h
  next =>
    split at h
    next => cases h
    next => cases h; rfl
  next => cases h

theorem readers_acquire_read (l : Lock τ) (t : τ) : (l.acquire t .read).readers ≠ 0 := by
  intro hnobody
  have hnone := Lock.get?_depths_of_readers_eq_zero hnobody t
  simp [Lock.acquire, Table.get?_modify] at hnone

/-- A step that wakes nobody makes the lock ready for nobody. -/
theorem isReady_of_step (h : s.step t move = some e) (hwakes : e.wakes = false)
    (hready : e.threads.lock.IsReady side) : s.lock.IsReady side := by
  have htransition := transition_of_step h
  rw [wakes_of_step h] at hwakes
  generalize e.outcome = outcome, e.threads = s' at htransition hwakes hready
  cases htransition with
  | refused => exact hready
  | @entered entered _ _ _ =>
      cases entered with
      | write => cases hwakes
      | read =>
          cases side with
          | read => exact hready
          | write => exact absurd hready.2 (readers_acquire_read _ t)
  | @waits waits _ _ _ =>
      cases waits with
      | read => exact hready
      | write =>
          cases side with
          | read => exact absurd hready.2 (Nat.succ_ne_zero _)
          | write => exact hready
  | @resumed resumed _ _ =>
      cases resumed with
      | write => cases hwakes
      | read =>
          cases side with
          | read => exact hready
          | write => exact absurd hready.2 (readers_acquire_read _ t)
  | @gaveUp gaveUp _ _ =>
      cases gaveUp with
      | write => cases hwakes
      | read => exact hready
  | @left left _ _ =>
      cases left with
      | write => cases hwakes
      | read =>
          rw [lock_update] at hready hwakes
          cases side with
          | read =>
              refine ⟨?_, ?_⟩
              · rw [← Lock.writer_release_read s.lock t]
                exact hready.1
              · rw [← Lock.queued_release s.lock t .read]
                exact hready.2
          | write => simp [hready.2] at hwakes

/-- A thread in the queue goes on exactly if the lock is ready for it. -/
theorem IsOrderly.resume_iff (h : s.IsOrderly) (hwaiting : s.waiting? t = some side) :
    (∃ e, s.step t .resume = some e ∧ e.outcome = .acquired side) ↔ s.lock.IsReady side := by
  have hidle := h.idle t (by simp [hwaiting])
  have hnone := h.get?_eq_none hidle
  have hcaller : s.caller t = ⟨[], some side⟩ := by
    rw [← hidle, ← hwaiting]
    rfl
  rw [← Lock.admits_iff_isReady hnone]
  simp only [Threads.step, hcaller]
  split <;> simp_all [resume]

/-- If nobody holds the lock, it is ready for one of the threads that wait. -/
theorem IsOrderly.exists_isReady (h : s.IsOrderly) (hwriter : s.lock.writer = none)
    (hreaders : s.lock.readers = 0) (hwaiting : s.waiting? t = some side) :
    ∃ u side, s.waiting? u = some side ∧ s.lock.IsReady side := by
  by_cases hqueued : s.lock.queued = 0
  · cases side with
    | read => exact ⟨t, .read, hwaiting, hwriter, hqueued⟩
    | write => exact ⟨t, .write, hwaiting, hwriter, hreaders⟩
  · rw [h.counts, ← ne_eq, Finset.card_ne_zero] at hqueued
    obtain ⟨u, hu⟩ := hqueued
    exact ⟨u, .write, mem_waitingFor.1 hu, hwriter, hreaders⟩

/-- No wake-up is lost and no lock is stuck, wherever steps lead.  A thread in the queue goes on
exactly if the lock is ready for it; a step that makes the lock ready for a thread that waits wakes
the threads that wait; and a lock that nobody holds is ready for one of those that wait for it. -/
theorem Reachable.wakes_waiting (h : Reachable s) :
    (∀ t side, s.waiting? t = some side →
      ((∃ e, s.step t .resume = some e ∧ e.outcome = .acquired side) ↔ s.lock.IsReady side)) ∧
      (∀ t move e, s.step t move = some e → ∀ u side, s.waiting? u = some side →
        ¬s.lock.IsReady side → e.threads.lock.IsReady side → e.wakes = true) ∧
      (s.lock.writer = none → s.lock.readers = 0 → (∃ t, s.waiting? t ≠ none) →
        ∃ u side, s.waiting? u = some side ∧ s.lock.IsReady side) := by
  have horderly := h.isOrderly
  refine ⟨fun t side => horderly.resume_iff, fun t move e hstep u side _ hbefore hafter => ?_,
    fun hwriter hreaders hwaiting => ?_⟩
  · by_contra hwakes
    exact hbefore (isReady_of_step hstep (Bool.eq_false_iff.2 hwakes) hafter)
  · obtain ⟨t, ht⟩ := hwaiting
    obtain ⟨side, hside⟩ := Option.ne_none_iff_exists'.1 ht
    exact horderly.exists_isReady hwriter hreaders hside

/-- A reader, a writer behind it, and a second reader behind the writer.  If the writer gives up,
the second reader is woken; if the reader leaves, the lock is ready for one of the two. -/
theorem Reachable.wakes_waiting_timeout :
    ∃ s : Threads Nat, Reachable s ∧ s.waiting? 1 = some .write ∧ s.waiting? 2 = some .read ∧
      (∃ e, s.step 1 .giveUp = some e ∧ e.outcome = .gaveUp .write ∧ e.wakes = true) ∧
      ∃ e, s.step 0 .leave = some e ∧ e.wakes = true ∧
        ∃ u side, e.threads.waiting? u = some side ∧ e.threads.lock.IsReady side := by
  have h₁ := Reachable.step .start
    (rfl : (Threads.start : Threads Nat).step 0 (.enter .read) = some _)
  have h₂ := h₁.step (rfl : Threads.step _ 1 (.enter .write) = some _)
  have h₃ := h₂.step (rfl : Threads.step _ 2 (.enter .read) = some _)
  have h₄ := h₃.step (rfl : Threads.step _ 0 .leave = some _)
  obtain ⟨-, hwakes, -⟩ := h₃.wakes_waiting
  obtain ⟨-, -, hstuck⟩ := h₄.wakes_waiting
  refine ⟨_, h₃, rfl, rfl, ⟨_, rfl, rfl, ?_⟩, ⟨_, rfl, ?_, ?_⟩⟩
  · exact hwakes 1 .giveUp _ rfl 2 .read rfl (by decide) (by decide)
  · exact hwakes 0 .leave _ rfl 1 .write rfl (by decide) (by decide)
  · exact hstuck rfl rfl ⟨1, by decide⟩

/-- Threads at a lock and those of them that sleep.  Who begins to wait falls asleep, and so does
who wakes before the lock is ready; a step that wakes wakes all.  A thread that sleeps cannot go on,
it can only give up when its time is over. -/
inductive Sleeping : Threads τ → Set τ → Prop
  | start : Sleeping start ∅
  | step {s : Threads τ} {asleep : Set τ} {t : τ} {move : Move} {e : Effect τ} :
      Sleeping s asleep → s.step t move = some e → (t ∈ asleep → move = .giveUp) →
      Sleeping e.threads
        {u | e.wakes = false ∧ if u = t then ∃ side, e.outcome = .waits side else u ∈ asleep}
  | again {s : Threads τ} {asleep : Set τ} {t : τ} {side : Side} :
      Sleeping s asleep → s.waiting? t = some side → ¬s.lock.IsReady side →
      Sleeping s (insert t asleep)

theorem Sleeping.reachable {asleep : Set τ} (h : Sleeping s asleep) : Reachable s := by
  induction h with
  | start => exact .start
  | step _ hstep _ ih => exact .step ih hstep
  | again _ _ _ ih => exact ih

/-- The lock is not ready for a thread that has just begun to wait. -/
theorem IsOrderly.not_isReady_of_waits (h : s.IsOrderly) (hstep : s.step t move = some e)
    (houtcome : e.outcome = .waits side) :
    e.threads.waiting? t = some side ∧ ¬e.threads.lock.IsReady side := by
  obtain ⟨hrefusal, hadmits, hthreads⟩ : s.lock.refusal? t side = none ∧
      s.lock.admits t side = false ∧
      e.threads = s.update t (s.lock.enqueue side) ⟨(s.caller t).blocks, some side⟩ := by
    have htransition := transition_of_step hstep
    rw [houtcome] at htransition
    generalize e.threads = s' at htransition ⊢
    cases htransition with
    | waits _ hrefusal hadmits => exact ⟨hrefusal, hadmits, rfl⟩
  refine ⟨by simp [hthreads, waiting?], fun hready => ?_⟩
  have hwakes : e.wakes = false := by rw [wakes_of_step hstep, houtcome]
  have hnone := h.get?_eq_none (h.blocks_eq_nil hrefusal hadmits)
  have hadmitted := (Lock.admits_iff_isReady hnone side).2 (isReady_of_step hstep hwakes hready)
  rw [hadmits] at hadmitted
  cases hadmitted

/-- Whoever sleeps waits for a side that the lock is not ready for. -/
theorem Sleeping.not_isReady {asleep : Set τ} (h : Sleeping s asleep) :
    ∀ t ∈ asleep, ∃ side, s.waiting? t = some side ∧ ¬s.lock.IsReady side := by
  induction h with
  | start => exact fun t ht => absurd ht (Set.notMem_empty t)
  | @step s asleep t move e hbefore hstep _ ih =>
      rintro u ⟨hwakes, hu⟩
      split at hu
      next heq =>
        obtain ⟨side, hside⟩ := hu
        rw [heq]
        exact ⟨side, hbefore.reachable.isOrderly.not_isReady_of_waits hstep hside⟩
      next hne =>
        obtain ⟨side, hwaiting, hready⟩ := ih u hu
        refine ⟨side, ?_, fun hafter => hready (isReady_of_step hstep hwakes hafter)⟩
        rwa [waiting?, caller_of_step hstep hne]
  | again _ hwaiting hready ih =>
      rintro u (rfl | hu)
      · exact ⟨_, hwaiting, hready⟩
      · exact ih u hu

end Wakings

end Threads
end Phrasebook
