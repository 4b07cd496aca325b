import Phrasebook.Lock.Step
import Mathlib.Tactic.Common

/-!
# Who holds a lock

A lock keeps what the threads at it have in hand.

**Steps.**  `Threads.Transition` has one case for each thing that a step can do, with the guard
that let it happen and the threads behind it; `transition_of_step` takes a step apart.
**Invariant.**  `Threads.IsSafe` says that the lock records the open blocks of every thread, and
that nobody reads while somebody writes.
**Results.**
* `Reachable.isSafe`: the invariant holds of whatever steps lead to.
* `IsSafe.eq_of_write`: who writes holds the lock alone.
* `IsSafe.outcome_ne_refused`: a thread without a block is never refused.
-/

namespace Phrasebook

universe u

namespace Lock

section Queue

variable {τ : Type u} (l : Lock τ) (side : Side)

@[simp] theorem writer_enqueue : (l.enqueue side).writer = l.writer := by
  cases side <;> rfl

@[simp] theorem depths_enqueue : (l.enqueue side).depths = l.depths := by
  cases side <;> rfl

@[simp] theorem writer_dequeue : (l.dequeue side).writer = l.writer := by
  cases side <;> rfl

@[simp] theorem depths_dequeue : (l.dequeue side).depths = l.depths := by
  cases side <;> rfl

theorem get?_depths_of_readers_eq_zero [DecidableEq τ] {l : Lock τ} (h : l.readers = 0) (t : τ) :
    l.depths.get? t = none := by
  rw [readers, Table.size, List.length_eq_zero_iff] at h
  simp [Table.get?, h, Table.lookup]

end Queue

section Records

variable {τ : Type u} [DecidableEq τ] {l l' : Lock τ} {t other : τ} {side : Side}
  {blocks : List Side}

theorem writer_release_read (l : Lock τ) (t : τ) : (l.release t .read).writer = l.writer := by
  simp only [release]
  split <;> rfl

theorem get?_depths_release_read (l : Lock τ) (t other : τ) :
    (l.release t .read).depths.get? other =
      if t = other then if l.depth t ≤ 1 then none else some (l.depth t - 1)
      else l.depths.get? other := by
  simp only [release]
  split <;> simp [Table.get?_modify, depth]

/-- Does a lock record the open blocks of a thread, the innermost one first? -/
inductive Records (l : Lock τ) (t : τ) : List Side → Prop
  | idle (hwriter : l.writer ≠ some t) (hdepth : l.depths.get? t = none) : Records l t []
  | reading (n : Nat) (hwriter : l.writer ≠ some t) (hdepth : l.depths.get? t = some (n + 1)) :
      Records l t (List.replicate (n + 1) .read)
  | writing (hwriter : l.writer = some t) (hdepth : l.depths.get? t = none) :
      Records l t [.write]

/-- What a lock records does not depend on its queue. -/
theorem Records.of_eq (h : l.Records t blocks) (hwriter : l'.writer = l.writer)
    (hdepths : l'.depths = l.depths) : l'.Records t blocks := by
  cases h with
  | idle hw hd => exact .idle (hwriter ▸ hw) (hdepths ▸ hd)
  | reading n hw hd => exact .reading n (hwriter ▸ hw) (hdepths ▸ hd)
  | writing hw hd => exact .writing (hwriter ▸ hw) (hdepths ▸ hd)

/-- A thread that begins a block of a lock that nobody writes. -/
theorem Records.acquire (h : l.Records t blocks) (hfree : l.writer = none)
    (hwrite : side = .write → l.depths.get? t = none) :
    (l.acquire t side).Records t (side :: blocks) := by
  cases side with
  | read =>
      have hwriter : (l.acquire t .read).writer ≠ some t := by simp [Lock.acquire, hfree]
      cases h with
      | idle _ hd =>
          exact .reading 0 hwriter (by simp [Lock.acquire, Table.get?_modify, hd])
      | reading n _ hd =>
          exact .reading (n + 1) hwriter (by simp [Lock.acquire, Table.get?_modify, hd])
      | writing hw _ => simp [hfree] at hw
  | write =>
      have hnone := hwrite rfl
      cases h with
      | idle _ _ => exact .writing rfl hnone
      | reading n _ hd => simp [hnone] at hd
      | writing hw _ => simp [hfree] at hw

/-- What another thread has in hand is recorded as before. -/
theorem Records.acquire_other (h : l.Records other blocks) (hne : other ≠ t)
    (hfree : l.writer = none) : (l.acquire t side).Records other blocks := by
  have hwriter : (l.acquire t side).writer ≠ some other := by
    cases side <;> simp [Lock.acquire, hfree, hne.symm]
  have hdepth : (l.acquire t side).depths.get? other = l.depths.get? other := by
    cases side <;> simp [Lock.acquire, Table.get?_modify, hne.symm]
  cases h with
  | idle _ hd => exact .idle hwriter (hdepth.trans hd)
  | reading n _ hd => exact .reading n hwriter (hdepth.trans hd)
  | writing hw _ => simp [hfree] at hw

/-- A thread that ends its innermost block. -/
theorem Records.release (h : l.Records t (side :: blocks)) :
    (l.release t side).Records t blocks := by
  generalize hall : side :: blocks = all at h
  cases h with
  | idle _ _ => cases hall
  | reading n hw hd =>
      obtain ⟨rfl, rfl⟩ := List.cons.inj hall
      have hwriter : (l.release t .read).writer ≠ some t := writer_release_read l t ▸ hw
      have hdepth : l.depth t = n + 1 := by simp [depth, hd]
      cases n with
      | zero => exact .idle hwriter (by simp [get?_depths_release_read, hdepth])
      | succ n => exact .reading n hwriter (by simp [get?_depths_release_read, hdepth])
  | writing _ hd =>
      cases hall
      exact .idle nofun hd

theorem Records.release_other (h : l.Records other blocks) (hne : other ≠ t)
    (hwrite : side = .write → l.writer = some t) : (l.release t side).Records other blocks := by
  cases side with
  | read =>
      have hwriter := writer_release_read l t
      have hdepth : (l.release t .read).depths.get? other = l.depths.get? other := by
        simp [get?_depths_release_read, hne.symm]
      cases h with
      | idle hw hd => exact .idle (hwriter ▸ hw) (hdepth.trans hd)
      | reading n hw hd => exact .reading n (hwriter ▸ hw) (hdepth.trans hd)
      | writing hw hd => exact .writing (hwriter.trans hw) (hdepth.trans hd)
  | write =>
      cases h with
      | idle _ hd => exact .idle nofun hd
      | reading n _ hd => exact .reading n nofun hd
      | writing hw _ =>
          rw [hwrite rfl, Option.some.injEq] at hw
          exact absurd hw.symm hne

theorem Records.writer_eq (h : l.Records t blocks) (hwrite : .write ∈ blocks) :
    l.writer = some t := by
  cases h with
  | idle => cases hwrite
  | reading n => simp at hwrite
  | writing hw _ => exact hw

theorem Records.depth_ne_none (h : l.Records t blocks) (hread : .read ∈ blocks) :
    l.depths.get? t ≠ none := by
  cases h with
  | idle => cases hread
  | reading n _ hd => simp [hd]
  | writing => simp at hread

end Records

end Lock

namespace Threads

section Transitions

variable {τ : Type u} [DecidableEq τ] {s : Threads τ} {t other : τ} {move : Move} {e : Effect τ}

@[simp] theorem lock_update (s : Threads τ) (t : τ) (l : Lock τ) (c : Caller) :
    (s.update t l c).lock = l := rfl

@[simp] theorem caller_update (s : Threads τ) (t other : τ) (l : Lock τ) (c : Caller) :
    (s.update t l c).caller other = if t = other then c else s.caller other := by
  by_cases h : t = other <;> simp [caller, update, h]

/-- What a step can do, with what lets it happen, what becomes of it, and the threads behind
it. -/
inductive Transition (s : Threads τ) (t : τ) : Move → Outcome → Threads τ → Prop
  | refused {side : Side} {error : LockError} (hwaiting : (s.caller t).waiting = none)
      (hrefusal : s.lock.refusal? t side = some error) :
      Transition s t (.enter side) (.refused error) s
  | entered {side : Side} (hwaiting : (s.caller t).waiting = none)
      (hrefusal : s.lock.refusal? t side = none) (hadmits : s.lock.admits t side = true) :
      Transition s t (.enter side) (.acquired side)
        (s.update t (s.lock.acquire t side) ⟨side :: (s.caller t).blocks, none⟩)
  | waits {side : Side} (hwaiting : (s.caller t).waiting = none)
      (hrefusal : s.lock.refusal? t side = none) (hadmits : s.lock.admits t side = false) :
      Transition s t (.enter side) (.waits side)
        (s.update t (s.lock.enqueue side) ⟨(s.caller t).blocks, some side⟩)
  | resumed {side : Side} (hwaiting : (s.caller t).waiting = some side)
      (hadmits : s.lock.admits t side = true) :
      Transition s t .resume (.acquired side)
        (s.update t ((s.lock.dequeue side).acquire t side) ⟨side :: (s.caller t).blocks, none⟩)
  | gaveUp {side : Side} (hwaiting : (s.caller t).waiting = some side)
      (hadmits : s.lock.admits t side = false) :
      Transition s t .giveUp (.gaveUp side)
        (s.update t (s.lock.dequeue side) ⟨(s.caller t).blocks, none⟩)
  | left {side : Side} {blocks : List Side} (hcaller : s.caller t = ⟨side :: blocks, none⟩) :
      Transition s t .leave (.left side) (s.update t (s.lock.release t side) ⟨blocks, none⟩)

/-- A step is one of these transitions. -/
theorem transition_of_step (h : s.step t move = some e) :
    Transition s t move e.outcome e.threads := by
  unfold step at h
  split at h
  next side blocks hcaller =>
    cases h
    have hwaiting : (s.caller t).waiting = none := by rw [hcaller]
    unfold enter
    cases hrefusal : s.lock.refusal? t side with
    | some error => exact .refused hwaiting hrefusal
    | none =>
        cases hadmits : s.lock.admits t side with
        | true => simpa [hadmits, hwaiting] using Transition.entered hwaiting hrefusal hadmits
        | false => simpa [hadmits] using Transition.waits hwaiting hrefusal hadmits
  next side blocks hcaller =>
    cases h
    simpa [leave, hcaller] using Transition.left hcaller
  next blocks side hcaller =>
    split at h
    next hadmits =>
      cases h
      exact .resumed (by rw [hcaller]) hadmits
    next => cases h
  next blocks side hcaller =>
    split at h
    next => cases h
    next hadmits =>
      cases h
      exact .gaveUp (by rw [hcaller]) (Bool.eq_false_iff.2 hadmits)
  next => cases h

/-- A step changes nothing of another thread. -/
theorem caller_of_step (h : s.step t move = some e) (hne : other ≠ t) :
    e.threads.caller other = s.caller other := by
  have htransition := transition_of_step h
  generalize e.outcome = outcome, e.threads = s' at htransition
  cases htransition <;> simp [hne.symm]

end Transitions

section Safety

variable {τ : Type u} [DecidableEq τ] {s : Threads τ} {t other : τ} {move : Move} {e : Effect τ}
  {side : Side}

/-- What holds of a lock and the threads at it. -/
structure IsSafe (s : Threads τ) : Prop where
  records : ∀ t, s.lock.Records t (s.caller t).blocks
  exclusive : s.lock.writer ≠ none → ∀ t, s.lock.depths.get? t = none

theorem isSafe_start : IsSafe (start : Threads τ) where
  records _ := .idle nofun rfl
  exclusive h := absurd rfl h

/-- Nobody writes a lock that admits somebody. -/
theorem IsSafe.writer_eq_none (h : s.IsSafe) (hadmits : s.lock.admits t side = true) :
    s.lock.writer = none := by
  cases side with
  | read =>
      simp only [Lock.admits, Table.has, Bool.or_eq_true, Option.isSome_iff_ne_none,
        Bool.and_eq_true, Option.isNone_iff_eq_none] at hadmits
      -- who reads already may read again although a writer is queued, but then nobody writes
      rcases hadmits with hreads | ⟨hfree, -⟩
      · by_contra hwriter
        exact hreads (h.exclusive hwriter t)
      · exact hfree
  | write =>
      simp only [Lock.admits, Bool.and_eq_true, Option.isNone_iff_eq_none] at hadmits
      exact hadmits.1

/-- Nobody reads a lock that admits a writer. -/
theorem depths_eq_none_of_admits (hadmits : s.lock.admits t .write = true) (other : τ) :
    s.lock.depths.get? other = none := by
  simp only [Lock.admits, Bool.and_eq_true, beq_iff_eq] at hadmits
  exact Lock.get?_depths_of_readers_eq_zero hadmits.2 other

/-- A thread that the lock admits begins a block, from the queue or at once. -/
theorem IsSafe.acquire (h : s.IsSafe) (hadmits : s.lock.admits t side = true) {l : Lock τ}
    (hwriter : l.writer = s.lock.writer) (hdepths : l.depths = s.lock.depths) :
    (s.update t (l.acquire t side) ⟨side :: (s.caller t).blocks, none⟩).IsSafe := by
  have hrecords : ∀ u, l.Records u (s.caller u).blocks :=
    fun u => (h.records u).of_eq hwriter hdepths
  have hfree : l.writer = none := hwriter.trans (h.writer_eq_none hadmits)
  constructor
  · intro u
    rw [lock_update, caller_update]
    split
    next hu =>
      subst hu
      refine (hrecords t).acquire hfree fun hside => ?_
      rw [hdepths]
      exact depths_eq_none_of_admits (hside ▸ hadmits) t
    next hu => exact (hrecords u).acquire_other (Ne.symm hu) hfree
  · intro hwritten u
    rw [lock_update] at hwritten ⊢
    cases side with
    | read => exact absurd hfree hwritten
    | write =>
        change l.depths.get? u = none
        rw [hdepths]
        exact depths_eq_none_of_admits hadmits u

/-- A thread joins the queue or leaves it. -/
theorem IsSafe.queue (h : s.IsSafe) {l : Lock τ} (hwriter : l.writer = s.lock.writer)
    (hdepths : l.depths = s.lock.depths) (waiting : Option Side) :
    (s.update t l ⟨(s.caller t).blocks, waiting⟩).IsSafe := by
  constructor
  · intro u
    have hblocks : ((s.update t l ⟨(s.caller t).blocks, waiting⟩).caller u).blocks =
        (s.caller u).blocks := by
      rw [caller_update]
      split
      next hu => rw [hu]
      next => rfl
    rw [hblocks]
    exact (h.records u).of_eq hwriter hdepths
  · rw [lock_update, hwriter, hdepths]
    exact h.exclusive

/-- A thread ends its innermost block. -/
theorem IsSafe.release (h : s.IsSafe) {blocks : List Side}
    (hcaller : s.caller t = ⟨side :: blocks, none⟩) :
    (s.update t (s.lock.release t side) ⟨blocks, none⟩).IsSafe := by
  have ht : s.lock.Records t (side :: blocks) := by
    have := h.records t
    rwa [hcaller] at this
  constructor
  · intro u
    rw [lock_update, caller_update]
    split
    next hu =>
      subst hu
      exact ht.release
    next hu =>
      exact (h.records u).release_other (Ne.symm hu) fun hside => ht.writer_eq (by simp [hside])
  · intro hwritten u
    rw [lock_update] at hwritten ⊢
    cases side with
    | read =>
        rw [Lock.writer_release_read] at hwritten
        exact absurd (h.exclusive hwritten t) (ht.depth_ne_none (by simp))
    | write => exact absurd rfl hwritten

/-- Every transition keeps a lock safe. -/
theorem IsSafe.step (h : s.IsSafe) (hstep : s.step t move = some e) : e.threads.IsSafe := by
  have htransition := transition_of_step hstep
  generalize e.outcome = outcome, e.threads = s' at htransition
  cases htransition with
  | refused => exact h
  | entered _ _ hadmits => exact h.acquire hadmits rfl rfl
  | waits => exact h.queue (Lock.writer_enqueue _ _) (Lock.depths_enqueue _ _) _
  | resumed _ hadmits =>
      exact h.acquire hadmits (Lock.writer_dequeue _ _) (Lock.depths_dequeue _ _)
  | gaveUp => exact h.queue (Lock.writer_dequeue _ _) (Lock.depths_dequeue _ _) _
  | left hcaller => exact h.release hcaller

/-- Whatever the threads do, and in whatever order, the lock is safe. -/
theorem Reachable.isSafe (h : Reachable s) : s.IsSafe := by
  induction h with
  | start => exact isSafe_start
  | step _ hstep ih => exact ih.step hstep

/-- Two threads do not hold a safe lock together if one of them writes. -/
theorem IsSafe.eq_of_write (h : s.IsSafe) (ht : .write ∈ (s.caller t).blocks)
    (hother : (s.caller other).blocks ≠ []) : other = t := by
  have hwriter : s.lock.writer = some t := (h.records t).writer_eq ht
  have hdepth : s.lock.depths.get? other = none := h.exclusive (by simp [hwriter]) other
  obtain ⟨side, hside⟩ := List.exists_mem_of_ne_nil _ hother
  cases side with
  | read => exact absurd hdepth ((h.records other).depth_ne_none hside)
  | write => exact Option.some.inj (((h.records other).writer_eq hside).symm.trans hwriter)

/-- Nothing keeps a thread without a block from waiting. -/
theorem IsSafe.refusal_eq_none (h : s.IsSafe) (hblocks : (s.caller t).blocks = []) (side : Side) :
    s.lock.refusal? t side = none := by
  have hrecords := h.records t
  rw [hblocks] at hrecords
  cases hrecords with
  | idle hwriter hdepth => cases side <;> simp [Lock.refusal?, Table.has, hwriter, hdepth]

/-- A thread without a block is never refused. -/
theorem IsSafe.outcome_ne_refused (h : s.IsSafe) (hblocks : (s.caller t).blocks = [])
    (hstep : s.step t move = some e) (error : LockError) : e.outcome ≠ .refused error := by
  intro houtcome
  have htransition := transition_of_step hstep
  rw [houtcome] at htransition
  generalize e.threads = s' at htransition
  cases htransition with
  | refused _ hrefusal =>
      rw [h.refusal_eq_none hblocks] at hrefusal
      cases hrefusal

end Safety

end Threads
end Phrasebook
