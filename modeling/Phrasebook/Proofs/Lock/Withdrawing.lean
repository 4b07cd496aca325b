import Phrasebook.Lock.Run
import Phrasebook.Proofs.Lock.Queue

/-!
# Attempts that fail

An attempt to enter a side of a lock that ends in an error leaves the lock as the other threads make
it.

**Traces.**  A trace keeps who moved, how, and what became of it.  `Lock.behind` is what an act does
to a lock, so that a lock can also be followed through a part of the acts.
**Failures.**  `Failure` says what a thread does in an attempt that fails: nothing if its timeout is
no timeout, else it is refused, or it waits and gives up.
**Results.**
* `Trace.lock_eq_joined`: while a thread acquires nothing, the lock knows it only as a member of
  the queue.
* `Reachable.lock_of_failure`: behind an attempt that failed, the lock is what it is behind the acts
  of the others alone.
-/

namespace Phrasebook

universe u

/-- What a thread did, and what became of it. -/
structure Act (τ : Type u) where
  thread : τ
  move : Move
  outcome : Outcome

namespace Act

variable {τ : Type u}

/-- Does a thread leave the queue for a side in an act? -/
def Leaves (a : Act τ) (side : Side) : Prop :=
  a.outcome = .gaveUp side ∨ a.move = .resume ∧ a.outcome = .acquired side

variable [DecidableEq τ]

/-- The acts of a thread. -/
def own (t : τ) (acts : List (Act τ)) : List (Act τ) :=
  acts.filter fun a => a.thread = t

/-- The acts of the other threads. -/
def others (t : τ) (acts : List (Act τ)) : List (Act τ) :=
  acts.filter fun a => a.thread ≠ t

theorem own_append (t : τ) (acts more : List (Act τ)) :
    own t (acts ++ more) = own t acts ++ own t more :=
  List.filter_append acts more

theorem others_append (t : τ) (acts more : List (Act τ)) :
    others t (acts ++ more) = others t acts ++ others t more :=
  List.filter_append acts more

theorem own_eq_nil {t : τ} {acts : List (Act τ)} (h : ∀ a ∈ acts, a.thread ≠ t) :
    own t acts = [] := by
  simpa [own] using h

theorem own_others (t : τ) (acts : List (Act τ)) : own t (others t acts) = [] :=
  own_eq_nil fun a ha => by simpa using (List.mem_filter.1 ha).2

theorem own_others_of_ne {t u : τ} (h : u ≠ t) (acts : List (Act τ)) :
    own u (others t acts) = own u acts := by
  rw [own, others, List.filter_filter, own]
  refine List.filter_congr fun a _ => ?_
  by_cases ha : a.thread = u <;> simp [ha, h]

end Act

/-- What a thread has to do with the lock behind an act of its own. -/
def Caller.behind (c : Caller) : Outcome → Caller
  | .refused _ => c
  | .acquired side => ⟨side :: c.blocks, none⟩
  | .waits side => ⟨c.blocks, some side⟩
  | .gaveUp _ => ⟨c.blocks, none⟩
  | .left _ => ⟨c.blocks.tail, none⟩

/-- Does a thread neither begin nor end a block? -/
def Outcome.KeepsBlocks : Outcome → Prop
  | .refused _ | .waits _ | .gaveUp _ => True
  | .acquired _ | .left _ => False

namespace Lock

section Acts

variable {τ : Type u} {l : Lock τ}

/-- A lock with one more thread in the queue, if there is one to wait. -/
def joined (l : Lock τ) : Option Side → Lock τ
  | none => l
  | some side => l.enqueue side

theorem dequeue_enqueue (l : Lock τ) (side : Side) : (l.enqueue side).dequeue side = l := by
  cases side <;> rfl

/-- It does not matter which of two writers came first, if another one leaves the queue. -/
theorem dequeue_enqueue_write {side : Side} (h : side = .write → 0 < l.queued) :
    (l.enqueue .write).dequeue side = (l.dequeue side).enqueue .write := by
  cases side with
  | read => rfl
  | write =>
      have hqueued := h rfl
      simp only [enqueue, dequeue, Lock.mk.injEq, true_and]
      omega

variable [DecidableEq τ] {a : Act τ}

/-- A lock behind an act. -/
def behind (l : Lock τ) (a : Act τ) : Lock τ :=
  match a.outcome with
  | .refused _ => l
  | .acquired side =>
      if a.move = .resume then (l.dequeue side).acquire a.thread side
      else l.acquire a.thread side
  | .waits side => l.enqueue side
  | .gaveUp side => l.dequeue side
  | .left side => l.release a.thread side

/-- A lock behind acts. -/
def behindAll (l : Lock τ) (acts : List (Act τ)) : Lock τ :=
  acts.foldl behind l

theorem behindAll_concat (l : Lock τ) (acts : List (Act τ)) (a : Act τ) :
    l.behindAll (acts ++ [a]) = (l.behindAll acts).behind a := by
  rw [behindAll, List.foldl_append]
  rfl

theorem refusal?_joined (l : Lock τ) (waiting : Option Side) (t : τ) (side : Side) :
    (l.joined waiting).refusal? t side = l.refusal? t side := by
  match waiting, side with
  | none, _ => rfl
  | some .read, _ => rfl
  | some .write, .read => rfl
  | some .write, .write => rfl

theorem admits_joined_write (l : Lock τ) (waiting : Option Side) (t : τ) :
    (l.joined waiting).admits t .write = l.admits t .write := by
  match waiting with
  | none => rfl
  | some .read => rfl
  | some .write => rfl

/-- One thread less in the queue is no reason to wait. -/
theorem admits_of_joined {waiting : Option Side} {t : τ} {side : Side}
    (h : (l.joined waiting).admits t side = true) : l.admits t side = true := by
  match waiting, side with
  | none, _ => exact h
  | some .read, _ => exact h
  | some .write, .write => exact h
  | some .write, .read =>
      -- with a writer in the queue, only who reads already is admitted
      have hreads : l.depths.has t = true := by simpa [joined, admits, enqueue] using h
      rw [admits, hreads, Bool.true_or]

theorem acquire_enqueue_write (l : Lock τ) (t : τ) (side : Side) :
    (l.enqueue .write).acquire t side = (l.acquire t side).enqueue .write := by
  cases side <;> rfl

theorem release_enqueue_write (l : Lock τ) (t : τ) (side : Side) :
    (l.enqueue .write).release t side = (l.release t side).enqueue .write := by
  cases side with
  | read =>
      have hdepth : (l.enqueue .write).depth t = l.depth t := rfl
      simp only [release, hdepth]
      split <;> rfl
  | write => rfl

/-- An act does the same to a lock with one more thread in the queue. -/
theorem behind_joined {waiting : Option Side}
    (h : waiting = some .write → a.Leaves .write → 0 < l.queued) :
    (l.joined waiting).behind a = (l.behind a).joined waiting := by
  obtain ⟨t, move, outcome⟩ := a
  match waiting with
  | none => rfl
  | some .read => rfl
  | some .write =>
      simp only [joined]
      cases outcome with
      | refused e => rfl
      | acquired side =>
          by_cases hmove : move = .resume
          · have hdequeue : (l.enqueue .write).dequeue side = (l.dequeue side).enqueue .write :=
              dequeue_enqueue_write fun hside => h rfl (.inr ⟨hmove, by rw [hside]⟩)
            simp only [behind, if_pos hmove, hdequeue, acquire_enqueue_write]
          · simp only [behind, if_neg hmove, acquire_enqueue_write]
      | waits side => cases side <;> rfl
      | gaveUp side =>
          exact dequeue_enqueue_write fun hside => h rfl (.inl (by rw [hside]))
      | left side => exact release_enqueue_write l t side

end Acts

end Lock

namespace Threads

section Traces

variable {τ : Type u} [DecidableEq τ] {s s' : Threads τ} {t other : τ} {move : Move} {e : Effect τ}
  {acts : List (Act τ)}

/-- What the threads do one after the other, and what it leads to. -/
inductive Trace (s : Threads τ) : List (Act τ) → Threads τ → Prop
  | nil : Trace s [] s
  | step {acts : List (Act τ)} {x : Threads τ} {t : τ} {move : Move} {e : Effect τ}
      (h : Trace s acts x) (hstep : x.step t move = some e) :
      Trace s (acts ++ [⟨t, move, e.outcome⟩]) e.threads

/-- A step does to the lock and to the moving thread what its outcome says. -/
theorem behind_of_step (h : s.step t move = some e) :
    e.threads.lock = s.lock.behind ⟨t, move, e.outcome⟩ ∧
      e.threads.caller t = (s.caller t).behind e.outcome := by
  have htransition := transition_of_step h
  generalize e.outcome = outcome, e.threads = s' at htransition ⊢
  cases htransition with
  | left hcaller => simp [Lock.behind, Caller.behind, hcaller]
  | _ => simp [Lock.behind, Caller.behind]

/-- The lock behind a trace. -/
theorem Trace.lock_eq_behindAll (h : Trace s acts s') : s'.lock = s.lock.behindAll acts := by
  induction h with
  | nil => rfl
  | step _ hstep ih => rw [Lock.behindAll_concat, ← ih, (behind_of_step hstep).1]

/-- The acts of a thread say what it has to do with the lock behind a trace. -/
theorem Trace.caller_eq (h : Trace s acts s') (t : τ) :
    s'.caller t = (Act.own t acts).foldl (fun c a => c.behind a.outcome) (s.caller t) := by
  induction h with
  | nil => rfl
  | @step acts x mover move e _ hstep ih =>
      rw [Act.own_append, List.foldl_append, ← ih]
      by_cases hmover : mover = t
      · subst hmover
        simpa [Act.own] using (behind_of_step hstep).2
      · simpa [Act.own, hmover] using caller_of_step hstep (Ne.symm hmover)

theorem Trace.isOrderly (h : Trace s acts s') (hs : s.IsOrderly) : s'.IsOrderly := by
  induction h with
  | nil => exact hs
  | step _ hstep ih => exact ih.step hstep

/-- Who leaves the queue for a side has waited for it. -/
theorem waiting?_of_leaves {side : Side} (h : s.step t move = some e)
    (hleaves : Act.Leaves ⟨t, move, e.outcome⟩ side) : s.waiting? t = some side := by
  have htransition := transition_of_step h
  generalize e.outcome = outcome, e.threads = s' at htransition hleaves
  rcases hleaves with houtcome | ⟨hmove, houtcome⟩
  · simp only at houtcome
    subst houtcome
    cases htransition with
    | gaveUp hwaiting => exact hwaiting
  · simp only at hmove houtcome
    subst hmove houtcome
    cases htransition with
    | resumed hwaiting => exact hwaiting

/-- Two writers in the queue. -/
theorem IsOrderly.one_lt_queued (h : s.IsOrderly) (hne : other ≠ t)
    (ht : s.waiting? t = some .write) (hother : s.waiting? other = some .write) :
    1 < s.lock.queued := by
  rw [h.counts]
  exact Finset.one_lt_card.2 ⟨other, mem_waitingFor.2 hother, t, mem_waitingFor.2 ht, hne⟩

/-- While a thread neither begins nor ends a block, the lock is what it is behind the acts of the
others, with the thread in the queue if it waits. -/
theorem Trace.lock_eq_joined (h : Trace s acts s') (hs : s.IsOrderly) (hidle : s.waiting? t = none)
    (hown : ∀ a ∈ Act.own t acts, a.outcome.KeepsBlocks) :
    s'.lock = (s.lock.behindAll (Act.others t acts)).joined (s'.waiting? t) := by
  induction h with
  | nil =>
      rw [hidle]
      rfl
  | @step acts x mover move e h hstep ih =>
      rw [Act.own_append] at hown
      have hx := ih fun a ha => hown a (List.mem_append_left _ ha)
      rw [Act.others_append]
      by_cases hmover : mover = t
      · subst hmover
        have hkeeps : e.outcome.KeepsBlocks :=
          hown ⟨mover, move, e.outcome⟩ (List.mem_append_right _ (by simp [Act.own]))
        have hothers : Act.others mover [⟨mover, move, e.outcome⟩] = [] := by simp [Act.others]
        rw [hothers, List.append_nil]
        have htransition := transition_of_step hstep
        generalize e.outcome = outcome, e.threads = x' at htransition hkeeps ⊢
        cases htransition with
        | refused => exact hx
        | entered => exact hkeeps.elim
        | waits hwaiting =>
            rw [waiting?, hwaiting] at hx
            simp [waiting?, hx, Lock.joined]
        | resumed => exact hkeeps.elim
        | gaveUp hwaiting =>
            rw [waiting?, hwaiting] at hx
            simp [waiting?, hx, Lock.joined, Lock.dequeue_enqueue]
        | left => exact hkeeps.elim
      · have hothers : Act.others t [⟨mover, move, e.outcome⟩] = [⟨mover, move, e.outcome⟩] := by
          simp [Act.others, hmover]
        have hwaiting : e.threads.waiting? t = x.waiting? t := by
          rw [waiting?, waiting?, caller_of_step hstep (Ne.symm hmover)]
        rw [hothers, hwaiting, (behind_of_step hstep).1, Lock.behindAll_concat, hx]
        -- another writer that leaves the queue is there beside the thread
        refine Lock.behind_joined fun hwrite hleaves => ?_
        have hqueued :=
          (h.isOrderly hs).one_lt_queued hmover hwrite (waiting?_of_leaves hstep hleaves)
        rw [hx, hwrite, Lock.joined, Lock.queued_enqueue, if_pos rfl] at hqueued
        exact Nat.lt_of_succ_lt_succ hqueued

end Traces

section Comparison

variable {τ : Type u} [DecidableEq τ] {s s' y : Threads τ} {t mover : τ} {move : Move}
  {e : Effect τ} {outcome : Outcome} {side : Side} {waiting : Option Side}
  {acts more : List (Act τ)}

theorem step_resume (hwaiting : s.waiting? t = some side)
    (hadmits : s.lock.admits t side = true) : s.step t .resume = some (s.resume t side) := by
  obtain ⟨blocks, hcaller⟩ : ∃ blocks, s.caller t = ⟨blocks, some side⟩ :=
    ⟨(s.caller t).blocks, by rw [← hwaiting]; rfl⟩
  simp only [step, hcaller, if_pos hadmits]

theorem step_giveUp (hwaiting : s.waiting? t = some side)
    (hadmits : s.lock.admits t side = false) : s.step t .giveUp = some (s.giveUp t side) := by
  obtain ⟨blocks, hcaller⟩ : ∃ blocks, s.caller t = ⟨blocks, some side⟩ :=
    ⟨(s.caller t).blocks, by rw [← hwaiting]; rfl⟩
  simp [step, hcaller, hadmits]

/-- Every transition is one of a step. -/
theorem exists_step (h : Transition s t move outcome s') :
    ∃ e, s.step t move = some e ∧ e.outcome = outcome := by
  cases h with
  | refused hwaiting hrefusal =>
      exact ⟨_, step_enter hwaiting _, by simp [enter, hrefusal]⟩
  | entered hwaiting hrefusal hadmits =>
      exact ⟨_, step_enter hwaiting _, by simp [enter, hrefusal, hadmits]⟩
  | waits hwaiting hrefusal hadmits =>
      exact ⟨_, step_enter hwaiting _, by simp [enter, hrefusal, hadmits]⟩
  | resumed hwaiting hadmits => exact ⟨_, step_resume hwaiting hadmits, rfl⟩
  | gaveUp hwaiting hadmits => exact ⟨_, step_giveUp hwaiting hadmits, rfl⟩
  | @left side blocks hcaller => exact ⟨s.leave t side blocks, by simp only [step, hcaller], rfl⟩

/-- Without one thread in the queue a thread can act in the same way, unless it is a reader whom
only this thread keeps waiting. -/
theorem exists_step_alike (hlock : s.lock = y.lock.joined waiting)
    (hcaller : y.caller mover = s.caller mover) (h : s.step mover move = some e)
    (hread : e.outcome = .waits .read ∨ e.outcome = .gaveUp .read →
      y.lock.admits mover .read = false) :
    ∃ e', y.step mover move = some e' ∧ e'.outcome = e.outcome := by
  have hrefusal : ∀ side, y.lock.refusal? mover side = s.lock.refusal? mover side := fun side => by
    rw [hlock, Lock.refusal?_joined]
  have hadmitted : ∀ {side}, s.lock.admits mover side = true → y.lock.admits mover side = true :=
    fun hadmits => Lock.admits_of_joined (hlock ▸ hadmits)
  have hheld : ∀ {side}, s.lock.admits mover side = false →
      (side = .read → y.lock.admits mover .read = false) → y.lock.admits mover side = false := by
    intro side hadmits hside
    cases side with
    | read => exact hside rfl
    | write => rwa [hlock, Lock.admits_joined_write] at hadmits
  have htransition := transition_of_step h
  generalize e.outcome = outcome, e.threads = s' at htransition hread ⊢
  cases htransition with
  | refused hwaiting hrefuses =>
      exact exists_step (.refused (hcaller ▸ hwaiting) ((hrefusal _).trans hrefuses))
  | entered hwaiting hrefuses hadmits =>
      exact exists_step
        (.entered (hcaller ▸ hwaiting) ((hrefusal _).trans hrefuses) (hadmitted hadmits))
  | waits hwaiting hrefuses hadmits =>
      exact exists_step (.waits (hcaller ▸ hwaiting) ((hrefusal _).trans hrefuses)
        (hheld hadmits fun hside => hread (.inl (by rw [hside]))))
  | resumed hwaiting hadmits =>
      exact exists_step (.resumed (hcaller ▸ hwaiting) (hadmitted hadmits))
  | gaveUp hwaiting hadmits =>
      exact exists_step (.gaveUp (hcaller ▸ hwaiting)
        (hheld hadmits fun hside => hread (.inr (by rw [hside]))))
  | left hblocks => exact exists_step (.left (hcaller.trans hblocks))

/-- Is there a reader among the others who begins to wait, or waits no longer, while the lock would
admit it behind the acts of the others alone? -/
def HoldsBack (s : Threads τ) (t : τ) (acts : List (Act τ)) : Prop :=
  ∃ front a back, acts = front ++ a :: back ∧ a.thread ≠ t ∧
    (a.outcome = .waits .read ∨ a.outcome = .gaveUp .read) ∧
    (s.lock.behindAll (Act.others t front)).admits a.thread .read = true

theorem HoldsBack.append (h : HoldsBack s t acts) (more : List (Act τ)) :
    HoldsBack s t (acts ++ more) := by
  obtain ⟨front, a, back, rfl, ha⟩ := h
  exact ⟨front, a, back ++ more, by simp, ha⟩

/-- The others can act in the same way without a thread that acquires nothing, unless the thread
holds a reader back. -/
theorem Trace.exists_others (h : Trace s acts s') (hs : s.IsOrderly) (hidle : s.waiting? t = none)
    (hown : ∀ a ∈ Act.own t acts, a.outcome.KeepsBlocks) :
    (∃ y, Trace s (Act.others t acts) y) ∨ HoldsBack s t acts := by
  induction h with
  | nil => exact .inl ⟨s, .nil⟩
  | @step acts x mover move e h hstep ih =>
      rw [Act.own_append] at hown
      have hbefore : ∀ a ∈ Act.own t acts, a.outcome.KeepsBlocks :=
        fun a ha => hown a (List.mem_append_left _ ha)
      rcases ih hbefore with ⟨y, hy⟩ | hholds
      · rw [Act.others_append]
        by_cases hmover : mover = t
        · exact .inl ⟨y, by simpa [Act.others, hmover] using hy⟩
        · have hothers : Act.others t [⟨mover, move, e.outcome⟩] = [⟨mover, move, e.outcome⟩] := by
            simp [Act.others, hmover]
          have hlock : x.lock = y.lock.joined (x.waiting? t) := by
            rw [hy.lock_eq_behindAll]
            exact h.lock_eq_joined hs hidle hbefore
          have hcaller : y.caller mover = x.caller mover := by
            rw [hy.caller_eq, h.caller_eq, Act.own_others_of_ne hmover]
          by_cases hread : (e.outcome = .waits .read ∨ e.outcome = .gaveUp .read) ∧
              y.lock.admits mover .read = true
          · refine .inr ⟨acts, ⟨mover, move, e.outcome⟩, [], rfl, hmover, hread.1, ?_⟩
            rw [← hy.lock_eq_behindAll]
            exact hread.2
          · obtain ⟨e', he', houtcome⟩ := exists_step_alike hlock hcaller hstep fun houtcome =>
              Bool.eq_false_iff.2 fun hadmits => hread ⟨houtcome, hadmits⟩
            rw [hothers, ← houtcome]
            exact .inl ⟨_, hy.step he'⟩
      · exact .inr (hholds.append _)

end Comparison

section Failures

variable {τ : Type u} {t : τ} {side : Side} {timeout : Option Timeout} {error : LockError}
  {acts : List (Act τ)}

/-- What a thread does in an attempt to enter a side that ends in an error. -/
inductive Failure (t : τ) (side : Side) (timeout : Option Timeout) :
    LockError → List (Act τ) → Prop
  | invalid {error : LockError} (h : timeout.bind Timeout.refusal? = some error) :
      Failure t side timeout error []
  | refused {error : LockError} (h : timeout.bind Timeout.refusal? = none) :
      Failure t side timeout error [⟨t, .enter side, .refused error⟩]
  | timedOut {time : Timeout} (htimeout : timeout = some time) (h : time.refusal? = none) :
      Failure t side timeout (time.expiry side)
        [⟨t, .enter side, .waits side⟩, ⟨t, .giveUp, .gaveUp side⟩]

theorem Failure.keepsBlocks (h : Failure t side timeout error acts) :
    ∀ a ∈ acts, a.outcome.KeepsBlocks := by
  cases h with
  | invalid => exact fun a ha => nomatch ha
  | refused => simp [Outcome.KeepsBlocks]
  | timedOut => simp [Outcome.KeepsBlocks]

/-- A thread that waits for nothing has nothing more to do with the lock behind a failure. -/
theorem Failure.foldl_behind (h : Failure t side timeout error acts) {c : Caller}
    (hidle : c.waiting = none) : acts.foldl (fun c a => c.behind a.outcome) c = c := by
  cases h with
  | invalid => rfl
  | refused => rfl
  | timedOut =>
      obtain ⟨blocks, waiting⟩ := c
      cases hidle
      rfl

variable [DecidableEq τ] {s s' x : Threads τ} {e : Effect τ} {more : List (Act τ)}

theorem Trace.append (h : Trace s acts x) (hmore : Trace x more s') :
    Trace s (acts ++ more) s' := by
  induction hmore with
  | nil => rwa [List.append_nil]
  | step _ hstep ih =>
      rw [← List.append_assoc]
      exact ih.step hstep

/-- Only threads that wait go on while the lock settles. -/
theorem exists_trace_settle (fuel : Nat) (s : Threads τ) :
    ∃ acts, Trace s acts (s.settle fuel).1 ∧ ∀ a ∈ acts, s.waiting? a.thread ≠ none := by
  induction fuel generalizing s with
  | zero => exact ⟨[], .nil, nofun⟩
  | succ fuel ih =>
      cases hnext : s.resumable? with
      | none => exact ⟨[], by simpa only [settle, hnext] using Trace.nil, nofun⟩
      | some found =>
          obtain ⟨u, side, next⟩ := found
          obtain ⟨e, hstep, rfl⟩ : ∃ e, s.step u .resume = some e ∧ e.threads = next := by
            obtain ⟨v, -, hv⟩ := List.exists_of_findSome?_eq_some hnext
            split at hv
            next hstep =>
              cases hv
              exact ⟨_, hstep, rfl⟩
            next => cases hv
          obtain ⟨acts, htrace, hwaiting⟩ := ih e.threads
          refine ⟨[⟨u, .resume, e.outcome⟩] ++ acts, ?_, ?_⟩
          · simp only [settle, hnext]
            exact (Trace.nil.step hstep).append htrace
          · have hu : s.waiting? u ≠ none := by
              have htransition := transition_of_step hstep
              generalize e.outcome = outcome, e.threads = next at htransition
              cases htransition with
              | resumed hwaits => simp [waiting?, hwaits]
            intro a ha
            rcases List.mem_append.1 ha with ha | ha
            · rw [List.mem_singleton.1 ha]
              exact hu
            · by_cases hau : a.thread = u
              · rwa [hau]
              · have hsame := caller_of_step hstep hau
                rw [waiting?, ← hsame]
                exact hwaiting a ha

theorem waiting?_of_waits (h : s.step t (.enter side) = some e) {waits : Side}
    (houtcome : e.outcome = .waits waits) :
    waits = side ∧ e.threads.waiting? t = some side := by
  have htransition := transition_of_step h
  rw [houtcome] at htransition
  generalize e.threads = x at htransition
  cases htransition with
  | waits => simp [waiting?]

theorem outcome_of_giveUp (h : s.step t .giveUp = some e) (hwaiting : s.waiting? t = some side) :
    e.outcome = .gaveUp side ∧ e.threads.waiting? t = none := by
  have htransition := transition_of_step h
  generalize e.outcome = outcome, e.threads = x at htransition ⊢
  cases htransition with
  | gaveUp hwaits =>
      rw [waiting?, hwaits, Option.some.injEq] at hwaiting
      simp [waiting?, hwaiting]

/-- A call that fails is an attempt that fails, with what settles behind it. -/
theorem exists_failure {done : List (Finished τ)}
    (h : s.enterWithin t side timeout = some (s', ⟨t, some side, .error error⟩ :: done)) :
    ∃ acts, Trace s acts s' ∧ Failure t side timeout error (Act.own t acts) := by
  rw [enterWithin] at h
  split at h
  next => cases h
  next e hstep =>
    have htrace := Trace.nil.step hstep
    split at h
    next refusal hrefusal =>
      cases h
      exact ⟨[], .nil, .invalid hrefusal⟩
    next hrefusal =>
      split at h
      next refusal houtcome =>
        cases h
        have htransition := transition_of_step hstep
        rw [houtcome] at htrace htransition
        generalize e.threads = x at htrace htransition
        cases htransition with
        | refused => exact ⟨_, htrace, by simpa [Act.own] using Failure.refused hrefusal⟩
      next => cases h
      next waits time houtcome =>
        obtain ⟨given, hgiven, hsettled⟩ := Option.map_eq_some_iff.1 h
        simp only [settled, Prod.mk.injEq, List.singleton_append, List.cons.injEq,
          Finished.mk.injEq, Except.error.injEq, true_and] at hsettled
        obtain ⟨rfl, rfl, -⟩ := hsettled
        obtain ⟨rfl, hwaiting⟩ := waiting?_of_waits hstep houtcome
        obtain ⟨hgaveUp, hidle⟩ := outcome_of_giveUp hgiven hwaiting
        obtain ⟨settling, hsettling, hothers⟩ :=
          exists_trace_settle given.threads.callers.size given.threads
        have hown : Act.own t settling = [] := by
          refine Act.own_eq_nil fun a ha heq => hothers a ha ?_
          rw [heq, hidle]
        refine ⟨_, (htrace.step hgiven).append hsettling, ?_⟩
        rw [houtcome, hgaveUp, Act.own_append, hown]
        simpa [Act.own] using Failure.timedOut rfl hrefusal
      next => simp [settled] at h

/-- An attempt that fails leaves no trace, whatever the other threads do before it, meanwhile and
behind it.  The lock is what it is behind their acts alone, and the thread has in hand what it had.
Unless the attempt has held a reader back, the others can act in the same way without it, and then
all is the same; and whoever is held back by nothing else can go on. -/
theorem Reachable.lock_of_failure (h : Reachable s) (hidle : s.waiting? t = none)
    (htrace : Trace s acts s') (hfailure : Failure t side timeout error (Act.own t acts)) :
    s'.lock = s.lock.behindAll (Act.others t acts) ∧ s'.caller t = s.caller t ∧
      ((∃ y, Trace s (Act.others t acts) y) ∨ HoldsBack s t acts) ∧
      (∀ y, Trace s (Act.others t acts) y → s'.lock = y.lock ∧ ∀ u, s'.caller u = y.caller u) ∧
      ∀ u side, s'.waiting? u = some side →
        (s.lock.behindAll (Act.others t acts)).admits u side = true →
        ∃ e, s'.step u .resume = some e ∧ e.outcome = .acquired side := by
  have hcaller : s'.caller t = s.caller t := by
    rw [htrace.caller_eq, hfailure.foldl_behind hidle]
  have hlock : s'.lock = s.lock.behindAll (Act.others t acts) := by
    have hwaiting : s'.waiting? t = none := by rw [waiting?, hcaller]; exact hidle
    rw [htrace.lock_eq_joined h.isOrderly hidle hfailure.keepsBlocks, hwaiting]
    rfl
  refine ⟨hlock, hcaller, htrace.exists_others h.isOrderly hidle hfailure.keepsBlocks,
    fun y hy => ⟨hlock.trans hy.lock_eq_behindAll.symm, fun u => ?_⟩,
    fun u side hwaiting hadmits => ⟨_, step_resume hwaiting (hlock ▸ hadmits), rfl⟩⟩
  by_cases hu : u = t
  · rw [hu, hcaller, hy.caller_eq, Act.own_others, List.foldl_nil]
  · rw [htrace.caller_eq, hy.caller_eq, Act.own_others_of_ne hu]

/-- A reader, an attempt to write behind it, and a second reader behind the attempt.  The first one
reads on, and as soon as the attempt has failed the second one can read too. -/
theorem Reachable.lock_of_failure_reader :
    ∃ (s s' : Threads Nat) (acts : List (Act Nat)), Reachable s ∧ s.waiting? 1 = none ∧
      Trace s acts s' ∧ Failure 1 .write (some (.whole 1)) (.timedOut .write) (Act.own 1 acts) ∧
      s'.lock.depth 0 = 2 ∧ s'.lock.writer = none ∧ s'.lock.queued = 0 ∧
      s'.caller 1 = .idle ∧ s'.waiting? 2 = some .read ∧
      ∃ e, s'.step 2 .resume = some e ∧ e.outcome = .acquired .read := by
  have hs := Reachable.step .start
    (rfl : (Threads.start : Threads Nat).step 0 (.enter .read) = some _)
  have h₀ : ∀ {s : Threads Nat}, Reachable s → Trace s [] s := fun _ => .nil
  have h₁ := (h₀ hs).step (rfl : Threads.step _ 1 (.enter .write) = some _)
  have h₂ := h₁.step (rfl : Threads.step _ 2 (.enter .read) = some _)
  have h₃ := h₂.step (rfl : Threads.step _ 0 (.enter .read) = some _)
  have h₄ := h₃.step (rfl : Threads.step _ 1 .giveUp = some _)
  have hfailure : Failure 1 .write (some (.whole 1)) ((Timeout.whole 1).expiry .write)
      [⟨1, .enter .write, .waits .write⟩, ⟨1, .giveUp, .gaveUp .write⟩] :=
    .timedOut rfl (by decide)
  obtain ⟨hlock, hcaller, -, -, hresume⟩ := hs.lock_of_failure rfl h₄ hfailure
  refine ⟨_, _, _, hs, rfl, h₄, hfailure, ?_, ?_, ?_, hcaller, rfl, hresume 2 .read rfl rfl⟩
  · rw [hlock]
    rfl
  · rw [hlock]
    rfl
  · rw [hlock]
    rfl

end Failures

end Threads
end Phrasebook
