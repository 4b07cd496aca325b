import Phrasebook.Proofs.Resolver.Interleaving

/-!
# One selection per reply

What threads that share a resolver are answered, in whatever order their steps come.

**Histories.**  `lastInstalled` is the selection that the last installing of a history put in place.
**Invariant.**  `System.IsSound`: an inquiry has not looked yet, or comes to the reply of the
selection that is installed, or has come to the reply of one that was.  The second holds inside a
block, where the selection stays, for who installs has the lock for itself.
**Result.**  `Run.answers_whole`: an inquiry is answered by one selection that was installed
between its beginning and its end.  How long a thread waits for the lock is not part of it.
-/

namespace Phrasebook

universe u

variable {τ : Type u}

/-- The selection that a step installs, if it does. -/
def Occurrence.install? : Occurrence → Option (Option Selection)
  | .installed selection => some selection
  | _ => none

/-- The selection that the last installing put in place of the first one. -/
def lastInstalled (first : Option Selection) (past : List (Entry τ)) : Option Selection :=
  ((past.filterMap fun e => e.what.install?).getLast?).getD first

/-- Is this the reply of a selection that was installed behind the beginning of an inquiry, at most
so many steps into the history? -/
def Seen [Machine] (r : Resolver) (past : List (Entry τ)) (start bound : Nat) (i : Inquiry)
    (reply : Reply) : Prop :=
  ∃ k, start < k ∧ k ≤ bound ∧
    reply = (Resolver.holding r.config (lastInstalled r.selection (past.take k))).reply i

/-- Can a program that an inquiry is at come to a right reply? -/
inductive Answering [Machine] (config : Config) (i : Inquiry) (selection : Option Selection)
    (seen : Reply → Prop) : Program → Prop
  | asked : Answering config i selection seen (.enter .read (i.body config))
  | inside {p : Program}
      (h : p.LeadsTo selection (.ok ((Resolver.holding config selection).reply i))) :
      Answering config i selection seen p
  | answered {reply : Reply} (h : seen reply) :
      Answering config i selection seen (.replying reply)

section Histories

theorem lastInstalled_append (first : Option Selection) (past : List (Entry τ)) (t : τ)
    (what : Occurrence) :
    lastInstalled first (past ++ [⟨t, what⟩]) = what.install?.getD (lastInstalled first past) := by
  cases hwhat : what.install? <;> simp [lastInstalled, hwhat]

variable {r : Resolver} {past : List (Entry τ)} {e : Entry τ} {start bound : Nat} {i : Inquiry}
  {reply : Reply}

variable [Machine]

theorem Seen.append {bound' : Nat} (h : Seen r past start bound i reply)
    (hbound : bound ≤ past.length) (hle : bound ≤ bound') :
    Seen r (past ++ [e]) start bound' i reply := by
  obtain ⟨k, hstart, hk, hreply⟩ := h
  refine ⟨k, hstart, Nat.le_trans hk hle, ?_⟩
  rw [List.take_append_of_le_length (Nat.le_trans hk hbound), hreply]

/-- The reply of what is installed at the end of a history. -/
theorem seen_of_lastInstalled (hstart : start < past.length) :
    Seen r (past ++ [e]) start (past ++ [e]).length i
      ((Resolver.holding r.config (lastInstalled r.selection past)).reply i) :=
  ⟨past.length, hstart, by simp, by simp⟩

end Histories

section Programs

variable [DecidableEq τ] {config : Config} {i : Inquiry} {selection selection' : Option Selection}
  {seen seen' : Reply → Prop} {p p' : Program} {t : τ} {a a' : Shared τ} {what : Occurrence}

theorem Program.Step.selection_eq (h : p.Step t a what a' p') :
    a'.resolver.selection = what.install?.getD a.resolver.selection := by
  cases h <;> rfl

/-- A step installs nothing but what the program may install. -/
theorem Program.Step.installs {P : Option Selection → Prop} (h : p.Step t a what a' p')
    (hp : p.Installs P) :
    p'.Installs P ∧ ∀ selection, what = .installed selection → P selection := by
  cases h with
  | @enter side rest move threads outcome _ _ _ =>
      refine ⟨?_, by rintro _ ⟨⟩⟩
      cases outcome with
      | refused => trivial
      | _ => exact hp
  | leave => exact ⟨hp, by rintro _ ⟨⟩⟩
  | look => exact ⟨hp _, by rintro _ ⟨⟩⟩
  | install =>
      refine ⟨hp.2, ?_⟩
      rintro _ ⟨⟩
      exact hp.1
  | renew => exact ⟨hp _, by rintro _ ⟨⟩⟩

/-- A program that leads somewhere is inside a block. -/
theorem Program.Fits.blocks_ne_nil {c : Caller} {ending : Except Mishap Reply}
    (hfits : p.Fits c) (h : p.LeadsTo selection ending) : c.blocks ≠ [] := by
  obtain ⟨hbracketed, -⟩ := hfits
  intro hblocks
  rw [hblocks] at hbracketed
  cases h <;> cases hbracketed

variable [Machine]

theorem Answering.mono (h : Answering config i selection seen p)
    (hseen : ∀ reply, seen reply → seen' reply)
    (hinside : ∀ ending, p.LeadsTo selection ending → selection' = selection) :
    Answering config i selection' seen' p := by
  cases h with
  | asked => exact .asked
  | inside h =>
      obtain rfl := hinside _ h
      exact .inside h
  | answered h => exact .answered (hseen _ h)

/-- An inquiry goes on from what is installed to its reply. -/
theorem Program.Step.answering (h : p.Step t a what a' p') (hsafe : a.threads.IsSafe)
    (hfits : p.Fits (a.threads.caller t))
    (hp : Answering config i a.resolver.selection seen p)
    (hseen : seen ((Resolver.holding config a.resolver.selection).reply i)) :
    Answering config i a'.resolver.selection seen p' := by
  cases hp with
  | asked =>
      cases h with
      | @enter _ _ _ _ outcome _ hmove hstep =>
          have hblocks : (a.threads.caller t).blocks = [] := hfits.bracketed.eq_nil
          cases outcome with
          | refused error => exact absurd rfl (hsafe.outcome_ne_refused hblocks hstep error)
          | acquired => exact .inside (Operation.leadsTo_body config i a.resolver.selection)
          | _ => exact .asked
  | inside hleads =>
      cases hleads with
      | leave => cases h with
        -- who leaves the block has the reply of what is installed just then
        | leave hstep => exact .answered hseen
      | look hnext => cases h with
        | look => exact .inside hnext
  | answered => cases h

end Programs

section Soundness

/-- What holds of a task of a thread. -/
structure Task.IsSound [Machine] (r : Resolver) (past : List (Entry τ))
    (selection : Option Selection) (t : τ) (task : Task) : Prop where
  begun : past[task.start]? = some ⟨t, .begun task.op⟩
  installs : task.program.Installs (task.op.Makes r.config)
  answering : ∀ i, task.op = .inquire i →
    Answering r.config i selection (Seen r past task.start past.length i) task.program

/-- What holds of a step of a history. -/
structure IsSoundEntry [Machine] (r : Resolver) (past : List (Entry τ)) (m : Nat) (e : Entry τ) :
    Prop where
  ended : ∀ i start ending, e.what = .ended (.inquire i) start ending →
    past[start]? = some ⟨e.thread, .begun (.inquire i)⟩ ∧
      ∃ reply, ending = .ok reply ∧ Seen r past start m i reply
  installed : ∀ selection, e.what = .installed selection →
    ∃ (start : Nat) (op : Operation), start < m ∧
      past[start]? = some ⟨e.thread, .begun op⟩ ∧ op.Makes r.config selection

/-- What holds of a system and its history. -/
structure System.IsSound [Machine] [DecidableEq τ] (r : Resolver) (past : List (Entry τ))
    (s : System τ) : Prop where
  config_eq : s.resolver.config = r.config
  selection_eq : s.resolver.selection = lastInstalled r.selection past
  safe : s.threads.IsSafe
  stacked : ∀ t, Stacked (s.threads.caller t) (s.tasks t)
  tasks : ∀ t, ∀ task ∈ s.tasks t, task.IsSound r past s.resolver.selection t
  history : ∀ m e, past[m]? = some e → IsSoundEntry r past m e

variable {r : Resolver} {past : List (Entry τ)} {e e' : Entry τ} {t : τ} {task : Task}
  {selection selection' : Option Selection} {m : Nat}

theorem getElem?_append_of_some (h : past[m]? = some e) : (past ++ [e'])[m]? = some e := by
  obtain ⟨hm, -⟩ := List.getElem?_eq_some_iff.1 h
  rw [List.getElem?_append_left hm, h]

/-- A task stays sound while others go on, if its block is not disturbed. -/
theorem Task.IsSound.append [Machine] (h : task.IsSound r past selection t)
    (hinside : ∀ ending, task.program.LeadsTo selection ending → selection' = selection) :
    task.IsSound r (past ++ [e]) selection' t where
  begun := getElem?_append_of_some h.begun
  installs := h.installs
  answering i hop := (h.answering i hop).mono
    (fun _ hseen => hseen.append (Nat.le_refl _) (by simp)) hinside

theorem IsSoundEntry.append [Machine] (h : IsSoundEntry r past m e) (hm : m ≤ past.length) :
    IsSoundEntry r (past ++ [e']) m e where
  ended i start ending hwhat := by
    obtain ⟨hbegun, reply, hreply, hseen⟩ := h.ended i start ending hwhat
    exact ⟨getElem?_append_of_some hbegun, reply, hreply, hseen.append hm (Nat.le_refl _)⟩
  installed selection hwhat := by
    obtain ⟨start, op, hstart, hbegun, hmakes⟩ := h.installed selection hwhat
    exact ⟨start, op, hstart, getElem?_append_of_some hbegun, hmakes⟩

/-- A history goes on soundly if its next step is sound. -/
theorem soundEntries_append [Machine] (h : ∀ m e, past[m]? = some e → IsSoundEntry r past m e)
    (he' : IsSoundEntry r past past.length e') (m : Nat) (e : Entry τ)
    (he : (past ++ [e'])[m]? = some e) : IsSoundEntry r (past ++ [e']) m e := by
  rcases Nat.lt_or_ge m past.length with hm | hm
  · rw [List.getElem?_append_left hm] at he
    exact (h m e he).append (Nat.le_of_lt hm)
  · rw [List.getElem?_append_right hm, List.getElem?_singleton] at he
    split at he
    next hzero =>
      obtain rfl : m = past.length := by omega
      obtain rfl := Option.some.inj he
      exact he'.append (Nat.le_refl _)
    next => cases he

variable [DecidableEq τ] {s s' : System τ} {what : Occurrence}

/-- Only the latest task of a thread can be inside a block. -/
theorem Stacked.blocks_ne_nil {c : Caller} {tasks : List Task} {ending : Except Mishap Reply}
    (h : Stacked c tasks) (htask : task ∈ tasks)
    (hleads : task.program.LeadsTo selection ending) : c.blocks ≠ [] := by
  cases h with
  | empty => cases htask
  | push hfits hdone =>
      rcases List.mem_cons.1 htask with rfl | hbelow
      · exact hfits.blocks_ne_nil hleads
      · obtain ⟨ending', hending⟩ := hdone task hbelow
        rw [hending] at hleads
        cases hleads

theorem System.isSound_start [Machine] (r : Resolver) : (System.start r : System τ).IsSound r []
    where
  config_eq := rfl
  selection_eq := rfl
  safe := Threads.isSafe_start
  stacked _ := .empty rfl
  tasks _ _ htask := by cases htask
  history _ _ he := by cases he

/-- What a step of one thread has to show for the system to stay sound: the other threads go on
undisturbed if what is installed stays while they are in a block. -/
theorem System.IsSound.update [Machine] (h : s.IsSound r past) {a : Shared τ} {tasks : List Task}
    (hconfig : a.resolver.config = s.resolver.config)
    (hselection : a.resolver.selection = what.install?.getD s.resolver.selection)
    (hsafe : a.threads.IsSafe)
    (hcaller : ∀ u, u ≠ t → a.threads.caller u = s.threads.caller u)
    (hkept : ∀ u, u ≠ t → (s.threads.caller u).blocks ≠ [] →
      a.resolver.selection = s.resolver.selection)
    (hstacked : Stacked (a.threads.caller t) tasks)
    (htasks : ∀ task ∈ tasks, task.IsSound r (past ++ [⟨t, what⟩]) a.resolver.selection t)
    (hentry : IsSoundEntry r past past.length ⟨t, what⟩) :
    System.IsSound r (past ++ [⟨t, what⟩])
      { a with tasks := Function.update s.tasks t tasks } where
  config_eq := hconfig.trans h.config_eq
  selection_eq := by rw [lastInstalled_append, ← h.selection_eq, hselection]
  safe := hsafe
  stacked := by
    refine (Function.forall_update_iff _ fun u tasks => Stacked (a.threads.caller u) tasks).2
      ⟨hstacked, fun u hne => ?_⟩
    rw [hcaller u hne]
    exact h.stacked u
  tasks := by
    refine (Function.forall_update_iff _ fun u (tasks : List Task) => ∀ task ∈ tasks,
      Task.IsSound r (past ++ [⟨t, what⟩]) a.resolver.selection u task).2
      ⟨htasks, fun u hne task htask => ?_⟩
    exact (h.tasks u task htask).append fun _ hleads =>
      hkept u hne ((h.stacked u).blocks_ne_nil htask hleads)
  history := soundEntries_append h.history hentry

/-- The beginning of an operation keeps a system sound. -/
theorem System.IsSound.begin [Machine] (h : s.IsSound r past) (op : Operation)
    (hfree : ∀ task ∈ (s.tasks t).head?, ∃ ending, task.program = .done ending) :
    System.IsSound r (past ++ [⟨t, .begun op⟩])
      { s with
        tasks := Function.update s.tasks t
          (⟨op, past.length, op.program s.resolver.config⟩ :: s.tasks t) } := by
  obtain ⟨hidle, hdone⟩ := (h.stacked t).idle_and_done hfree
  refine h.update rfl rfl h.safe (fun _ _ => rfl) (fun _ _ _ => rfl) ?_ ?_
    ⟨by rintro _ _ _ ⟨⟩, by rintro _ ⟨⟩⟩
  · rw [hidle]
    exact .push (.of_bracketed (Operation.bracketed_program _ op)) hdone
  · refine List.forall_mem_cons.2 ⟨?_, fun task htask =>
      (h.tasks t task htask).append fun _ _ => rfl⟩
    rw [h.config_eq]
    refine ⟨by simp, Operation.installs_program r.config op, ?_⟩
    rintro i rfl
    exact .asked

/-- A step of a program keeps a system sound. -/
theorem System.IsSound.advance [Machine] (h : s.IsSound r past) {below : List Task} {a : Shared τ}
    {program : Program} (htasks : s.tasks t = task :: below)
    (hstep : task.program.Step t s.toShared what a program) :
    System.IsSound r (past ++ [⟨t, what⟩])
      { a with
        tasks := Function.update s.tasks t ({ task with program := program } :: below) } := by
  obtain ⟨hfits, hdone⟩ := (htasks ▸ h.stacked t).of_cons
  obtain ⟨htask, hbelow⟩ := List.forall_mem_cons.1 (htasks ▸ h.tasks t)
  obtain ⟨hstart, -⟩ := List.getElem?_eq_some_iff.1 htask.begun
  obtain ⟨hinstalls, hmakes⟩ := hstep.installs htask.installs
  refine h.update hstep.config_eq hstep.selection_eq (hstep.isSafe h.safe)
    (fun u hne => hstep.caller_eq hne)
    (fun u hne hblock => hstep.selection_eq_of_block h.safe hfits hblock hne)
    (.push (hstep.fits hfits) hdone) (List.forall_mem_cons.2 ⟨?_, fun other hother => ?_⟩)
    ⟨fun i start ending hwhat => ?_, fun selection hwhat => ?_⟩
  · have hlater : task.IsSound r (past ++ [⟨t, what⟩]) s.resolver.selection t :=
      htask.append fun _ _ => rfl
    refine ⟨hlater.begun, hinstalls, fun i hop => ?_⟩
    refine hstep.answering h.safe hfits (hlater.answering i hop) ?_
    rw [h.selection_eq]
    exact seen_of_lastInstalled hstart
  · -- a task below the latest one is done, so it is not inside a block
    obtain ⟨ending, hending⟩ := hdone other hother
    refine (hbelow other hother).append fun _ hleads => ?_
    rw [hending] at hleads
    cases hleads
  · exact absurd hwhat (hstep.what_ne_ended _ start ending)
  · exact ⟨task.start, task.op, hstart, htask.begun, hmakes selection hwhat⟩

/-- The end of an operation keeps a system sound. -/
theorem System.IsSound.finish [Machine] (h : s.IsSound r past) {op : Operation} {start : Nat}
    {ending : Except Mishap Reply} {below : List Task}
    (htasks : s.tasks t = ⟨op, start, .done ending⟩ :: below) :
    System.IsSound r (past ++ [⟨t, .ended op start ending⟩])
      { s with tasks := Function.update s.tasks t below } := by
  obtain ⟨hfits, hdone⟩ := (htasks ▸ h.stacked t).of_cons
  obtain ⟨htask, hbelow⟩ := List.forall_mem_cons.1 (htasks ▸ h.tasks t)
  refine h.update rfl rfl h.safe (fun _ _ => rfl) (fun _ _ _ => rfl) ?_
    (fun other hother => (hbelow other hother).append fun _ _ => rfl) ⟨?_, by rintro _ ⟨⟩⟩
  · rw [hfits.eq_idle]
    exact stacked_of_done hdone
  · rintro i _ _ ⟨⟩
    refine ⟨htask.begun, ?_⟩
    have hanswering := htask.answering i rfl
    cases hanswering with
    | inside hleads => cases hleads
    | @answered reply hseen => exact ⟨reply, rfl, hseen⟩

theorem System.Step.isSound [Machine] (h : s.Step past.length t what s') (hs : s.IsSound r past) :
    s'.IsSound r (past ++ [⟨t, what⟩]) := by
  cases h with
  | begin op hfree => exact hs.begin op hfree
  | advance htasks hstep => exact hs.advance htasks hstep
  | finish htasks => exact hs.finish htasks

theorem Run.isSound [Machine] (h : Run r past s) : s.IsSound r past := by
  induction h with
  | start => exact System.isSound_start r
  | step _ hstep ih => exact hstep.isSound ih

end Soundness

/-- Whatever threads do to a resolver, and in whatever order their steps come: the selection that
is installed is the last one that a step installed; an inquiry that has ended was answered by one
selection that was installed between its beginning and its end; and whatever a step installs is
what one operation makes, begun before in the same thread. -/
theorem Run.answers_whole [Machine] [DecidableEq τ] {r : Resolver} {past : List (Entry τ)}
    {s : System τ} (h : Run r past s) :
    s.resolver.selection = lastInstalled r.selection past ∧
      (∀ (m : Nat) (t : τ) (i : Inquiry) (start : Nat) (ending : Except Mishap Reply),
        past[m]? = some ⟨t, .ended (.inquire i) start ending⟩ →
          past[start]? = some ⟨t, .begun (.inquire i)⟩ ∧
            ∃ k, start < k ∧ k ≤ m ∧
              ending = .ok ((Resolver.holding r.config
                (lastInstalled r.selection (past.take k))).reply i)) ∧
      ∀ (m : Nat) (t : τ) (selection : Option Selection),
        past[m]? = some ⟨t, .installed selection⟩ →
          ∃ (start : Nat) (op : Operation), start < m ∧ past[start]? = some ⟨t, .begun op⟩ ∧
            op.Makes r.config selection := by
  have hsound := h.isSound
  refine ⟨hsound.selection_eq, fun m t i start ending hm => ?_, fun m t selection hm => ?_⟩
  · obtain ⟨hbegun, reply, hending, k, hstart, hk, hreply⟩ :=
      (hsound.history m _ hm).ended i start ending rfl
    exact ⟨hbegun, k, hstart, hk, by rw [hending, hreply]⟩
  · exact (hsound.history m _ hm).installed selection rfl

/-- The current locale is asked for while another thread resets: the reply is that of the selection
that was there when the block was open, although it is gone when the inquiry ends. -/
theorem Run.answers_whole_reset :
    let tag : LocaleTag := ⟨"fr".toList, none, by decide⟩
    let first : Selection := ⟨Catalog.new tag, Catalog.new tag, true, .empty⟩
    let r : Resolver := ⟨.default, some first, none⟩
    let past : List (Entry Bool) :=
      [⟨false, .begun (.inquire .currentLocale)⟩, ⟨true, .begun .reset⟩,
        ⟨false, .locked (.acquired .read)⟩, ⟨true, .locked (.waits .write)⟩, ⟨false, .looked⟩,
        ⟨false, .locked (.left .read)⟩, ⟨true, .locked (.acquired .write)⟩,
        ⟨true, .installed none⟩, ⟨true, .locked (.left .write)⟩,
        ⟨false, .ended (.inquire .currentLocale) 0 (.ok (.currentLocale (.ok tag)))⟩,
        ⟨true, .indexed⟩, ⟨true, .ended .reset 1 (.ok .reset)⟩]
    ∃ s, Run r past s ∧ (∀ t, s.tasks t = []) ∧ s.resolver.selection = none ∧
      ∃ k, 0 < k ∧ k ≤ 9 ∧
        (Resolver.holding r.config (lastInstalled r.selection (past.take k))).reply .currentLocale =
          .currentLocale (.ok tag) := by
  intro tag first r past
  have h₁ : Run r (past.take 1) _ := .step .start (.begin _ (by simp [System.start]))
  have h₂ : Run r (past.take 2) _ := .step h₁ (.begin _ (by simp [System.start]))
  have h₃ : Run r (past.take 3) _ := .step h₂ (.advance rfl (.enter (.inl rfl) rfl))
  have h₄ : Run r (past.take 4) _ := .step h₃ (.advance rfl (.enter (.inl rfl) rfl))
  have h₅ : Run r (past.take 5) _ := .step h₄ (.advance rfl .look)
  have h₆ : Run r (past.take 6) _ := .step h₅ (.advance rfl (.leave rfl))
  have h₇ : Run r (past.take 7) _ := .step h₆ (.advance rfl (.enter (.inr rfl) rfl))
  have h₈ : Run r (past.take 8) _ := .step h₇ (.advance rfl .install)
  have h₉ : Run r (past.take 9) _ := .step h₈ (.advance rfl (.leave rfl))
  have h₁₀ : Run r (past.take 10) _ := .step h₉ (.finish rfl)
  have h₁₁ : Run r (past.take 11) _ := .step h₁₀ (.advance rfl .renew)
  have h : Run r past _ := .step h₁₁ (.finish rfl)
  refine ⟨_, h, ?_, ?_, ?_⟩
  · intro t
    cases t <;> rfl
  · exact h.answers_whole.1
  · obtain ⟨-, k, hstart, hk, hending⟩ := h.answers_whole.2.1 9 false .currentLocale 0 _ rfl
    exact ⟨k, hstart, hk, (Except.ok.inj hending).symm⟩

end Phrasebook
