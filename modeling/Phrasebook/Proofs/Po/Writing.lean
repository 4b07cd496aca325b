import Phrasebook.Proofs.Po.Joining

/-!
# What lines write

The stores of a file come about by single writes.  A line registers a template, puts a chunk behind
one that is there, or writes nothing.

**Writes.**  `State.write?` says what a line writes, `writes` what the lines of a reading write one
after the other.  The stores behind a reading are those in front of it with its writes performed
(`Reading.sameStores_run`).
**Invariant.**  The template that a continuation goes on with is the one that was registered last
(`Reading.endsAt_run`).  It is there and belongs to the current entry (`State.IsSound.run`).
**Result.**  `Reading.run_continues`: a chunk extends the template that was registered last, and no
entry comes about by it.
-/

namespace Phrasebook
namespace Po

open Plural (Formula)

/-- What a line does to the stores.  A template that is registered takes the place of the one that
is there. -/
inductive Write
  | register (place : Place) (value : Text)
  | extend (place : Place) (chunk : Text)
deriving DecidableEq

/-- The key of an entry. -/
def Place.key : Place → Text
  | .single key => key
  | .plural key _ => key

/-- Where the template of a write stands. -/
def Write.place : Write → Place
  | .register place _ => place
  | .extend place _ => place

/-- The state with a write performed on its stores. -/
def Write.perform (s : State) : Write → State
  | .register (.single key) value => { s with singles := s.singles.set key value }
  | .register (.plural key category) value => { s with plurals := s.plurals.add key category value }
  | .extend (.single key) chunk => { s with singles := s.singles.append key chunk }
  | .extend (.plural key category) chunk =>
      { s with plurals := s.plurals.append key category chunk }

/-- The place that a value line names for the current entry.  A value of the empty key belongs to
the header, if it is not one of a category. -/
def State.named? (s : State) (line : Text) : Option Place :=
  if s.isPlural then (category line).toOption.map fun category : Nat => .plural s.key category
  else if s.key.isEmpty then none
  else some (.single s.key)

/-- The place of the template that a continuation goes on with. -/
def State.begun? (s : State) : Option Place :=
  match s.pending with
  | .value true => some (.single s.key)
  | .pluralValue category => some (.plural s.key category)
  | .nothing | .key | .value false | .header => none

/-- What becomes of the chunk of a continuation.  Behind `msgstr ""` it registers the template. -/
def State.chunkWrite? (s : State) : Option (Text → Write) :=
  match s.pending with
  | .value false => some (.register (.single s.key))
  | _ => s.begun?.map .extend

/-- What a line writes. -/
def State.write? (s : State) (line : Text) : Option Write :=
  match LineKind.of line with
  | .value => (s.named? line).bind fun place => (payload line).toOption.map (.register place)
  | .continuation => s.chunkWrite?.bind fun write => (payload line).toOption.map write
  | _ => none

/-- What the lines of a reading write. -/
def writes [Machine] (s : State) : List Text → List Write
  | [] => []
  | content :: lines =>
      (s.write? (Text.trim content)).toList ++
        match s.step (Text.trim content) with
        | .ok (next, problem) => writes (next.beyond problem) lines
        | .error _ => []

section Stores

variable {s t u : State} {place other : Place} {value chunk : Text}

/-- Do two states have the same templates? -/
structure SameStores (s t : State) : Prop where
  singles : s.singles = t.singles
  plurals : s.plurals.plurals = t.plurals.plurals

theorem SameStores.refl (s : State) : SameStores s s :=
  ⟨rfl, rfl⟩

theorem SameStores.trans (h : SameStores s t) (h' : SameStores t u) : SameStores s u :=
  ⟨h.1.trans h'.1, h.2.trans h'.2⟩

theorem SameStores.template? (h : SameStores s t) (place : Place) :
    s.template? place = t.template? place := by
  cases place with
  | single key => exact congrArg (fun store : SingleStore => store.values.get? key) h.1
  | plural key category =>
      exact congrArg (fun table : Table Text (Table Int Text) =>
        (table.get? key).bind fun templates => templates.get? category) h.2

theorem SameStores.perform (h : SameStores s t) (w : Write) :
    SameStores (w.perform s) (w.perform t) := by
  obtain ⟨hsingles, hplurals⟩ := h
  rcases w with ⟨_ | _, _⟩ | ⟨_ | _, _⟩
  all_goals
    simp only [Write.perform, SingleStore.set, SingleStore.append, PluralStore.add,
      PluralStore.append, PluralStore.update, hsingles]
    exact ⟨by simp, by simp [hplurals]⟩

theorem SameStores.foldl_perform (h : SameStores s t) (ws : List Write) :
    SameStores (ws.foldl Write.perform s) (ws.foldl Write.perform t) := by
  induction ws generalizing s t with
  | nil => exact h
  | cons w ws ih => exact ih (h.perform w)

theorem template?_register (s : State) (place : Place) (value : Text) :
    (Write.perform s (.register place value)).template? place = some value := by
  cases place with
  | single key => exact templateAt_set_self s.singles s.plurals key value
  | plural key category => exact templateAt_add_self s.singles s.plurals key category value

theorem template?_extend (h : s.template? place = some value) (chunk : Text) :
    (Write.perform s (.extend place chunk)).template? place = some (value ++ chunk) := by
  have hthere : (s.template? place).getD [] = value := by rw [h, Option.getD_some]
  rw [← hthere]
  cases place with
  | single key => exact templateAt_append_self s.singles s.plurals key chunk
  | plural key category => exact templateAt_appendPlural_self s.singles s.plurals key category chunk

theorem template?_perform_ne {w : Write} (h : other ≠ w.place) :
    (w.perform s).template? other = s.template? other := by
  rcases w with ⟨_ | _, value⟩ | ⟨_ | _, chunk⟩
  · exact templateAt_set h value
  · exact templateAt_add h value
  · exact templateAt_append h chunk
  · exact templateAt_appendPlural h chunk

theorem template?_foldl_extend (h : s.template? place = some value) (chunks : List Text) :
    ((chunks.map (Write.extend place)).foldl Write.perform s).template? place =
      some (value ++ chunks.flatten) := by
  induction chunks generalizing s value with
  | nil =>
      rw [List.flatten_nil, List.append_nil]
      exact h
  | cons chunk chunks ih =>
      rw [List.map_cons, List.foldl_cons, ih (template?_extend h chunk), List.flatten_cons,
        List.append_assoc]

/-- A chunk behind a template that is there makes no new key. -/
theorem keys_extend (h : s.template? place = some value) (chunk : Text) :
    (Write.perform s (.extend place chunk)).singles.values.keys = s.singles.values.keys ∧
      (Write.perform s (.extend place chunk)).plurals.plurals.keys = s.plurals.plurals.keys := by
  cases place with
  | single key =>
      have hmem : key ∈ s.singles.values.keys := by
        by_contra hfresh
        have hnone : s.singles.values.get? key = none := Table.get?_of_not_mem hfresh
        exact nomatch hnone.symm.trans h
      exact ⟨Table.map_fst_put_of_mem _ hmem, rfl⟩
  | plural key category =>
      have hmem : key ∈ s.plurals.plurals.keys := by
        by_contra hfresh
        have hnone : s.template? (.plural key category) = none := by
          rw [State.template?, templateAt, Table.get?_of_not_mem hfresh, Option.bind_none]
        exact nomatch hnone.symm.trans h
      exact ⟨rfl, Table.map_fst_put_of_mem _ hmem⟩

end Stores

section Steps

variable {s t : State} {line chunk : Text} {place : Place} {w? : Option Write}

/-- Do the stores of the second state come of those of the first one by what a line writes, and has
it begun no template but one that the line has registered, or gone on with, or left alone? -/
structure ComesBy (s : State) (w? : Option Write) (t : State) : Prop where
  stores : SameStores (w?.toList.foldl Write.perform s) t
  begun : ∀ place ∈ t.begun?, (∃ value, w? = some (.register place value)) ∨
    (place ∈ s.begun? ∧ ∀ w ∈ w?, ∃ chunk, w = .extend place chunk)

theorem ComesBy.of_same (hstores : SameStores s t) (hbegun : ∀ place ∈ t.begun?, place ∈ s.begun?) :
    ComesBy s none t :=
  ⟨hstores, fun place hplace => .inr ⟨hbegun place hplace, nofun⟩⟩

theorem ComesBy.refl (s : State) : ComesBy s none s :=
  .of_same (.refl s) fun _ hplace => hplace

theorem ComesBy.beyond (h : ComesBy s w? t) (problem : Option Problem) :
    ComesBy s w? (t.beyond problem) := by
  cases problem with
  | none => exact h
  | some => exact ⟨⟨h.1.1, h.1.2⟩, nofun⟩

theorem ComesBy.addField (s : State) (line : Text) : Leads (ComesBy s none) (s.addField line) := by
  refine (s.addField_leads line).mono ?_
  rintro t ⟨headers, rfl⟩
  exact .of_same ⟨rfl, rfl⟩ fun _ hplace => hplace

theorem ComesBy.setFormula [Machine] (s : State) (line : Text) :
    Leads (ComesBy s none) (s.setFormula line) := by
  refine (s.setFormula_leads line).mono ?_
  rintro t ⟨formula, headers, rfl⟩
  exact .of_same ⟨rfl, rfl⟩ fun _ hplace => hplace

theorem ComesBy.startEmptyValue (s : State) : ComesBy s none s.startEmptyValue := by
  unfold State.startEmptyValue
  split
  · exact ⟨⟨rfl, rfl⟩, nofun⟩
  · split <;> exact ⟨⟨rfl, rfl⟩, nofun⟩

theorem ComesBy.startValue (s : State) (line : Text) :
    Leads (ComesBy s ((s.named? line).bind fun place =>
      (payload line).toOption.map (.register place))) (s.startValue line) := by
  unfold State.startValue State.named?
  by_cases hplural : s.isPlural = true
  · rw [if_pos hplural, if_pos hplural]
    cases category line with
    | error e => exact .withFound_error (.refl s)
    | ok category =>
        cases payload line with
        | error e => exact .withFound_error (.refl s)
        | ok value =>
            refine .accept ⟨⟨rfl, rfl⟩, fun place hplace => .inl ⟨value, ?_⟩⟩
            obtain rfl := Option.some.inj hplace
            rfl
  · rw [if_neg hplural, if_neg hplural]
    by_cases hkey : s.key.isEmpty = true
    · rw [if_pos hkey]
      refine .withFound (.refl s) fun value _ => ?_
      rw [if_pos hkey]
      exact .accept ⟨⟨rfl, rfl⟩, nofun⟩
    · rw [if_neg hkey]
      cases payload line with
      | error e => exact .withFound_error (.refl s)
      | ok value =>
          rw [State.withFound, if_neg hkey]
          refine .accept ⟨⟨rfl, rfl⟩, fun place hplace => .inl ⟨value, ?_⟩⟩
          obtain rfl := Option.some.inj hplace
          rfl

/-- A chunk goes where `State.chunkWrite?` says. -/
theorem ComesBy.extended (s : State) (chunk : Text) :
    ComesBy s (s.chunkWrite?.bind fun write => some (write chunk)) (s.extended chunk) := by
  obtain ⟨singles, plurals, headers, key, isPlural, pending⟩ := s
  cases pending with
  | nothing | key | header => exact ⟨⟨rfl, rfl⟩, nofun⟩
  | value started =>
      cases started with
      | false =>
          refine ⟨⟨rfl, rfl⟩, fun place hplace => .inl ⟨chunk, ?_⟩⟩
          obtain rfl := Option.some.inj hplace
          rfl
      | true =>
          refine ⟨⟨rfl, rfl⟩, fun place hplace => .inr ⟨hplace, fun w hw => ⟨chunk, ?_⟩⟩⟩
          obtain rfl := Option.some.inj hplace
          exact (Option.some.inj hw).symm
  | pluralValue category =>
      refine ⟨⟨rfl, rfl⟩, fun place hplace => .inr ⟨hplace, fun w hw => ⟨chunk, ?_⟩⟩⟩
      obtain rfl := Option.some.inj hplace
      exact (Option.some.inj hw).symm

theorem ComesBy.continueWith (s : State) (line : Text) :
    Leads (ComesBy s (s.chunkWrite?.bind fun write => (payload line).toOption.map write))
      (s.continueWith line) := by
  rw [State.continueWith_eq]
  split
  · rename_i hpending
    rw [State.chunkWrite?, State.begun?, hpending]
    exact .accept (.refl s)
  · rename_i hpending
    rw [State.chunkWrite?, State.begun?, hpending]
    exact .addField s line
  · cases payload line with
    | error e =>
        refine .withFound_error ?_
        cases s.chunkWrite? <;> exact .refl s
    | ok chunk => exact .accept (.extended s chunk)

/-- What a line does to the stores is what it writes. -/
theorem ComesBy.step [Machine] (s : State) (line : Text) :
    Leads (ComesBy s (s.write? line)) (s.step line) := by
  rw [State.step_eq_stepAs, State.write?]
  cases LineKind.of line with
  | blank | emptyKey | context => exact .accept ⟨⟨rfl, rfl⟩, nofun⟩
  | comment => exact .accept (.refl s)
  | emptyValue => exact .accept (.startEmptyValue s)
  | formula => exact .setFormula s line
  | continuation => exact .continueWith s line
  | key => exact .withFound (.refl s) fun _ _ => .accept ⟨⟨rfl, rfl⟩, nofun⟩
  | value => exact .startValue s line
  | unknown =>
      intro t problem ht
      cases ht
      exact .refl s

theorem State.key_of_begun? (h : place ∈ s.begun?) : place.key = s.key := by
  rw [State.begun?] at h
  split at h <;> cases h <;> rfl

/-- A chunk is that of a continuation, and the line is well-formed. -/
theorem State.step_of_extend [Machine] (h : s.write? line = some (.extend place chunk)) :
    place ∈ s.begun? ∧ s.step line = .ok (s.extended chunk, none) := by
  rw [write?] at h
  rw [step_eq_stepAs]
  split at h
  · obtain ⟨named, -, hwrite⟩ := Option.bind_eq_some_iff.1 h
    obtain ⟨value, -, hvalue⟩ := Option.map_eq_some_iff.1 hwrite
    cases hvalue
  · rename_i hkind
    obtain ⟨write, hwrite, hchunk⟩ := Option.bind_eq_some_iff.1 h
    obtain ⟨text, htext, hplace⟩ := Option.map_eq_some_iff.1 hchunk
    rw [toOption_eq_some_iff] at htext
    rw [hkind, stepAs, continueWith_eq, htext]
    obtain ⟨singles, plurals, headers, key, isPlural, pending⟩ := s
    cases pending with
    | nothing | key | header => cases hwrite
    | value started =>
        cases started with
        | false =>
            cases hwrite
            cases hplace
        | true =>
            cases hwrite
            cases hplace
            exact ⟨rfl, rfl⟩
    | pluralValue category =>
        cases hwrite
        cases hplace
        exact ⟨rfl, rfl⟩
  · cases h

end Steps

section Runs

variable {r : Reading} {number : Nat} {s t : State} {lines : List Text} {junk : List JunkLine}
  {place : Place} {history : List Write} {w? : Option Write}

/-- Is the last template that the writes register the one at the place, with nothing behind it but
chunks of it? -/
def EndsAt (place : Place) (history : List Write) : Prop :=
  ∃ (earlier : List Write) (value : Text) (chunks : List Text),
    history = earlier ++ .register place value :: chunks.map (.extend place)

theorem EndsAt.concat_register (history : List Write) (place : Place) (value : Text) :
    EndsAt place (history ++ [.register place value]) :=
  ⟨history, value, [], rfl⟩

theorem EndsAt.concat_extend (h : EndsAt place history) (chunk : Text) :
    EndsAt place (history ++ [.extend place chunk]) := by
  obtain ⟨earlier, value, chunks, rfl⟩ := h
  exact ⟨earlier, value, chunks ++ [chunk], by simp⟩

theorem ComesBy.endsAt (h : ComesBy s w? t) (hs : ∀ place ∈ s.begun?, EndsAt place history)
    (hplace : place ∈ t.begun?) : EndsAt place (history ++ w?.toList) := by
  rcases h.begun place hplace with ⟨value, rfl⟩ | ⟨hbegun, hchunk⟩
  · exact .concat_register history place value
  · cases w? with
    | none =>
        rw [Option.toList_none, List.append_nil]
        exact hs place hbegun
    | some w =>
        obtain ⟨chunk, rfl⟩ := hchunk w rfl
        exact (hs place hbegun).concat_extend chunk

theorem writes_cons [Machine] {content : Text} {next : State} {problem : Option Problem}
    (h : s.step (Text.trim content) = .ok (next, problem)) :
    writes s (content :: lines) =
      (s.write? (Text.trim content)).toList ++ writes (next.beyond problem) lines := by
  rw [writes]
  simp only [h]

/-- The stores behind a reading come of its writes. -/
theorem Reading.sameStores_run [Machine] (hr : r.strict = false)
    (h : r.run number s lines = .ok (t, junk)) :
    SameStores ((writes s lines).foldl Write.perform s) t := by
  induction lines generalizing number s junk with
  | nil =>
      cases h
      exact .refl _
  | cons content lines ih =>
      obtain ⟨next, problem, rest, hstep, hrun, -⟩ := (run_cons_eq_ok_iff hr).1 h
      have hnext := (ComesBy.step s (Text.trim content) next problem hstep).beyond problem
      rw [writes_cons hstep, List.foldl_append]
      exact (hnext.stores.foldl_perform _).trans (ih hrun)

/-- The template that a continuation goes on with is the one that was registered last. -/
theorem Reading.endsAt_run [Machine] (hr : r.strict = false)
    (hs : ∀ place ∈ s.begun?, EndsAt place history)
    (h : r.run number s lines = .ok (t, junk)) (hplace : place ∈ t.begun?) :
    EndsAt place (history ++ writes s lines) := by
  induction lines generalizing number s junk history with
  | nil =>
      cases h
      rw [writes, List.append_nil]
      exact hs place hplace
  | cons content lines ih =>
      obtain ⟨next, problem, rest, hstep, hrun, -⟩ := (run_cons_eq_ok_iff hr).1 h
      have hnext := (ComesBy.step s (Text.trim content) next problem hstep).beyond problem
      rw [writes_cons hstep, ← List.append_assoc]
      exact ih (fun place hbegun => hnext.endsAt hs hbegun) hrun

theorem Reading.endsAt_run_initial [Machine] (hr : r.strict = false) {formula : Formula}
    (h : r.run number (State.initial formula) lines = .ok (t, junk)) (hplace : place ∈ t.begun?) :
    EndsAt place (writes (State.initial formula) lines) := by
  have hnone : ∀ place ∈ (State.initial formula).begun?, EndsAt place [] := nofun
  exact endsAt_run hr hnone h hplace

theorem State.IsSound.run [Machine] (hr : r.strict = false) (hs : s.IsSound)
    (h : r.run number s lines = .ok (t, junk)) : t.IsSound := by
  induction lines generalizing number s junk with
  | nil =>
      cases h
      exact hs
  | cons content lines ih =>
      obtain ⟨next, problem, rest, hstep, hrun, -⟩ := (Reading.run_cons_eq_ok_iff hr).1 h
      exact ih ((hs.step next problem hstep).beyond problem) hrun

theorem State.isSound_initial (formula : Formula) : (State.initial formula).IsSound :=
  .of_target? rfl

/-- Behind whatever lines, a pending value belongs to the current entry, and the template that it
goes on with is there.  The stores are what the writes of the lines have made of empty ones.  A
chunk that is put behind a template comes behind the one that was registered last, which is one of
the current key, and changes nothing else: no entry comes about by it. -/
theorem Reading.run_continues [Machine] (hr : r.strict = false) {formula : Formula}
    (h : r.run number (State.initial formula) lines = .ok (s, junk)) :
    s.IsSound ∧
      SameStores
        ((writes (State.initial formula) lines).foldl Write.perform (State.initial formula)) s ∧
      ∀ line place chunk, s.write? line = some (.extend place chunk) →
        place.key = s.key ∧
        ∃ (earlier : List Write) (value : Text) (chunks : List Text) (next : State),
          writes (State.initial formula) lines =
              earlier ++ .register place value :: chunks.map (.extend place) ∧
            s.template? place = some (value ++ chunks.flatten) ∧
            s.step line = .ok (next, none) ∧
            next.template? place = some (value ++ chunks.flatten ++ chunk) ∧
            (∀ other, other ≠ place → next.template? other = s.template? other) ∧
            next.singles.values.keys = s.singles.values.keys ∧
            next.plurals.plurals.keys = s.plurals.plurals.keys := by
  have hstores := sameStores_run hr h
  refine ⟨(State.isSound_initial formula).run hr h, hstores, fun line place chunk hwrite => ?_⟩
  obtain ⟨hbegun, hstep⟩ := State.step_of_extend hwrite
  obtain ⟨earlier, value, chunks, hwrites⟩ := endsAt_run_initial hr h hbegun
  -- the last template with its chunks, as the writes of the lines leave it
  have hthere : s.template? place = some (value ++ chunks.flatten) := by
    rw [← hstores.template? place, hwrites, List.foldl_append, List.foldl_cons]
    exact template?_foldl_extend (template?_register _ place value) chunks
  have hnext : SameStores (Write.perform s (.extend place chunk)) (s.extended chunk) := by
    have hcomes := ComesBy.step s line _ _ hstep
    rw [hwrite] at hcomes
    exact hcomes.stores
  obtain ⟨hsingles, hplurals⟩ := keys_extend hthere chunk
  refine ⟨State.key_of_begun? hbegun, earlier, value, chunks, _, hwrites, hthere, hstep,
    ?_, ?_, ?_, ?_⟩
  · rw [← hnext.template? place]
    exact template?_extend hthere chunk
  · intro other hother
    rw [← hnext.template? other]
    exact template?_perform_ne (w := .extend place chunk) hother
  · rw [← hnext.singles, hsingles]
  · rw [← hnext.plurals, hplurals]

/-- A comment and the header line of the formula do not end the value of a category, to which the
next line belongs. -/
theorem Reading.run_continues_category :
    let lines := ["msgid_plural \"p\"", "msgstr[0] \"x\"", "msgstr[1] \"y\"", "\"-\"", "# z"].map
      String.toList
    ∃ s, (⟨false, none⟩ : Reading).run 1 (State.initial .empty) lines = .ok (s, []) ∧
      s.write? "\"z\"".toList = some (.extend (.plural ['p'] 1) ['z']) ∧
      s.template? (.plural ['p'] 1) = some "y-".toList ∧
      ∃ next, s.step "\"z\"".toList = .ok (next, none) ∧
        next.template? (.plural ['p'] 1) = some "y-z".toList ∧
        next.template? (.plural ['p'] 0) = s.template? (.plural ['p'] 0) := by
  intro lines
  obtain ⟨s, hrun⟩ :
      ∃ s, (⟨false, none⟩ : Reading).run 1 (State.initial .empty) lines = .ok (s, []) :=
    ⟨_, rfl⟩
  have hwrite : s.write? "\"z\"".toList = some (.extend (.plural ['p'] 1) ['z']) := by
    cases hrun
    rfl
  have hthere : s.template? (.plural ['p'] 1) = some "y-".toList := by
    cases hrun
    rfl
  obtain ⟨-, -, hextends⟩ := run_continues rfl hrun
  obtain ⟨-, earlier, value, chunks, next, -, hbefore, hstep, hnext, hothers, -⟩ :=
    hextends _ _ _ hwrite
  have htext : value ++ chunks.flatten = "y-".toList := by
    rw [hthere] at hbefore
    exact (Option.some.inj hbefore).symm
  rw [htext] at hnext
  exact ⟨s, hrun, hwrite, hthere, next, hstep, hnext, hothers _ (by decide)⟩

end Runs

end Po
end Phrasebook
