import Phrasebook.Lock.Step
import Phrasebook.Proofs.Resolver.Operations

/-!
# The blocks of an operation

What a thread does for an operation on a resolver that other threads use too, block by block.

**Programs.**  A `Program` enters a side of the lock, does what it does inside, and leaves again.
It sees the installed selection and puts another one in its place only inside, and the index only
outside, where a lock of its own guards it.
**Operations.**  `Operation.program` is the program of an operation.  An inquiry looks at the
selection inside one block; only `Inquiry.summary` looks twice.  A selection looks for the active
locale in one block, indexes and loads outside, and installs in another block.
**Results.**
* `run_program`: a program that runs alone does what the operation does.
* `bracketed_program`: a program keeps to its blocks.
* `leadsTo_body`, `installs_program`: what an inquiry comes to if the selection stays, and what
  else an operation installs.
-/

namespace Phrasebook

/-- What can go wrong on the way to a reply: the lock is not got, or the selection that was there
a moment ago is gone. -/
inductive Mishap
  | lock (e : LockError)
  | selectionGone
deriving DecidableEq, Repr

/-- What a thread still has to do for an operation. -/
inductive Program
  | done (ending : Except Mishap Reply)
  | enter (side : Side) (rest : Program)
  | leave (rest : Program)
  | look (next : Option Selection → Program)
  | install (selection : Option Selection) (rest : Program)
  | renew (index : Option Index → Option Index) (next : Option Index → Program)

/-- The resolver with a selection and without an index. -/
def Resolver.holding (config : Config) (selection : Option Selection) : Resolver :=
  ⟨config, selection, none⟩

namespace Program

/-- A program that comes to a reply. -/
def replying (reply : Reply) : Program :=
  .done (.ok reply)

/-- The resolver behind a program that runs alone, and what the program comes to. -/
def run : Program → Resolver → Resolver × Except Mishap Reply
  | .done ending, r => (r, ending)
  | .enter _ rest, r => rest.run r
  | .leave rest, r => rest.run r
  | .look next, r => (next r.selection).run r
  | .install selection rest, r => rest.run { r with selection := selection }
  | .renew index next, r => (next r.index).run { r with index := index r.index }

/-- Does a program keep to its blocks, in those that are open? -/
inductive Bracketed : List Side → Program → Prop
  | done (ending : Except Mishap Reply) : Bracketed [] (.done ending)
  | enter {side : Side} {rest : Program} (h : Bracketed [side] rest) :
      Bracketed [] (.enter side rest)
  | leave {side : Side} {rest : Program} (h : Bracketed [] rest) : Bracketed [side] (.leave rest)
  | look {side : Side} {next : Option Selection → Program}
      (h : ∀ selection, Bracketed [side] (next selection)) : Bracketed [side] (.look next)
  | install {selection : Option Selection} {rest : Program} (h : Bracketed [.write] rest) :
      Bracketed [.write] (.install selection rest)
  | renew {index : Option Index → Option Index} {next : Option Index → Program}
      (h : ∀ old, Bracketed [] (next old)) : Bracketed [] (.renew index next)

theorem Bracketed.eq_nil {blocks : List Side} {side : Side} {rest : Program}
    (h : (Program.enter side rest).Bracketed blocks) : blocks = [] := by
  cases h with
  | enter => rfl

theorem Bracketed.eq_write {blocks : List Side} {selection : Option Selection} {rest : Program}
    (h : (Program.install selection rest).Bracketed blocks) : blocks = [.write] := by
  cases h with
  | install => rfl

/-- Does a program inside a block come to an ending without another block, if the selection
stays? -/
inductive LeadsTo (selection : Option Selection) (ending : Except Mishap Reply) : Program → Prop
  | leave : LeadsTo selection ending (.leave (.done ending))
  | look {next : Option Selection → Program} (h : LeadsTo selection ending (next selection)) :
      LeadsTo selection ending (.look next)

/-- Does a program install nothing but what has a property? -/
def Installs (P : Option Selection → Prop) : Program → Prop
  | .done _ => True
  | .enter _ rest => rest.Installs P
  | .leave rest => rest.Installs P
  | .look next => ∀ selection, (next selection).Installs P
  | .install selection rest => P selection ∧ rest.Installs P
  | .renew _ next => ∀ old, (next old).Installs P

end Program

/-- What an inquiry does in its block. -/
def Inquiry.body [Machine] (config : Config) : Inquiry → Program
  | .summary => .look fun installed =>
      match installed with
      | none => .leave (.replying (.summary .empty))
      | some _ => .look fun again =>
          match again with
          | none => .leave (.done (.error .selectionGone))
          | some s => .leave (.replying (.summary s.summary))
  | i => .look fun installed => .leave (.replying ((Resolver.holding config installed).reply i))

namespace Operation

/-- Loads two tags and installs them. -/
def loading [Machine] (config : Config) (w : Circumstances) (tag fallback : LocaleTag)
    (sendsKey : Bool) (index : Index) : Program :=
  match Resolver.selectionAmid config w index tag fallback sendsKey with
  | .error e => .replying (.selected (.error e))
  | .ok s => .enter .write (.install (some s) (.leave (.replying (.selected (.ok s.summary)))))

/-- Indexes and loads, unless the locale is active. -/
def switching [Machine] (config : Config) (w : Circumstances) (tag fallback : LocaleTag)
    (sendsKey rescan : Bool) (active : Option Summary) : Program :=
  let indexed (old : Option Index) := (⟨config, none, old⟩ : Resolver).indexAmid w rescan
  match active with
  | some summary => .replying (.selected (.ok summary))
  | none =>
      .renew (fun old => match indexed old with | .error _ => old | .ok index => some index)
        fun old =>
          match indexed old with
          | .error f => .replying (.selected (.error (.fault f)))
          | .ok index => loading config w tag fallback sendsKey index

/-- What a thread does to select. -/
def selecting [Machine] (config : Config) (w : Circumstances) (env : Environment Fault)
    (q : Request) :
    Program :=
  match Resolver.requestedTag env q, Resolver.fallbackTag config q with
  | .error e, _ => .replying (.selected (.error e))
  | .ok _, .error e => .replying (.selected (.error e))
  | .ok tag, .ok fallback =>
      .enter .read (.look fun installed => .leave (switching config w tag fallback
        (q.sendsKey.getD config.sendsKey) q.rescan
        ((Resolver.holding config installed).summaryIfActive tag)))

/-- What a thread does for an operation. -/
def program [Machine] (config : Config) : Operation → Program
  | .select w env q => selecting config w env q
  | .reset => .enter .write (.install none (.leave (.renew (fun _ => none) fun _ =>
      .replying .reset)))
  | .inquire i => .enter .read (i.body config)

/-- Is this what an operation installs, whatever it finds? -/
def Makes [Machine] (config : Config) : Operation → Option Selection → Prop
  | .select w env q, some s => ∃ tag fallback index,
      Resolver.requestedTag env q = .ok tag ∧ Resolver.fallbackTag config q = .ok fallback ∧
      Resolver.selectionAmid config w index tag fallback (q.sendsKey.getD config.sendsKey) = .ok s
  | .reset, none => True
  | _, _ => False

section Running

variable [Machine] (r : Resolver) (w : Circumstances) (tag fallback : LocaleTag)
  (sendsKey rescan : Bool)

theorem run_body (i : Inquiry) : (i.body r.config).run r = (r, .ok (r.reply i)) := by
  have hreply : (Resolver.holding r.config r.selection).reply i = r.reply i :=
    Resolver.reply_eq_of_selection rfl i
  cases i with
  | summary =>
      cases hselection : r.selection with
      | none =>
          simp [Inquiry.body, Program.run, Program.replying, Resolver.reply, Resolver.summary,
            hselection]
      | some s =>
          simp [Inquiry.body, Program.run, Program.replying, Resolver.reply, Resolver.summary,
            hselection]
  | _ => simp [Inquiry.body, Program.run, Program.replying, hreply]

theorem run_loading (index : Index) :
    (loading r.config w tag fallback sendsKey index).run { r with index := some index } =
      match Resolver.selectionAmid r.config w index tag fallback sendsKey with
      | .error e => ({ r with index := some index }, .ok (.selected (.error e)))
      | .ok s =>
          ({ r with index := some index, selection := some s },
            .ok (.selected (.ok s.summary))) := by
  unfold loading
  cases Resolver.selectionAmid r.config w index tag fallback sendsKey <;> rfl

theorem run_switching :
    (switching r.config w tag fallback sendsKey rescan none).run r =
      ((r.installAmid w tag fallback sendsKey rescan).1,
        .ok (.selected (r.installAmid w tag fallback sendsKey rescan).2)) := by
  have hindex : (⟨r.config, none, r.index⟩ : Resolver).indexAmid w rescan = r.indexAmid w rescan :=
    rfl
  simp only [switching, Program.run, Resolver.installAmid, hindex]
  cases r.indexAmid w rescan with
  | error f => rfl
  | ok index =>
      simp only [run_loading]
      cases Resolver.selectionAmid r.config w index tag fallback sendsKey <;> rfl

/-- A program that runs alone does what its operation does. -/
theorem run_program (op : Operation) :
    (op.program r.config).run r = ((r.operate op).1, .ok (r.operate op).2) := by
  cases op with
  | reset => rfl
  | inquire i => exact run_body r i
  | select w env q =>
      simp only [program, selecting, Resolver.operate, Resolver.selectAmid]
      cases Resolver.requestedTag env q with
      | error e => rfl
      | ok tag =>
          cases Resolver.fallbackTag r.config q with
          | error e => rfl
          | ok fallback =>
              have hactive : (Resolver.holding r.config r.selection).summaryIfActive tag =
                  r.summaryIfActive tag := rfl
              simp only [Program.run, hactive]
              cases r.summaryIfActive tag with
              | some summary => rfl
              | none => exact run_switching r w tag fallback _ q.rescan

end Running

section Shapes

variable (config : Config)

theorem bracketed_replying (reply : Reply) : (Program.replying reply).Bracketed [] :=
  .done (.ok reply)

variable [Machine]

theorem bracketed_body (i : Inquiry) : (i.body config).Bracketed [.read] := by
  cases i with
  | summary =>
      refine .look fun installed => ?_
      cases installed with
      | none => exact .leave (bracketed_replying _)
      | some s =>
          refine .look fun again => ?_
          cases again with
          | none => exact .leave (.done _)
          | some s => exact .leave (bracketed_replying _)
  | _ => exact .look fun installed => .leave (bracketed_replying _)

theorem bracketed_loading (w : Circumstances) (tag fallback : LocaleTag) (sendsKey : Bool)
    (index : Index) : (loading config w tag fallback sendsKey index).Bracketed [] := by
  unfold loading
  split
  · exact bracketed_replying _
  · exact .enter (.install (.leave (bracketed_replying _)))

theorem bracketed_switching (w : Circumstances) (tag fallback : LocaleTag)
    (sendsKey rescan : Bool) (active : Option Summary) :
    (switching config w tag fallback sendsKey rescan active).Bracketed [] := by
  cases active with
  | some summary => exact bracketed_replying _
  | none =>
      refine .renew fun old => ?_
      split
      · exact bracketed_replying _
      · exact bracketed_loading config w tag fallback sendsKey _

/-- The program of an operation keeps to its blocks. -/
theorem bracketed_program (op : Operation) : (op.program config).Bracketed [] := by
  cases op with
  | inquire i => exact .enter (bracketed_body config i)
  | reset => exact .enter (.install (.leave (.renew fun _ => bracketed_replying _)))
  | select w env q =>
      simp only [program, selecting]
      split
      · exact bracketed_replying _
      · exact bracketed_replying _
      · exact .enter (.look fun _ => .leave (bracketed_switching config w _ _ _ _ _))

/-- If the selection stays while an inquiry is in its block, this is its reply. -/
theorem leadsTo_body (i : Inquiry) (selection : Option Selection) :
    (i.body config).LeadsTo selection (.ok ((Resolver.holding config selection).reply i)) := by
  cases i with
  | summary => cases selection with
    | none => exact .look .leave
    | some s => exact .look (.look .leave)
  | _ => exact .look .leave

theorem installs_body (i : Inquiry) (P : Option Selection → Prop) :
    (i.body config).Installs P := by
  cases i with
  | summary =>
      intro installed
      cases installed with
      | none => trivial
      | some s =>
          intro again
          cases again <;> trivial
  | _ => exact fun _ => trivial

theorem installs_switching {w : Circumstances} {tag fallback : LocaleTag} {sendsKey : Bool}
    {P : Option Selection → Prop}
    (hloaded : ∀ index s,
      Resolver.selectionAmid config w index tag fallback sendsKey = .ok s → P (some s))
    (rescan : Bool) (active : Option Summary) :
    (switching config w tag fallback sendsKey rescan active).Installs P := by
  cases active with
  | some summary => trivial
  | none =>
      intro old
      simp only
      split
      next => trivial
      next index _ =>
        unfold loading
        split
        next => trivial
        next s hs => exact ⟨hloaded index s hs, trivial⟩

/-- An operation installs nothing but what it makes. -/
theorem installs_program (op : Operation) : (op.program config).Installs (op.Makes config) := by
  cases op with
  | inquire i => exact installs_body config i _
  | reset => exact ⟨trivial, fun _ => trivial⟩
  | select w env q =>
      simp only [program, selecting]
      cases htag : Resolver.requestedTag env q with
      | error e => trivial
      | ok tag =>
          cases hfallback : Resolver.fallbackTag config q with
          | error e => trivial
          | ok fallback =>
              exact fun _ => installs_switching config
                (fun index s hs => ⟨tag, fallback, index, htag, hfallback, hs⟩) q.rescan _

end Shapes

end Operation
end Phrasebook
