import Mathlib.Order.Nat
import Phrasebook.Assets.Discovery
import Phrasebook.Assets.Tree
import Phrasebook.Proofs.Outcome
import Phrasebook.Proofs.Tables
import Phrasebook.Proofs.Text.Cutting

/-!
# Where paths lead in a tree

**Following.**  `Tree.Follows` says where names lead from a place, link by link and without memory.
It has one answer, if any, and that is where a walk comes to (`walk_of_follows`).  There is none for
links that go round, and one for all names if every link leads somewhere (`exists_follows`).
**Paths.**  A relative path without parent segments is followed from the root.  An entry leads to
the same place from every path to its folder (`Reaches.childPath`).
**Plain trees.**  In a tree without links a path leads to the place with its names.
-/

namespace Phrasebook
namespace Tree

open Discovery (childPath)

section Following

variable {t : Tree} {depth : Nat} {place found other : Place} {front rest names : List Text}

/-- Names lead from a place to another one, through links whose targets need at most so many links
one in the other. -/
inductive FollowsIn (t : Tree) : Nat → Place → List Text → Place → Prop
  | nil {depth : Nat} {place : Place} : FollowsIn t depth place [] place
  | stay {depth : Nat} {place found : Place} {name : Text} {rest : List Text}
      (hname : name.isEmpty ∨ name = ['.']) (hrest : FollowsIn t depth place rest found) :
      FollowsIn t depth place (name :: rest) found
  | up {depth : Nat} {place found : Place} {rest : List Text}
      (hrest : FollowsIn t depth place.dropLast rest found) :
      FollowsIn t depth place (['.', '.'] :: rest) found
  | step {depth : Nat} {place found : Place} {name : Text} {rest : List Text}
      (hname : ¬(name.isEmpty ∨ name = ['.'])) (hup : name ≠ ['.', '.'])
      (hlink : t.linkAt? (place ++ [name]) = none)
      (hrest : FollowsIn t depth (place ++ [name]) rest found) :
      FollowsIn t depth place (name :: rest) found
  | link {depth : Nat} {place inner found : Place} {name target : Text} {rest : List Text}
      (hname : ¬(name.isEmpty ∨ name = ['.'])) (hup : name ≠ ['.', '.'])
      (hlink : t.linkAt? (place ++ [name]) = some target)
      (htarget : FollowsIn t depth (linkStart place target) (Text.splitOn '/' target) inner)
      (hrest : FollowsIn t (depth + 1) inner rest found) :
      FollowsIn t (depth + 1) place (name :: rest) found

/-- Names lead from a place to another one. -/
def Follows (t : Tree) (place : Place) (names : List Text) (found : Place) : Prop :=
  ∃ depth, t.FollowsIn depth place names found

theorem FollowsIn.mono {less : Nat} (h : t.FollowsIn less place names found) (hle : less ≤ depth) :
    t.FollowsIn depth place names found := by
  induction h generalizing depth with
  | nil => exact .nil
  | stay hname _ ih => exact .stay hname (ih hle)
  | up _ ih => exact .up (ih hle)
  | step hname hup hlink _ ih => exact .step hname hup hlink (ih hle)
  | link hname hup hlink _ _ ihTarget ih =>
      cases depth with
      | zero => exact absurd hle (Nat.not_succ_le_zero _)
      | succ depth =>
          exact .link hname hup hlink (ihTarget (Nat.le_of_succ_le_succ hle)) (ih hle)

theorem FollowsIn.unique {depth' : Nat} (h : t.FollowsIn depth place names found)
    (hother : t.FollowsIn depth' place names other) : found = other := by
  induction h generalizing depth' other with
  | nil =>
      cases hother
      rfl
  | stay hname _ ih =>
      cases hother with
      | stay _ hrest => exact ih hrest
      | up => simp at hname
      | step hname' => exact absurd hname hname'
      | link hname' => exact absurd hname hname'
  | up _ ih =>
      cases hother with
      | stay hname => simp at hname
      | up hrest => exact ih hrest
      | step _ hup => exact absurd rfl hup
      | link _ hup => exact absurd rfl hup
  | step hname hup hlink _ ih =>
      cases hother with
      | stay hname' => exact absurd hname' hname
      | up => exact absurd rfl hup
      | step _ _ _ hrest => exact ih hrest
      | link _ _ hlink' => simp [hlink] at hlink'
  | link hname hup hlink _ _ ihTarget ih =>
      cases hother with
      | stay hname' => exact absurd hname' hname
      | up => exact absurd rfl hup
      | step _ _ hlink' => simp [hlink] at hlink'
      | link _ _ hlink' htarget' hrest' =>
          rw [hlink] at hlink'
          cases hlink'
          rw [ihTarget htarget'] at ih
          exact ih hrest'

theorem Follows.unique (h : t.Follows place names found) (hother : t.Follows place names other) :
    found = other := by
  obtain ⟨_, h⟩ := h
  obtain ⟨_, hother⟩ := hother
  exact h.unique hother

theorem FollowsIn.append (h : t.FollowsIn depth place front other)
    (hrest : t.FollowsIn depth other rest found) :
    t.FollowsIn depth place (front ++ rest) found := by
  induction h with
  | nil => exact hrest
  | stay hname _ ih => exact .stay hname (ih hrest)
  | up _ ih => exact .up (ih hrest)
  | step hname hup hlink _ ih => exact .step hname hup hlink (ih hrest)
  | link hname hup hlink htarget _ _ ih => exact .link hname hup hlink htarget (ih hrest)

theorem FollowsIn.exists_middle (h : t.FollowsIn depth place (front ++ rest) found) :
    ∃ middle, t.FollowsIn depth place front middle ∧ t.FollowsIn depth middle rest found := by
  generalize hnames : front ++ rest = names at h
  induction h generalizing front with
  | nil =>
      obtain ⟨rfl, rfl⟩ := List.append_eq_nil_iff.1 hnames
      exact ⟨_, .nil, .nil⟩
  | stay hname hrest ih =>
      rcases List.append_eq_cons_iff.1 hnames with ⟨rfl, rfl⟩ | ⟨front, rfl, rfl⟩
      · exact ⟨_, .nil, .stay hname hrest⟩
      · obtain ⟨middle, hfront, hbehind⟩ := ih rfl
        exact ⟨middle, .stay hname hfront, hbehind⟩
  | up hrest ih =>
      rcases List.append_eq_cons_iff.1 hnames with ⟨rfl, rfl⟩ | ⟨front, rfl, rfl⟩
      · exact ⟨_, .nil, .up hrest⟩
      · obtain ⟨middle, hfront, hbehind⟩ := ih rfl
        exact ⟨middle, .up hfront, hbehind⟩
  | step hname hup hlink hrest ih =>
      rcases List.append_eq_cons_iff.1 hnames with ⟨rfl, rfl⟩ | ⟨front, rfl, rfl⟩
      · exact ⟨_, .nil, .step hname hup hlink hrest⟩
      · obtain ⟨middle, hfront, hbehind⟩ := ih rfl
        exact ⟨middle, .step hname hup hlink hfront, hbehind⟩
  | link hname hup hlink htarget hrest _ ih =>
      rcases List.append_eq_cons_iff.1 hnames with ⟨rfl, rfl⟩ | ⟨front, rfl, rfl⟩
      · exact ⟨_, .nil, .link hname hup hlink htarget hrest⟩
      · obtain ⟨middle, hfront, hbehind⟩ := ih rfl
        exact ⟨middle, .link hname hup hlink htarget hfront, hbehind⟩

/-- Names are followed one after the other. -/
theorem follows_append_iff : t.Follows place (front ++ rest) found ↔
    ∃ middle, t.Follows place front middle ∧ t.Follows middle rest found := by
  constructor
  · rintro ⟨depth, h⟩
    obtain ⟨middle, hfront, hrest⟩ := h.exists_middle
    exact ⟨middle, ⟨depth, hfront⟩, ⟨depth, hrest⟩⟩
  · rintro ⟨middle, ⟨depth, hfront⟩, ⟨depth', hrest⟩⟩
    exact ⟨max depth depth', (hfront.mono (Nat.le_max_left _ _)).append
      (hrest.mono (Nat.le_max_right _ _))⟩

/-- If all links lead somewhere, all names do. -/
theorem exists_follows
    (h : ∀ place name target, t.linkAt? (place ++ [name]) = some target →
      ∃ found, t.Follows (linkStart place target) (Text.splitOn '/' target) found)
    (place : Place) (names : List Text) : ∃ found, t.Follows place names found := by
  induction names generalizing place with
  | nil => exact ⟨place, 0, .nil⟩
  | cons name names ih =>
      by_cases hname : name.isEmpty ∨ name = ['.']
      · obtain ⟨found, depth, hfound⟩ := ih place
        exact ⟨found, depth, .stay hname hfound⟩
      by_cases hup : name = ['.', '.']
      · obtain ⟨found, depth, hfound⟩ := ih place.dropLast
        exact ⟨found, depth, hup ▸ .up hfound⟩
      cases hlink : t.linkAt? (place ++ [name]) with
      | none =>
          obtain ⟨found, depth, hfound⟩ := ih (place ++ [name])
          exact ⟨found, depth, .step hname hup hlink hfound⟩
      | some target =>
          obtain ⟨inner, depth, hinner⟩ := h place name target hlink
          obtain ⟨found, depth', hfound⟩ := ih inner
          exact ⟨found, max depth depth' + 1, .link hname hup hlink
            (hinner.mono (Nat.le_max_left _ _))
            (hfound.mono (Nat.le_succ_of_le (Nat.le_max_right _ _)))⟩

end Following

section Walking

variable {t : Tree} {met : Met} {depth : Nat} {place found : Place} {names : List Text}

/-- What a walk has met of a link is where it leads. -/
def Remembers (t : Tree) (met : Met) : Prop :=
  ∀ place name target found, t.linkAt? (place ++ [name]) = some target →
    met.lookup (place ++ [name]) = some (some found) →
    t.Follows (linkStart place target) (Text.splitOn '/' target) found

/-- The links whose targets a walk is on lead nowhere, or through at least so many links one in the
other. -/
def IsOn (t : Tree) (met : Met) (depth : Nat) : Prop :=
  ∀ place name target, t.linkAt? (place ++ [name]) = some target →
    met.lookup (place ++ [name]) = some none → ∀ less < depth, ∀ found,
      ¬t.FollowsIn less (linkStart place target) (Text.splitOn '/' target) found

/-- The second walk is on no target but those of the first one. -/
def LeavesOn (met met' : Met) : Prop :=
  ∀ link, met'.lookup link = some none → met.lookup link = some none

theorem remembers_nil : t.Remembers [] :=
  fun _ _ _ _ _ hlookup => nomatch hlookup

theorem IsOn.of_leavesOn {met' : Met} (h : t.IsOn met depth) (hleaves : LeavesOn met met') :
    t.IsOn met' depth :=
  fun place name target hlink hlookup => h place name target hlink (hleaves _ hlookup)

theorem Remembers.begin (h : t.Remembers met) (link : Place) : t.Remembers ((link, none) :: met)
    := by
  intro place name target found hlink hlookup
  rw [List.lookup_cons] at hlookup
  split at hlookup
  · cases hlookup
  · exact h place name target found hlink hlookup

theorem Remembers.resolved {name target : Text} (h : t.Remembers met)
    (hlink : t.linkAt? (place ++ [name]) = some target)
    (htarget : t.Follows (linkStart place target) (Text.splitOn '/' target) found) :
    t.Remembers ((place ++ [name], some found) :: met) := by
  intro place' name' target' found' hlink' hlookup
  rw [List.lookup_cons] at hlookup
  split at hlookup
  next heq =>
    obtain ⟨rfl, hnames⟩ := List.append_inj' (beq_iff_eq.1 heq) rfl
    cases hnames
    rw [hlink] at hlink'
    cases hlink'
    cases hlookup
    exact htarget
  next => exact h place' name' target' found' hlink' hlookup

/-- A walk may go on the target of a link that needs the given links at least. -/
theorem IsOn.begin {name target : Text} {less : Nat} (h : t.IsOn met depth) (hle : less ≤ depth)
    (hlink : t.linkAt? (place ++ [name]) = some target)
    (hmin : ∀ fewer < less, ∀ found,
      ¬t.FollowsIn fewer (linkStart place target) (Text.splitOn '/' target) found) :
    t.IsOn ((place ++ [name], none) :: met) less := by
  intro place' name' target' hlink' hlookup fewer hfewer
  rw [List.lookup_cons] at hlookup
  split at hlookup
  next heq =>
    obtain ⟨rfl, hnames⟩ := List.append_inj' (beq_iff_eq.1 heq) rfl
    cases hnames
    rw [hlink] at hlink'
    cases hlink'
    exact hmin fewer hfewer
  next => exact h place' name' target' hlink' hlookup fewer (Nat.lt_of_lt_of_le hfewer hle)

theorem LeavesOn.resolved {link : Place} {met' : Met} (h : LeavesOn ((link, none) :: met) met')
    (found : Place) : LeavesOn met ((link, some found) :: met') := by
  intro other hlookup
  rw [List.lookup_cons] at hlookup
  split at hlookup
  next => cases hlookup
  next hne =>
    have hmet := h other hlookup
    rwa [List.lookup_cons, hne] at hmet

/-- A target is followed through as few links as there are. -/
theorem FollowsIn.exists_least (h : t.FollowsIn depth place names found) :
    ∃ less ≤ depth, t.FollowsIn less place names found ∧
      ∀ fewer < less, ∀ other, ¬t.FollowsIn fewer place names other := by
  induction depth using Nat.strongRecOn with
  | ind depth ih =>
      by_cases hfewer : ∃ fewer < depth, ∃ other, t.FollowsIn fewer place names other
      · obtain ⟨fewer, hlt, other, hother⟩ := hfewer
        obtain rfl := h.unique hother
        obtain ⟨less, hle, hleast⟩ := ih fewer hlt hother
        exact ⟨less, hle.trans (Nat.le_of_lt hlt), hleast⟩
      · exact ⟨depth, Nat.le_refl depth, h, fun fewer hlt other hother =>
          hfewer ⟨fewer, hlt, other, hother⟩⟩

/-- A walk comes to where the names in front lead, and goes on from there.  It is on the target of
no link that it meets on the way: that target would need more links than the names do. -/
theorem walk_of_followsIn (h : t.FollowsIn depth place names found) (hmet : t.Remembers met)
    (hon : t.IsOn met depth) (rest : List WalkStep) :
    ∃ met', t.walk met place (names.map .name ++ rest) = t.walk met' found rest ∧
      t.Remembers met' ∧ LeavesOn met met' := by
  induction depth using Nat.strongRecOn generalizing met place names found rest with
  | ind depth ihDepth =>
      induction names generalizing met place found with
      | nil =>
          cases h
          exact ⟨met, rfl, hmet, fun _ hlookup => hlookup⟩
      | cons name names ih =>
          rw [List.map_cons, List.cons_append, walk]
          cases h with
          | stay hname hrest =>
              rw [if_pos hname]
              exact ih hrest hmet hon
          | up hrest =>
              rw [if_neg (by simp), if_pos rfl]
              exact ih hrest hmet hon
          | step hname hup hlink hrest =>
              rw [if_neg hname, if_neg hup]
              split
              next => exact ih hrest hmet hon
              next target hlink' => simp [hlink] at hlink'
          | @link depth _ inner _ _ target _ hname hup hlink htarget hrest =>
              rw [if_neg hname, if_neg hup]
              split
              next hlink' => simp [hlink] at hlink'
              next target' hlink' =>
                obtain rfl : target = target' := Option.some.inj (hlink.symm.trans hlink')
                split
                next reached hlookup =>
                  have hreached := hmet _ _ _ _ hlink hlookup
                  obtain rfl := hreached.unique ⟨depth, htarget⟩
                  exact ih hrest hmet hon
                next hlookup =>
                  exact absurd htarget (hon _ _ _ hlink hlookup depth (Nat.lt_succ_self _) inner)
                next =>
                  obtain ⟨less, hle, hless, hmin⟩ := htarget.exists_least
                  obtain ⟨met', hwalk, hmet', hleaves⟩ := ihDepth less (Nat.lt_succ_of_le hle) hless
                    (hmet.begin _) (hon.begin (hle.trans (Nat.le_succ _)) hlink hmin)
                    (.resolved (place ++ [name]) :: (names.map .name ++ rest))
                  have hleaves' := hleaves.resolved inner
                  rw [hwalk, walk]
                  obtain ⟨met'', hbehind, hmet'', hleaves''⟩ :=
                    ih hrest (hmet'.resolved hlink ⟨depth, htarget⟩) (hon.of_leavesOn hleaves')
                  exact ⟨met'', hbehind, hmet'',
                    fun link hlookup => hleaves' _ (hleaves'' _ hlookup)⟩

/-- A walk comes to where the names lead. -/
theorem walk_of_follows (h : t.Follows place names found) :
    t.walk [] place (names.map .name) = found := by
  obtain ⟨depth, h⟩ := h
  have hon : t.IsOn [] depth := fun _ _ _ _ hlookup => nomatch hlookup
  obtain ⟨met', hwalk, -⟩ := walk_of_followsIn h remembers_nil hon []
  rw [List.append_nil] at hwalk
  rw [hwalk, walk]

end Walking

section Paths

variable {t : Tree} {path folder name : Text} {place inner : Place}

theorem names_append_cons (front rest : Text) :
    names (front ++ '/' :: rest) = names front ++ names rest := by
  rw [names, Text.splitOn_append_cons, List.filter_append]
  rfl

theorem names_append_replicate (front : Text) (count : Nat) :
    names (front ++ List.replicate count '/') = names front := by
  induction count generalizing front with
  | zero => rw [List.replicate_zero, List.append_nil]
  | succ count ih =>
      have hempty : names [] = [] := rfl
      rw [List.replicate_succ, List.append_cons, ih, names_append_cons, hempty, List.append_nil]

/-- The path of an entry has the names of the folder and of the entry. -/
theorem names_childPath (path name : Text) :
    names (childPath path name) = names path ++ names name := by
  rw [childPath]
  split
  next hempty =>
    rw [List.isEmpty_iff.1 hempty]
    rfl
  next =>
    obtain ⟨count, hpath⟩ := Text.exists_trimCharEnd '/' path
    have hnames := names_append_replicate (Text.trimCharEnd '/' path) count
    rw [← hpath] at hnames
    rw [names_append_cons, hnames]

/-- Is it a relative path without parent segments? -/
structure IsAllowed (path : Text) : Prop where
  relative : path.head? ≠ some '/' ∧ path.head? ≠ some '\\'
  downward : ['.', '.'] ∉ names path
  noNull : Char.ofNat 0 ∉ path

/-- Does a path lead to the place, link by link? -/
def Reaches (t : Tree) (path : Text) (place : Place) : Prop :=
  t.Follows t.root.place (names path) place

/-- The root directory is reached without links. -/
theorem followsIn_root {front rest : Place} (h : front ++ rest = t.root.place) :
    t.FollowsIn 0 front rest t.root.place := by
  induction rest generalizing front with
  | nil =>
      rw [List.append_nil] at h
      exact h ▸ .nil
  | cons name rest ih =>
      have hentry : Tree.isEntryName name = true := t.root.isEntryName name (by simp [← h])
      simp only [Tree.isEntryName, Bool.and_eq_true, bne_iff_ne, Bool.not_eq_true'] at hentry
      rw [← List.singleton_append, ← List.append_assoc] at h
      have hlink : t.linkAt? (front ++ [name]) = none := by
        have hprefix : (front ++ [name]).isPrefixOf t.root.place = true :=
          List.isPrefixOf_iff_prefix.2 ⟨rest, h⟩
        rw [linkAt?, node?, if_pos hprefix]
        simp
      exact .step (by simp [hentry]) (by simp [hentry]) hlink (ih h)

theorem Reaches.walk_eq (h : t.Reaches path place) :
    t.walk [] [] ((t.root.place ++ names path).map .name) = place :=
  walk_of_follows (follows_append_iff.2 ⟨t.root.place, ⟨0, followsIn_root rfl⟩, h⟩)

/-- An entry leads to the same place from every path to the folder. -/
theorem Reaches.childPath {other : Text} (hfolder : t.Reaches folder place)
    (hother : t.Reaches other place) (h : t.Reaches (childPath folder name) inner) :
    t.Reaches (Discovery.childPath other name) inner := by
  rw [Reaches, names_childPath, follows_append_iff] at h ⊢
  obtain ⟨middle, hmiddle, hinner⟩ := h
  obtain rfl := hmiddle.unique hfolder
  exact ⟨middle, hother, hinner⟩

theorem resolve_eq (h : IsAllowed path) :
    t.resolve path =
      if t.root.place.isPrefixOf (t.walk [] [] ((t.root.place ++ names path).map .name)) then
        .ok (t.walk [] [] ((t.root.place ++ names path).map .name))
      else .error (.escapesRoot path) := by
  have hhead : ¬(path.head? = some '/' ∨ path.head? = some '\\') := not_or.2 h.relative
  have hdownward : ¬(names path).contains ['.', '.'] = true := by simpa using h.downward
  have hnull : ¬path.contains (Char.ofNat 0) = true := by simpa using h.noNull
  exact (if_neg hhead).trans ((if_neg hdownward).trans (if_neg hnull))

/-- A path that does not resolve concerns itself only. -/
theorem isContained_of_resolve {f : Fault} (h : t.resolve path = .error f) :
    f.isContained = true := by
  rw [resolve] at h
  split at h
  · cases h
    rfl
  · split at h
    · cases h
      rfl
    · split at h
      · cases h
        rfl
      · dsimp only at h
        split at h
        · cases h
        · cases h
          rfl

theorem isAllowed_of_resolve (h : t.resolve path = .ok place) : IsAllowed path := by
  rw [resolve] at h
  split at h
  next => cases h
  next hrelative =>
    split at h
    next => cases h
    next hdownward =>
      split at h
      next => cases h
      next hnull => exact ⟨not_or.1 hrelative, by simpa using hdownward, by simpa using hnull⟩

/-- A path resolves to the place to which it leads, if there is one. -/
theorem reaches_of_resolve (h : t.resolve path = .ok inner)
    (hreaches : ∃ place, t.Reaches path place) :
    t.Reaches path inner := by
  obtain ⟨place, hplace⟩ := hreaches
  rw [resolve_eq (isAllowed_of_resolve h), hplace.walk_eq] at h
  split at h
  · cases h
    exact hplace
  · cases h

theorem Reaches.resolve_eq (h : t.Reaches path place) (hpath : IsAllowed path)
    (hroot : t.root.place <+: place) : t.resolve path = .ok place := by
  rw [Tree.resolve_eq hpath, h.walk_eq, if_pos (List.isPrefixOf_iff_prefix.2 hroot)]

/-- What resolves lies below the root. -/
theorem prefix_of_resolve (h : t.resolve path = .ok place) : t.root.place <+: place := by
  rw [resolve_eq (isAllowed_of_resolve h)] at h
  split at h
  next hprefix =>
    cases h
    exact List.isPrefixOf_iff_prefix.1 hprefix
  next => cases h

/-- An entry that one path has may be asked for behind another one. -/
theorem isAllowed_childPath (hpath : IsAllowed path) (hne : path ≠ [])
    (hentry : IsAllowed (childPath folder name)) : IsAllowed (childPath path name) := by
  obtain ⟨count, htrim⟩ := Text.exists_trimCharEnd '/' path
  have hchild : childPath path name = Text.trimCharEnd '/' path ++ '/' :: name := by
    rw [childPath, if_neg (by simpa using hne)]
  have hhead : (childPath path name).head? = path.head? := by
    rw [hchild]
    cases hfront : Text.trimCharEnd '/' path with
    | nil =>
        rw [hfront, List.nil_append] at htrim
        cases count with
        | zero => exact absurd htrim hne
        | succ count => exact absurd (by rw [htrim]; rfl) hpath.relative.1
    | cons c front =>
        rw [htrim, hfront]
        rfl
  have hsuffix : name <:+ childPath folder name := by
    rw [childPath]
    split
    · exact List.suffix_rfl
    · exact (List.suffix_cons '/' name).trans (List.suffix_append _ _)
  refine ⟨hhead ▸ hpath.relative, ?_, ?_⟩
  · have hdownward := hentry.downward
    rw [names_childPath, List.mem_append, not_or] at hdownward ⊢
    exact ⟨hpath.downward, hdownward.2⟩
  · rw [hchild, List.mem_append, List.mem_cons]
    rintro (hmem | hmem | hmem)
    · exact hpath.noNull (htrim ▸ List.mem_append_left _ hmem)
    · exact absurd hmem (by decide)
    · exact hentry.noNull (hsuffix.subset hmem)

end Paths

section Plain

variable {t : Tree} {root : RootPlace} {path name : Text} {place : Place}
  {nodes : List (Text × Node)}

/-- A tree of files and folders, whose names are names of paths. -/
structure IsPlain (t : Tree) : Prop where
  linkless : ∀ place target, t.nodes.get? place ≠ some (.link target)
  named : ∀ place ∈ t.nodes.keys, ∀ name ∈ place, names name = [name]

theorem mem_names : name ∈ names path ↔
    name ∈ Text.splitOn '/' path ∧ name ≠ [] ∧ name ≠ ['.'] := by
  rw [names, List.mem_filter]
  simp

theorem names_of_mem_names (h : name ∈ names path) : names name = [name] := by
  obtain ⟨hmem, hne, hpoint⟩ := mem_names.1 h
  rw [names, Text.splitOn_of_not_mem (Text.not_mem_of_mem_splitOn hmem)]
  simp [hne, hpoint]

theorem names_of_isEntryName (h : Tree.isEntryName name = true) : names name = [name] := by
  simp only [Tree.isEntryName, Bool.and_eq_true, bne_iff_ne, Bool.not_eq_true'] at h
  have hslash : '/' ∉ name := by simpa using h.1.1.2
  rw [names, Text.splitOn_of_not_mem hslash]
  simp [h]

theorem isPlain_ofList (h : ∀ e ∈ nodes, ∀ target, e.2 ≠ .link target) :
    (ofList root nodes).IsPlain where
  linkless place target hnode := by
    obtain ⟨e, he, heq⟩ := List.mem_map.1 (Table.mem_of_get?_ofList hnode)
    exact h e he target (congrArg Prod.snd heq)
  named place hplace name hname := by
    obtain ⟨e, he, rfl⟩ := List.mem_map.1 (Table.mem_keys_ofList hplace)
    obtain ⟨e', -, rfl⟩ := List.mem_map.1 he
    rcases List.mem_append.1 hname with hroot | hnames
    · exact names_of_isEntryName (root.isEntryName name hroot)
    · exact names_of_mem_names hnames

theorem IsPlain.node?_ne_link (ht : t.IsPlain) (place : Place) (target : Text) :
    t.node? place ≠ some (.link target) := by
  intro hnode
  rw [node?] at hnode
  split at hnode
  next => cases hnode
  next =>
    split at hnode
    next node hget =>
      cases hnode
      exact ht.linkless place target hget
    next => split at hnode <;> cases hnode

theorem IsPlain.linkAt?_eq (ht : t.IsPlain) (place : Place) : t.linkAt? place = none := by
  cases hlink : t.linkAt? place with
  | none => rfl
  | some target => exact absurd (node?_of_linkAt? hlink) (ht.node?_ne_link place target)

/-- Does a name lead further down?  Without one, a point and a parent segment do not. -/
def LeadsDown (name : Text) : Prop :=
  name ≠ [] ∧ name ≠ ['.'] ∧ name ≠ ['.', '.']

theorem leadsDown_of_isEntryName (h : Tree.isEntryName name = true) : LeadsDown name := by
  simp only [Tree.isEntryName, Bool.and_eq_true, bne_iff_ne, Bool.not_eq_true'] at h
  exact ⟨by simpa using h.1.1.1.1.1, h.1.1.1.1.2, h.1.1.1.2⟩

theorem IsAllowed.leadsDown (h : IsAllowed path) (hname : name ∈ names path) : LeadsDown name := by
  obtain ⟨-, hne, hpoint⟩ := mem_names.1 hname
  exact ⟨hne, hpoint, fun hup => h.downward (hup ▸ hname)⟩

theorem IsPlain.followsIn (ht : t.IsPlain) {front behind : Place}
    (hnames : ∀ name ∈ behind, LeadsDown name) : t.FollowsIn 0 front behind (front ++ behind) := by
  induction behind generalizing front with
  | nil => exact (List.append_nil front).symm ▸ .nil
  | cons name behind ih =>
      obtain ⟨⟨hne, hpoint, hup⟩, hrest⟩ := List.forall_mem_cons.1 hnames
      rw [List.append_cons]
      exact .step (by simp [hne, hpoint]) hup (ht.linkAt?_eq _) (ih hrest)

/-- Without links a path leads to the place with its names. -/
theorem IsPlain.reaches (ht : t.IsPlain) (h : IsAllowed path) :
    t.Reaches path (t.root.place ++ names path) :=
  ⟨0, ht.followsIn fun _ hname => h.leadsDown hname⟩

theorem IsPlain.resolve_eq (ht : t.IsPlain) (h : IsAllowed path) :
    t.resolve path = .ok (t.root.place ++ names path) :=
  (ht.reaches h).resolve_eq h (List.prefix_append _ _)

/-- The name below a place is the next one on the way. -/
theorem childOf?_iff {other : Place} :
    childOf? place other = some name ↔ ∃ rest, other = place ++ name :: rest := by
  rw [childOf?]
  constructor
  · intro hchild
    split at hchild
    next hprefix =>
      obtain ⟨behind, rfl⟩ := List.isPrefixOf_iff_prefix.1 hprefix
      rw [List.getElem?_append_right (Nat.le_refl _), Nat.sub_self] at hchild
      obtain ⟨rest, rfl⟩ := List.head?_eq_some_iff.1 (List.head?_eq_getElem? ▸ hchild)
      exact ⟨rest, rfl⟩
    next => cases hchild
  · rintro ⟨rest, rfl⟩
    rw [if_pos (List.isPrefixOf_iff_prefix.2 (List.prefix_append _ _)),
      List.getElem?_append_right (Nat.le_refl _), Nat.sub_self]
    rfl

theorem mem_children : name ∈ t.children place ↔
    ∃ rest, place ++ name :: rest ∈ t.nodes.keys := by
  rw [children, List.mem_mergeSort, List.mem_eraseDups, List.mem_filterMap]
  simp only [childOf?_iff]
  constructor
  · rintro ⟨key, hkey, rest, rfl⟩
    exact ⟨rest, hkey⟩
  · rintro ⟨rest, hkey⟩
    exact ⟨_, hkey, rest, rfl⟩

end Plain

end Tree
end Phrasebook
