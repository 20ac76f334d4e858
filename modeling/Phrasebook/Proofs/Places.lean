import Mathlib
import Phrasebook.Files.Tree
import Phrasebook.Proofs.Dict

/-!
# Places in a File Tree

What is changed at one place of a tree leaves all other places as they were. To say
that of a tree needs care with the places above the one that is changed, since what is
there contains the change. `FileTree.node?` looks only at the place itself, and does
not tell one directory from another. With it the statement is the same for all places
that are not at or below the changed one.

Two places that lie apart have nothing to do with each other at all
(`FileTree.get?_put_of_apart`). A place above the changed one is a directory before and
after (`FileTree.node?_above`), provided the change makes no directories on its
way. Where directories are made, it is by `FileTree.makeFrom`, one after another, and
only where nothing was; `FileTree.Grown` is what that leaves of the tree.

## Main definitions

* `Path.AllPlain`: Names that lead down.
* `FileTree.Node`, `FileTree.node?`: What stands at a place, apart from what is below.
* `FileTree.Kept`: A place is as it was, but for a directory that was made there.
* `FileTree.Passable`: No file stands on the way to a place.
* `FileTree.Grown`: A tree with some directories more, on the way to a place.

## Theorems

* `FileTree.get?_append`: A place is found step by step.
* `FileTree.get?_put_above`, `FileTree.get?_put_of_apart`: Look-up in a tree after
  something was put there.
* `FileTree.node?_put`, `FileTree.node?_drop`: Putting something at a place or dropping
  it leaves all other places.
* `FileTree.makeFrom_cons_cases`: What making one directory does.
* `FileTree.grown_makeFrom`, `FileTree.makeFrom_eq_true_iff`, `FileTree.get?_makeFrom`:
  What making directories does, and when all of them can be made.
-/

namespace Phrasebook

/-- After a key was dropped it has no value, and any other key what it had. -/
theorem Assoc.lookup_erase {α : Type} (key query : String) (pairs : List (String × α)) :
    (erase key pairs).lookup query = if query = key then none else pairs.lookup query := by
  induction pairs with
  | nil => exact (ite_self none).symm
  | cons pair rest ih =>
      rcases pair with ⟨k, value⟩
      unfold erase at ih ⊢
      rw [List.filter_cons]
      -- The first pair is dropped or kept, and the query may be for it or for another one.
      by_cases hk : k = key
      · rw [if_neg (by simp only [hk, bne_self_eq_false, Bool.false_eq_true, not_false_eq_true]), ih,
          lookup_cons_eq_ite, hk]
        by_cases hquery : query = key
        · rw [if_pos hquery, if_pos hquery]
        · rw [if_neg hquery, if_neg hquery, if_neg hquery]
      · rw [if_pos (bne_iff_ne.mpr hk), lookup_cons_eq_ite, lookup_cons_eq_ite, ih]
        by_cases hquery : query = k
        · have hne : query ≠ key := fun h => hk (hquery.symm.trans h)
          rw [if_pos hquery, if_neg hne, if_pos hquery]
        · rw [if_neg hquery, if_neg hquery]

/-- Names that are not those of the directory they stand in, or of the one around it. -/
def Path.AllPlain (names : List String) : Prop := ∀ name ∈ names, name ≠ "." ∧ name ≠ ".."

instance (names : List String) : Decidable (Path.AllPlain names) :=
  inferInstanceAs (Decidable (∀ name ∈ names, _))

namespace FileTree

/-- What stands at a place itself, apart from what is below it. -/
inductive Node where
  | file (content : ByteArray)
  | directory
  deriving DecidableEq

/-- What a tree is at its own empty place. -/
def node : FileTree → Node
  | file content => .file content
  | directory _ => .directory

/-- What stands at a place. -/
def node? (tree : FileTree) (place : List String) : Option Node := (tree.get? place).map node

section Lookup

variable (tree new : FileTree)

theorem get?_cons (name : String) (place : List String) : tree.get? (name :: place) =
    (tree.members.lookup name).bind (fun member => member.get? place) := by
  cases tree <;> rfl

/-- What is in a place is found from there. -/
theorem get?_append (front back : List String) :
    tree.get? (front ++ back) = (tree.get? front).bind (fun inside => inside.get? back) := by
  induction front generalizing tree with
  | nil => rw [List.nil_append, get?_nil, Option.bind_some]
  | cons name front ih =>
      rw [List.cons_append, get?_cons, get?_cons, Option.bind_assoc]
      exact congrArg _ (funext ih)

/-- A tree with nothing below it has nothing at a place below it. -/
theorem get?_of_members_nil (place : List String) (hplace : place ≠ [])
    (h : tree.members = []) : tree.get? place = none := by
  cases place with
  | nil => exact absurd rfl hplace
  | cons name place =>
      rw [get?_cons, h]
      rfl

/-- What is below a member, which may be missing. -/
theorem get?_member (name : String) (place : List String) (hplace : place ≠ []) :
    ((tree.members.lookup name).getD empty).get? place = tree.get? (name :: place) := by
  rw [get?_cons]
  cases tree.members.lookup name with
  | none => exact get?_of_members_nil empty place hplace rfl
  | some member => rfl

theorem hasDirectory_iff (place : List String) :
    tree.hasDirectory place = true ↔ tree.node? place = some .directory := by
  unfold hasDirectory node?
  cases tree.get? place with
  | none => simp
  | some inside => cases inside <;> simp [isDirectoryNode, node]

theorem get?_eq_file_iff (place : List String) (content : ByteArray) :
    tree.get? place = some (file content) ↔ tree.node? place = some (.file content) := by
  unfold node?
  cases tree.get? place with
  | none => simp
  | some inside => cases inside <;> simp [node]

theorem node?_of_get? {tree inside : FileTree} {place : List String}
    (h : tree.get? place = some inside) : tree.node? place = some inside.node :=
  congrArg (Option.map node) h

/-- What has something below it is a directory. -/
theorem node?_of_get?_append (front back : List String) (hback : back ≠ [])
    (h : (tree.get? (front ++ back)).isSome) : tree.node? front = some .directory := by
  rw [get?_append] at h
  unfold node?
  cases hfront : tree.get? front with
  | none =>
      rw [hfront] at h
      cases h
  | some inside =>
      -- Inside a file there is nothing.
      cases inside with
      | directory members => rfl
      | file content =>
          rw [hfront, Option.bind_some, get?_of_members_nil (file content) back hback rfl] at h
          cases h

/-- The places above a directory are directories. -/
theorem node?_above (front place : List String) (hfront : front <+: place)
    (h : tree.node? place = some .directory) : tree.node? front = some .directory := by
  rcases hfront with ⟨back, rfl⟩
  by_cases hback : back = []
  · rw [hback, List.append_nil] at h
    exact h
  · refine node?_of_get?_append tree front back hback ?_
    rcases Option.map_eq_some_iff.mp h with ⟨inside, hinside, -⟩
    rw [hinside]
    rfl

theorem put_cons (name : String) (place : List String) : tree.put (name :: place) new =
    directory (Assoc.insert name (((tree.members.lookup name).getD empty).put place new)
      tree.members) := by
  cases tree <;> rfl

/-- What is put below a place is put into what is there. -/
theorem get?_put_above (front back : List String) : (tree.put (front ++ back) new).get? front =
    some (((tree.get? front).getD empty).put back new) := by
  induction front generalizing tree with
  | nil => rw [List.nil_append, get?_nil, get?_nil, Option.getD_some]
  | cons name front ih =>
      rw [List.cons_append, put_cons, get?_cons, members, Assoc.lookup_insert, if_pos rfl,
        Option.bind_some, ih, get?_cons]
      -- Where no member is called so, an empty directory is put there first.
      cases tree.members.lookup name with
      | some member => rw [Option.getD_some, Option.bind_some]
      | none =>
          rw [Option.getD_none, Option.bind_none, Option.getD_none]
          by_cases hfront : front = []
          · rw [hfront, get?_nil, Option.getD_some]
          · rw [get?_of_members_nil empty front hfront rfl, Option.getD_none]

/-- What was put is at its place. -/
theorem get?_put_self (place : List String) : (tree.put place new).get? place = some new := by
  have habove := get?_put_above tree new place []
  rw [List.append_nil] at habove
  rw [habove]
  cases (tree.get? place).getD empty <;> rfl

/-- Apart from where something was put, all is as it was. -/
theorem get?_put_of_apart (place other : List String) (hbelow : ¬ place <+: other)
    (habove : ¬ other <+: place) : (tree.put place new).get? other = tree.get? other := by
  induction place generalizing tree other with
  | nil => exact absurd List.nil_prefix hbelow
  | cons name place ih =>
      cases other with
      | nil => exact absurd List.nil_prefix habove
      | cons name' other =>
          rw [put_cons, get?_cons, members, Assoc.lookup_insert]
          -- As long as the two places go the same way the claim is one about the member; where
          -- they part, the other one is not touched.
          by_cases hname : name' = name
          · subst hname
            rw [List.prefix_cons_inj] at hbelow habove
            have hother : other ≠ [] := fun hnil => habove (hnil ▸ List.nil_prefix)
            rw [if_pos rfl, Option.bind_some, ih _ other hbelow habove,
              get?_member tree name' other hother]
          · rw [if_neg hname, get?_cons]

/-- What is put into a directory leaves all places but its own. -/
theorem node?_put (around : List String) (name : String)
    (haround : tree.node? around = some .directory) (other : List String)
    (hother : ¬ around ++ [name] <+: other) :
    (tree.put (around ++ [name]) new).node? other = tree.node? other := by
  by_cases habove : other <+: around ++ [name]
  · -- A place above is a directory, before and after.
    rcases List.prefix_concat_iff.mp habove with rfl | hprefix
    · exact absurd List.prefix_rfl hother
    · rw [node?_above tree other around hprefix haround]
      rcases hprefix with ⟨back, rfl⟩
      unfold node?
      rw [List.append_assoc, get?_put_above, Option.map_some]
      cases back with
      | nil => rw [List.nil_append, put_cons, node]
      | cons first back => rw [List.cons_append, put_cons, node]
  · unfold node?
    rw [get?_put_of_apart tree new _ other hother habove]

/-- A file that is put into a directory, where no directory is, leaves all other places. -/
theorem node?_put_file (around : List String) (name : String) (content : ByteArray)
    (haround : tree.node? around = some .directory)
    (hfree : tree.node? (around ++ [name]) ≠ some .directory) (other : List String)
    (hother : other ≠ around ++ [name]) :
    (tree.put (around ++ [name]) (file content)).node? other = tree.node? other := by
  by_cases hbelow : around ++ [name] <+: other
  · -- There is nothing below a file, and there was nothing.
    rcases hbelow with ⟨below, rfl⟩
    have hnil : below ≠ [] := fun hnil => hother (by rw [hnil, List.append_nil])
    have hbefore : tree.get? (around ++ [name] ++ below) = none := by
      rw [← Option.not_isSome_iff_eq_none]
      exact fun hsome => hfree (node?_of_get?_append tree _ below hnil hsome)
    rw [node?, node?, hbefore, get?_append, get?_put_self, Option.bind_some,
      get?_of_members_nil (file content) below hnil rfl]
  · exact node?_put tree (file content) around name haround other hbelow

/-- Where nothing was an empty directory has nothing in it. -/
theorem get?_put_empty (place other : List String) (hnone : tree.get? place = none)
    (hother : ¬ other <+: place) : (tree.put place empty).get? other = tree.get? other := by
  by_cases hbelow : place <+: other
  · rcases hbelow with ⟨below, rfl⟩
    have hnil : below ≠ [] := by
      intro hnil
      rw [hnil, List.append_nil] at hother
      exact hother List.prefix_rfl
    rw [get?_append, get?_put_self, Option.bind_some, get?_of_members_nil empty below hnil rfl,
      get?_append, hnone, Option.bind_none]
  · exact get?_put_of_apart tree empty place other hbelow hother

/-- What is in a place or in an empty directory, if there is nothing, is what is below the
    place. -/
theorem getD_get?_append (front back : List String) :
    (((tree.get? front).getD empty).get? back).getD empty =
      (tree.get? (front ++ back)).getD empty := by
  rw [get?_append]
  cases tree.get? front with
  | some inside => rfl
  | none =>
      by_cases hback : back = []
      · rw [hback, Option.getD_none, get?_nil]
        rfl
      · rw [Option.getD_none, get?_of_members_nil empty back hback rfl]
        rfl

end Lookup

section Drop

variable (tree : FileTree)

theorem drop_singleton (name : String) :
    tree.drop [name] = directory (Assoc.erase name tree.members) := by
  cases tree <;> rfl

theorem drop_cons (name : String) (place : List String) (hplace : place ≠ [])
    (member : FileTree) (h : tree.members.lookup name = some member) :
    tree.drop (name :: place) = directory (Assoc.insert name (member.drop place) tree.members) := by
  cases place with
  | nil => exact absurd rfl hplace
  | cons next place =>
      cases tree <;> (rw [drop, h]; simp)

/-- What was there at a place is dropped, and all other places are left. -/
theorem get?_drop (place : List String) (hplace : place ≠ []) (h : (tree.get? place).isSome) :
    (tree.drop place).get? place = none ∧
      ∀ other, ¬ place <+: other → (tree.drop place).node? other = tree.node? other := by
  have hroot : tree.node? [] = some .directory := node?_of_get?_append tree [] place hplace h
  -- The root is a directory throughout: it has something in it, and so has each member on the
  -- way.
  induction place generalizing tree with
  | nil => exact absurd rfl hplace
  | cons name place ih =>
      by_cases hnil : place = []
      -- The last name is erased from its directory, and with it all that is inside.
      · subst hnil
        rw [drop_singleton]
        refine ⟨?_, fun other hother => ?_⟩
        · rw [get?_cons, members, Assoc.lookup_erase, if_pos rfl, Option.bind_none]
        · cases other with
          | nil =>
              rw [hroot]
              rfl
          | cons name' other =>
              have hname : ¬ name' = name :=
                fun heq => hother (heq ▸ List.cons_prefix_cons.mpr ⟨rfl, List.nil_prefix⟩)
              unfold node?
              rw [get?_cons, members, Assoc.lookup_erase, if_neg hname, get?_cons]
      · rw [get?_cons] at h
        rcases Option.isSome_iff_exists.mp h with ⟨inside, hinside⟩
        rcases Option.bind_eq_some_iff.mp hinside with ⟨member, hmember, hinside⟩
        have hmemberSome : (member.get? place).isSome := Option.isSome_iff_exists.mpr ⟨_, hinside⟩
        have hmemberRoot := node?_of_get?_append member [] place hnil hmemberSome
        -- Further up, the member on the way is put back with the place dropped from it.
        rcases ih member hnil hmemberSome hmemberRoot with ⟨hself, hothers⟩
        rw [drop_cons tree name place hnil member hmember]
        refine ⟨?_, fun other hother => ?_⟩
        · rw [get?_cons, members, Assoc.lookup_insert, if_pos rfl, Option.bind_some, hself]
        · cases other with
          | nil =>
              rw [hroot]
              rfl
          | cons name' other =>
              by_cases hname : name' = name
              · subst hname
                rw [List.prefix_cons_inj] at hother
                have hsame := hothers other hother
                unfold node? at hsame ⊢
                rw [get?_cons, members, Assoc.lookup_insert, if_pos rfl, Option.bind_some, hsame,
                  get?_cons, hmember, Option.bind_some]
              · unfold node?
                rw [get?_cons, members, Assoc.lookup_insert, if_neg hname, get?_cons]

end Drop

/-- A place is as it was. If it may be made, there may also be a directory where nothing
    was. -/
def Kept (tree after : FileTree) (place : List String) (made : Prop) : Prop :=
  after.node? place = tree.node? place ∨
    made ∧ tree.node? place = none ∧ after.node? place = some .directory

namespace Kept

variable {tree after last : FileTree} {place : List String} {made made' : Prop}

/-- What was there stays. -/
theorem node?_of_eq_some {node : Node} (h : Kept tree after place made)
    (hnode : tree.node? place = some node) : after.node? place = some node := by
  rcases h with hsame | ⟨-, hnone, -⟩
  · rw [hsame, hnode]
  · rw [hnode] at hnone
    cases hnone

/-- Anything but a directory was there before. -/
theorem node?_of_ne_directory (h : Kept tree after place made)
    (hnode : after.node? place ≠ some .directory) : tree.node? place = after.node? place := by
  rcases h with hsame | ⟨-, -, hmade⟩
  · exact hsame.symm
  · exact absurd hmade hnode

/-- Where nothing is, nothing was. -/
theorem node?_of_eq_none (h : Kept tree after place made) (hnode : after.node? place = none) :
    tree.node? place = none := by
  rw [h.node?_of_ne_directory (by rw [hnode]; exact nofun), hnode]

theorem mono (h : Kept tree after place made) (hmade : made → made') :
    Kept tree after place made' :=
  h.imp_right (fun ⟨h, hnone, hnew⟩ => ⟨hmade h, hnone, hnew⟩)

theorem trans (h : Kept tree after place made) (h' : Kept after last place made') :
    Kept tree last place (made ∨ made') := by
  rcases h' with hsame' | ⟨hmade', hnone', hnew⟩
  · rw [Kept, hsame']
    exact h.mono Or.inl
  · exact Or.inr ⟨Or.inr hmade', h.node?_of_eq_none hnone', hnew⟩

end Kept

/-- No file stands at a place or on the way to it. -/
def Passable (tree : FileTree) (path : List String) : Prop :=
  ∀ place, place <+: path → ∀ content, tree.node? place ≠ some (.file content)

/-- There is no file on the way to a directory. -/
theorem passable_of_directory (tree : FileTree) (path : List String)
    (h : tree.node? path = some .directory) : tree.Passable path := by
  intro place hplace content hfile
  rw [node?_above tree place path hplace h] at hfile
  cases hfile

/-- A tree that has some directories more than another one, all of them new and on the
    way to a place. -/
structure Grown (tree grown : FileTree) (path : List String) : Prop where
  kept : ∀ place, Kept tree grown place (place <+: path)
  apart : ∀ place, ¬ place <+: path → grown.get? place = tree.get? place

namespace Grown

variable {tree grown more : FileTree} {path : List String}

theorem refl : Grown tree tree path :=
  ⟨fun _ => Or.inl rfl, fun _ _ => rfl⟩

theorem trans (h : Grown tree grown path) (h' : Grown grown more path) :
    Grown tree more path := by
  refine ⟨fun place => ?_, fun place hplace => ?_⟩
  · have hkept := (h.kept place).trans (h'.kept place)
    rw [or_self] at hkept
    exact hkept
  · rw [h'.apart place hplace, h.apart place hplace]

/-- New directories leave the ways as they were. -/
theorem passable_iff (h : Grown tree grown path) (place : List String) :
    grown.Passable place ↔ tree.Passable place := by
  constructor
  · intro hpassable front hfront content hfile
    exact hpassable front hfront content ((h.kept front).node?_of_eq_some hfile)
  · intro hpassable front hfront content hfile
    have hbefore := (h.kept front).node?_of_ne_directory (by rw [hfile]; exact nofun)
    exact hpassable front hfront content (hbefore.trans hfile)

theorem mono {path' : List String} (h : Grown tree grown path) (hway : path <+: path') :
    Grown tree grown path' :=
  ⟨fun place => (h.kept place).mono (fun hplace => hplace.trans hway),
    fun place hplace => h.apart place (fun hpath => hplace (hpath.trans hway))⟩

/-- One directory is made in another one. -/
theorem put_empty (around : List String) (name : String)
    (haround : tree.node? around = some .directory) (hnone : tree.get? (around ++ [name]) = none) :
    Grown tree (tree.put (around ++ [name]) empty) (around ++ [name]) := by
  refine ⟨fun place => ?_, fun place hplace => get?_put_empty tree _ place hnone hplace⟩
  by_cases hbelow : around ++ [name] <+: place
  · by_cases habove : place <+: around ++ [name]
    · rw [habove.eq_of_length (Nat.le_antisymm habove.length_le hbelow.length_le)]
      refine Or.inr ⟨List.prefix_rfl, ?_, ?_⟩
      · rw [node?, hnone]
        rfl
      · exact node?_of_get? (get?_put_self _ _ _)
    · exact Or.inl (congrArg _ (get?_put_empty tree _ place hnone habove))
  · exact Or.inl (node?_put tree empty around name haround place hbelow)

end Grown

section Make

/-- The first of some directories cannot be made if its name is too long or a file has it.
    Otherwise it is there afterwards, with what was in it, and the rest is made in it. -/
theorem makeFrom_cons_cases (here names : List String) (name : String) (tree : FileTree)
    (hname : name ≠ "." ∧ name ≠ "..") (hhere : tree.node? here = some .directory) :
    makeFrom here (name :: names) tree = (false, tree) ∧
        ¬ (Path.isShort name = true ∧
          ∀ content, tree.node? (here ++ [name]) ≠ some (.file content)) ∨
      ∃ next, makeFrom here (name :: names) tree = makeFrom (here ++ [name]) names next ∧
        Path.isShort name = true ∧ Grown tree next (here ++ [name]) ∧
        next.get? (here ++ [name]) = some ((tree.get? (here ++ [name])).getD empty) ∧
        next.node? (here ++ [name]) = some .directory := by
  rw [makeFrom, if_neg hname.1, if_neg hname.2]
  cases hshort : Path.isShort name with
  | false =>
      rw [Bool.not_false, if_pos rfl]
      exact Or.inl ⟨rfl, fun h => Bool.false_ne_true h.1⟩
  | true =>
      rw [Bool.not_true, if_neg Bool.false_ne_true]
      dsimp only
      -- Nothing is there, and a directory is made; or a file is in the way; or a directory is
      -- there already.
      cases hplace : tree.get? (here ++ [name]) with
      | none =>
          exact Or.inr ⟨_, rfl, rfl, .put_empty here name hhere hplace, get?_put_self _ _ _,
            node?_of_get? (get?_put_self _ _ _)⟩
      | some inside =>
          cases inside with
          | file content =>
              refine Or.inl ⟨rfl, fun h => h.2 content ?_⟩
              exact (get?_eq_file_iff tree _ content).mp hplace
          | directory members =>
              exact Or.inr ⟨tree, rfl, rfl, .refl, hplace, node?_of_get? hplace⟩

variable (here names : List String) (tree : FileTree) (hplain : Path.AllPlain names)
  (hhere : tree.node? here = some .directory)

include hplain hhere

/-- Directories are made where nothing was, and nothing else changes, even if not all of
    them can be made. -/
theorem grown_makeFrom : Grown tree (makeFrom here names tree).2 (here ++ names) := by
  induction names generalizing here tree with
  | nil => exact .refl
  | cons name names ih =>
      rcases List.forall_mem_cons.mp hplain with ⟨hname, hrest⟩
      rw [List.append_cons]
      rcases makeFrom_cons_cases here names name tree hname hhere with
        ⟨hfail, -⟩ | ⟨next, hnext, -, hgrown, -, hthere⟩
      · rw [hfail]
        exact .refl
      · rw [hnext]
        exact (hgrown.mono (List.prefix_append _ _)).trans (ih _ next hrest hthere)

/-- All directories can be made if their names are short enough, and no file is on the
    way. -/
theorem makeFrom_eq_true_iff : (makeFrom here names tree).1 = true ↔
    (∀ name ∈ names, Path.isShort name = true) ∧ tree.Passable (here ++ names) := by
  induction names generalizing here tree with
  | nil =>
      rw [List.append_nil]
      exact iff_of_true rfl ⟨fun name hname => absurd hname List.not_mem_nil,
        passable_of_directory tree here hhere⟩
  | cons name names ih =>
      rcases List.forall_mem_cons.mp hplain with ⟨hname, hrest⟩
      rw [List.append_cons, List.forall_mem_cons]
      rcases makeFrom_cons_cases here names name tree hname hhere with
        ⟨hfail, hclosed⟩ | ⟨next, hnext, hshort, hgrown, -, hthere⟩
      -- The name at which the walk fails is too long or has a file.
      · rw [hfail]
        refine iff_of_false Bool.false_ne_true (fun h => hclosed ⟨h.1.1, ?_⟩)
        exact h.2 _ (List.prefix_append _ _)
      · rw [hnext, ih _ next hrest hthere, hgrown.passable_iff, hshort, eq_self_iff_true, true_and]

/-- If all directories could be made the last one is there. It has in it what it had
    before, and nothing if it is new. -/
theorem get?_makeFrom (hdone : (makeFrom here names tree).1 = true) :
    (makeFrom here names tree).2.get? (here ++ names) =
      some ((tree.get? (here ++ names)).getD empty) := by
  induction names generalizing here tree with
  | nil =>
      rw [List.append_nil]
      rcases Option.map_eq_some_iff.mp hhere with ⟨inside, hinside, -⟩
      rw [hinside, Option.getD_some]
      exact hinside
  | cons name names ih =>
      rcases List.forall_mem_cons.mp hplain with ⟨hname, hrest⟩
      rw [List.append_cons]
      rcases makeFrom_cons_cases here names name tree hname hhere with
        ⟨hfail, -⟩ | ⟨next, hnext, -, -, hget, hthere⟩
      · rw [hfail] at hdone
        cases hdone
      -- The directory that was made or found holds what was there, so the places inside it do.
      · rw [hnext] at hdone ⊢
        rw [ih _ next hrest hthere hdone, get?_append, hget, Option.bind_some, getD_get?_append]

end Make

end FileTree

end Phrasebook
