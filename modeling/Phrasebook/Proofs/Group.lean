import Mathlib.Data.List.Nodup
import Phrasebook.Catalogue.Group
import Phrasebook.Proofs.Dict

/-!
# Groups as Trees of Messages

What one entry changes in a group. `Group.add` follows a path through the inner
groups, making those that are missing, and comes back up replacing each group on
the path. Seen from outside, the tree answers one more question than before:
`entryAt?_add` says that the new entry is found at its path and name, and that
everywhere else what was found before is found still.

The tree is also listed, from the outermost group inwards, and counted. Listing
and look-up agree only if no two inner groups have one name, and a name means one
thing only if no message has the name of an inner group. `Sound` is that
invariant. It also says that no inner group is without messages, which holds
because a group is never made except on the way to a message. The group that
`add` starts from may be empty itself, so `Sound` speaks of the groups inside
alone.

## Main definitions

* `Group.entryAt?`: The entry below a path of inner groups.
* `Group.Sound`: Names are unique in a group and all groups inside it.

## Theorems

* `Group.add_nil_eq_ok_iff`, `Group.add_cons_eq_ok_iff`: When an entry can be
  added, and what becomes of the group.
* `Group.entryAt?_of_add`: Nothing was at the place where an entry is added.
* `Group.entryAt?_add`: One entry is new, and all others are what they were.
* `Group.sound_insert_message`, `Group.sound_insert_group`: What a message or group
  must be like to be put into a sound group.
* `Group.size_add`: Adding an entry adds one to the size.
* `Group.sound_add`: Adding an entry keeps the invariant.
* `Group.sound_of_below?`: The invariant holds of every group inside.
* `Group.mem_located_iff`: Exactly the groups that paths lead to are listed.
* `Group.exists_entryAt?_of_size_pos`: A message is found below every group.
* `Group.nodup_located`: No path is listed twice.
-/

namespace Phrasebook

namespace Group

/-- The entry with a name in the group below a path. -/
def entryAt? (g : Group) (path : List String) (name : String) : Option Entry :=
  (g.below? path).bind (fun inside => inside.messages.get? name)

/-- Below an inner group the rest of the path is followed from there. -/
theorem entryAt?_cons (g : Group) (inner : String) (path : List String) (name : String) :
    g.entryAt? (inner :: path) name =
      (g.group? inner).bind (fun inside => inside.entryAt? path name) := by
  rw [entryAt?, below?, Option.bind_assoc]
  rfl

/-- A path is followed one part after the other. -/
theorem below?_append (g : Group) (path rest : List String) :
    g.below? (path ++ rest) = (g.below? path).bind (fun inside => inside.below? rest) := by
  induction path generalizing g with
  | nil => rfl
  | cons inner path ih =>
      rw [List.cons_append, below?, below?, Option.bind_assoc]
      exact Option.bind_congr (fun inside _ => ih inside)

/-- In the empty group nothing is found. -/
theorem entryAt?_empty (path : List String) (name : String) : empty.entryAt? path name = none := by
  cases path with
  | nil => rfl
  | cons inner path => rfl

/-- An entry is added to a group itself unless its name is taken there. -/
theorem add_nil_eq_ok_iff (package name : String) (entry : Entry) (above : List String)
    (g g' : Group) :
    g.add package name entry above [] = .ok g' ↔
      g.messages.get? name = none ∧ g.group? name = none ∧
        g' = .node (g.messages.insert name entry) g.groups := by
  rw [add, Dict.contains]
  -- A name that is a message or a group here is refused.
  cases g.messages.get? name with
  | some other => simp only [Option.isSome_some, Bool.true_or, if_true, reduceCtorEq, false_and]
  | none =>
      cases g.group? name with
      | some inside => simp only [Option.isSome_some, Bool.or_true, if_true, reduceCtorEq,
          false_and, and_false]
      | none =>
          simp only [Option.isSome_none, Bool.or_self, Bool.false_eq_true, if_false,
            Except.ok.injEq, true_and]
          exact eq_comm

/-- An entry is added below an inner group unless a message has the name of that
    group; the group is made if it is missing. -/
theorem add_cons_eq_ok_iff (package name : String) (entry : Entry) (above : List String)
    (inner : String) (path : List String) (g g' : Group) :
    g.add package name entry above (inner :: path) = .ok g' ↔
      g.messages.get? inner = none ∧ ∃ changed,
        ((g.group? inner).getD .empty).add package name entry (above ++ [inner]) path =
          .ok changed ∧
        g' = .node g.messages (Assoc.insert inner changed g.groups) := by
  rw [add, Dict.contains]
  -- A message of that name would be in the way of the group.
  cases g.messages.get? inner with
  | some other => simp only [Option.isSome_some, if_true, reduceCtorEq, false_and]
  | none =>
      rw [if_neg (by simp only [Option.isSome_none, Bool.false_eq_true, not_false_eq_true]),
        Fallible.bind_eq_ok_iff]
      constructor
      · rintro ⟨changed, hchanged, heq⟩
        cases heq
        exact ⟨rfl, changed, hchanged, rfl⟩
      · rintro ⟨-, changed, hchanged, heq⟩
        exact ⟨changed, hchanged, heq ▸ rfl⟩

/-- Nothing was at the place where an entry is added. -/
theorem entryAt?_of_add (package name : String) (entry : Entry) (above path : List String)
    (g g' : Group) (h : g.add package name entry above path = .ok g') :
    g.entryAt? path name = none := by
  induction path generalizing above g g' with
  | nil => exact ((add_nil_eq_ok_iff _ _ _ _ _ _).mp h).1
  | cons inner path ih =>
      rcases (add_cons_eq_ok_iff _ _ _ _ _ _ _ _).mp h with ⟨-, changed, hchanged, -⟩
      have hinside := ih _ _ _ hchanged
      rw [entryAt?_cons]
      -- In a group that is new there was nothing.
      cases hgroup : g.group? inner with
      | none => rfl
      | some inside =>
          rw [hgroup, Option.getD_some] at hinside
          exact hinside

/-- Look-up after an addition: the new entry is at its place, and elsewhere is
    what was there before. -/
theorem entryAt?_add (package name : String) (entry : Entry) (above path : List String)
    (g g' : Group) (h : g.add package name entry above path = .ok g') (path' : List String)
    (name' : String) :
    g'.entryAt? path' name' =
      if path' = path ∧ name' = name then some entry else g.entryAt? path' name' := by
  -- Both paths are followed at once, until one ends or they part.
  induction path generalizing above g g' path' with
  | nil =>
      rcases (add_nil_eq_ok_iff _ _ _ _ _ _).mp h with ⟨-, -, rfl⟩
      cases path' with
      | nil =>
          have hget : ((g.messages.insert name entry).get? name') =
              if name' = name then some entry else g.messages.get? name' := Dict.get?_insert
          simp only [true_and]
          exact hget
      | cons inner' rest =>
          rw [if_neg (fun hc => List.cons_ne_nil _ _ hc.1), entryAt?_cons, entryAt?_cons]
          rfl
  | cons inner path ih =>
      rcases (add_cons_eq_ok_iff _ _ _ _ _ _ _ _).mp h with ⟨-, changed, hchanged, rfl⟩
      cases path' with
      | nil =>
          rw [if_neg (fun hc => List.cons_ne_nil _ _ hc.1.symm)]
          rfl
      | cons inner' rest =>
          have hgroup : group? (.node g.messages (Assoc.insert inner changed g.groups)) inner' =
              if inner' = inner then some changed else g.group? inner' := Assoc.lookup_insert
          rw [entryAt?_cons, entryAt?_cons, hgroup]
          by_cases hinner : inner' = inner
          · -- On the path: what is below is the changed group.
            rw [if_pos hinner, hinner, Option.bind_some, ih _ _ _ hchanged rest]
            by_cases hplace : rest = path ∧ name' = name
            · rw [if_pos hplace, if_pos ⟨congrArg (List.cons inner) hplace.1, hplace.2⟩]
            · rw [if_neg hplace, if_neg (fun hc => hplace ⟨(List.cons.inj hc.1).2, hc.2⟩)]
              cases g.group? inner with
              | none => exact entryAt?_empty rest name'
              | some inside => rfl
          · rw [if_neg hinner, if_neg (fun hc => hinner (List.cons.inj hc.1).1)]

/-- The inner groups are in order, none has the name of a message, each has a
    message somewhere below it, and the same holds inside each. -/
inductive Sound : Group → Prop
  | node (messages : Dict Entry) (groups : List (String × Group))
      (ordered : Assoc.Ordered groups)
      (disjoint : ∀ name entry, messages.get? name = some entry → groups.lookup name = none)
      (inhabited : ∀ pair ∈ groups, 0 < pair.2.size)
      (inner : ∀ pair ∈ groups, Sound pair.2) : Sound (.node messages groups)

/-- In a sound group the inner groups are those that look-up finds. -/
theorem mem_groups_iff (g : Group) (h : g.Sound) (inner : String) (child : Group) :
    (inner, child) ∈ g.groups ↔ g.group? inner = some child := by
  cases h with
  | node messages groups ordered disjoint inhabited hinner =>
      exact Assoc.mem_iff_lookup groups ordered inner child

/-- In a sound group no message has the name of an inner group. -/
theorem not_mem_names (g : Group) (h : g.Sound) (name : String) (entry : Entry)
    (hentry : g.messages.get? name = some entry) : name ∉ g.groups.map Prod.fst := by
  intro hmem
  rcases List.mem_map.mp hmem with ⟨⟨name, inside⟩, hpair, rfl⟩
  cases h with
  | node messages groups ordered disjoint inhabited inner =>
      -- The name would be found among the groups, where a message keeps it free.
      have hlookup := (Assoc.mem_iff_lookup groups ordered name inside).mp hpair
      rw [disjoint name entry hentry] at hlookup
      cases hlookup

/-- The group without messages is sound. -/
theorem sound_empty : Sound empty := by
  refine Sound.node _ _ List.Pairwise.nil (fun _ _ _ => rfl) ?_ ?_
  · intro pair hpair
    exact absurd hpair List.not_mem_nil
  · intro pair hpair
    exact absurd hpair List.not_mem_nil

/-- The size of some groups is the sum of their sizes. -/
theorem sizeOfGroups_eq (groups : List (String × Group)) :
    sizeOfGroups groups = (groups.map (fun pair => pair.2.size)).sum := by
  induction groups with
  | nil => rfl
  | cons head rest ih =>
      rw [sizeOfGroups, ih]
      rfl

/-- The size of a group: its messages and those of its inner groups. -/
theorem size_node (messages : Dict Entry) (groups : List (String × Group)) :
    size (.node messages groups) =
      messages.size + (groups.map (fun pair => pair.2.size)).sum := by
  rw [size, sizeOfGroups_eq]

/-- A group that is missing counts as the empty one. -/
theorem size_getD (g? : Option Group) : (g?.map size).getD 0 = (g?.getD .empty).size := by
  cases g? with
  | none => rfl
  | some g => rfl

/-- The inner group with a name, or the empty group if there is none, is sound. -/
theorem sound_group?_getD (g : Group) (h : g.Sound) (inner : String) :
    ((g.group? inner).getD .empty).Sound := by
  cases hgroup : g.group? inner with
  | none => exact sound_empty
  | some inside =>
      cases h with
      | node messages groups ordered disjoint inhabited hinner =>
          exact hinner (inner, inside) ((Assoc.mem_iff_lookup groups ordered _ _).mpr hgroup)

/-- A message that has the name of no group can be put into a sound group. -/
theorem sound_insert_message (messages : Dict Entry) (groups : List (String × Group))
    (h : Sound (.node messages groups)) (name : String) (entry : Entry)
    (hgroup : groups.lookup name = none) : Sound (.node (messages.insert name entry) groups) := by
  cases h with
  | node _ _ ordered disjoint inhabited inner =>
      refine Sound.node _ _ ordered ?_ inhabited inner
      intro name' entry' hentry
      rw [Dict.get?_insert] at hentry
      by_cases hname : name' = name
      · rw [hname]
        exact hgroup
      · rw [if_neg hname] at hentry
        exact disjoint name' entry' hentry

/-- A sound group with messages that has the name of no message can be put into a
    sound group, or take the place of a group there. -/
theorem sound_insert_group (messages : Dict Entry) (groups : List (String × Group))
    (h : Sound (.node messages groups)) (inner : String) (changed : Group)
    (hmessage : messages.get? inner = none) (hchanged : changed.Sound) (hsize : 0 < changed.size) :
    Sound (.node messages (Assoc.insert inner changed groups)) := by
  cases h with
  | node _ _ ordered disjoint inhabited hinner =>
      refine Sound.node _ _ ordered.insert ?_ ?_ ?_
      · intro name entry hentry
        -- No message has the name of the group that is put in.
        have hne : ¬name = inner := by
          intro heq
          rw [heq, hmessage] at hentry
          cases hentry
        rw [Assoc.lookup_insert, if_neg hne]
        exact disjoint name entry hentry
      · intro pair hpair
        rcases Assoc.mem_insert hpair with rfl | hold
        · exact hsize
        · exact inhabited pair hold
      · intro pair hpair
        rcases Assoc.mem_insert hpair with rfl | hold
        · exact hchanged
        · exact hinner pair hold

/-- Adding an entry adds one to the size. -/
theorem size_add (package name : String) (entry : Entry) (above path : List String)
    (g g' : Group) (hsound : g.Sound) (h : g.add package name entry above path = .ok g') :
    g'.size = g.size + 1 := by
  induction path generalizing above g g' with
  | nil =>
      rcases (add_nil_eq_ok_iff _ _ _ _ _ _).mp h with ⟨hmessage, -, rfl⟩
      cases hsound with
      | node messages groups ordered disjoint inhabited inner =>
          have hsize := Dict.size_insert messages name entry hmessage
          simp only [Group.messages, Group.groups, size_node]
          omega
  | cons inner path ih =>
      rcases (add_cons_eq_ok_iff _ _ _ _ _ _ _ _).mp h with ⟨-, changed, hchanged, rfl⟩
      have hsize := ih _ _ _ (sound_group?_getD g hsound inner) hchanged
      cases hsound with
      | node messages groups ordered disjoint inhabited hinner =>
          -- The sum over the groups changes by what the one group changes by.
          have hsum := Assoc.sum_insert size groups ordered inner changed
          have hchange : changed.size = ((groups.lookup inner).getD .empty).size + 1 := hsize
          rw [size_getD] at hsum
          simp only [Group.messages, Group.groups, size_node]
          omega

/-- Adding an entry keeps the invariant. Each group on the path has a message
    afterwards, since its size has grown. -/
theorem sound_add (package name : String) (entry : Entry) (above path : List String)
    (g g' : Group) (hsound : g.Sound) (h : g.add package name entry above path = .ok g') :
    g'.Sound := by
  induction path generalizing above g g' with
  | nil =>
      rcases (add_nil_eq_ok_iff _ _ _ _ _ _).mp h with ⟨-, hgroup, rfl⟩
      cases g with
      | node messages groups => exact sound_insert_message messages groups hsound name entry hgroup
  | cons inner path ih =>
      rcases (add_cons_eq_ok_iff _ _ _ _ _ _ _ _).mp h with ⟨hmessage, changed, hchanged, rfl⟩
      have hbefore := sound_group?_getD g hsound inner
      -- The group went up by one message, so it is inhabited now whatever it was.
      have hsize := size_add _ _ _ _ _ _ _ hbefore hchanged
      have hafter := ih _ _ _ hbefore hchanged
      cases g with
      | node messages groups =>
          exact sound_insert_group messages groups hsound inner changed hmessage hafter (by omega)

/-- The groups inside some groups, one after another. -/
theorem locatedInGroups_eq (above : List String) (groups : List (String × Group)) :
    locatedInGroups above groups =
      groups.flatMap (fun pair => pair.2.located (above ++ [pair.1])) := by
  induction groups with
  | nil => rfl
  | cons head rest ih =>
      rw [locatedInGroups, ih]
      rfl

/-- The invariant holds of every group inside, and each of these has messages. -/
theorem sound_of_below? (g : Group) (h : g.Sound) (path : List String) (inside : Group)
    (hbelow : g.below? path = some inside) :
    inside.Sound ∧ (path ≠ [] → 0 < inside.size) := by
  induction path generalizing g with
  | nil =>
      cases hbelow
      exact ⟨h, fun hne => absurd rfl hne⟩
  | cons inner path ih =>
      rcases Option.bind_eq_some_iff.mp hbelow with ⟨child, hchild, hrest⟩
      cases h with
      | node messages groups ordered disjoint inhabited hinner =>
          have hmem := (Assoc.mem_iff_lookup groups ordered inner child).mpr hchild
          rcases ih child (hinner _ hmem) hrest with ⟨hsound, hsize⟩
          refine ⟨hsound, fun _ => ?_⟩
          -- Where the path ends here, the inner group is inhabited because its parent is sound.
          cases path with
          | nil =>
              cases hrest
              exact inhabited _ hmem
          | cons next rest => exact hsize (List.cons_ne_nil _ _)

/-- Exactly the groups that paths lead to are listed, each with its path. -/
theorem mem_located_iff (g : Group) (h : g.Sound) (above path : List String) (inside : Group) :
    (path, inside) ∈ g.located above ↔
      ∃ rest, path = above ++ rest ∧ g.below? rest = some inside := by
  induction h generalizing above with
  | node messages groups ordered disjoint inhabited hinner ih =>
      rw [located, List.mem_cons, locatedInGroups_eq, List.mem_flatMap]
      -- Listing goes down by membership and look-up by name; the order ties them.
      constructor
      · rintro (hself | ⟨⟨inner, child⟩, hmem, hin⟩)
        · cases hself
          exact ⟨[], (List.append_nil path).symm, rfl⟩
        · rcases (ih _ hmem (above ++ [inner])).mp hin with ⟨rest, hpath, hbelow⟩
          refine ⟨inner :: rest, ?_, ?_⟩
          · rw [hpath, List.append_assoc, List.singleton_append]
          · have hlookup : groups.lookup inner = some child :=
              (Assoc.mem_iff_lookup groups ordered inner child).mp hmem
            exact Option.bind_eq_some_iff.mpr ⟨child, hlookup, hbelow⟩
      · rintro ⟨rest, hpath, hbelow⟩
        cases rest with
        | nil =>
            cases hbelow
            rw [hpath, List.append_nil]
            exact Or.inl rfl
        | cons inner rest =>
            rcases Option.bind_eq_some_iff.mp hbelow with ⟨child, hchild, hbelow⟩
            have hmem := (Assoc.mem_iff_lookup groups ordered inner child).mpr hchild
            refine Or.inr ⟨(inner, child), hmem, ?_⟩
            refine (ih _ hmem (above ++ [inner])).mpr ⟨rest, ?_, hbelow⟩
            rw [hpath, List.append_assoc, List.singleton_append]

/-- In a sound group that is not empty a message is found, in the group itself or
    below an inner one. -/
theorem exists_entryAt?_of_size_pos (g : Group) (h : g.Sound) (hsize : 0 < g.size) :
    ∃ path name entry, g.entryAt? path name = some entry := by
  induction h with
  | node messages groups ordered disjoint inhabited hinner ih =>
      by_cases hgroups : groups = []
      · -- Without inner groups the messages alone make up the size.
        rw [size_node, hgroups, List.map_nil, List.sum_nil] at hsize
        rcases List.exists_mem_of_length_pos hsize with ⟨⟨name, entry⟩, hmem⟩
        exact ⟨[], name, entry, (Dict.mem_pairs_iff messages name entry).mp hmem⟩
      · rcases List.exists_mem_of_ne_nil groups hgroups with ⟨⟨inner, child⟩, hmem⟩
        rcases ih _ hmem (inhabited _ hmem) with ⟨path, name, entry, hentry⟩
        have hlookup : groups.lookup inner = some child :=
          (Assoc.mem_iff_lookup groups ordered inner child).mp hmem
        refine ⟨inner :: path, name, entry, ?_⟩
        rw [entryAt?_cons]
        exact Option.bind_eq_some_iff.mpr ⟨child, hlookup, hentry⟩

/-- The paths listed for an inner group start with its name. -/
theorem exists_rest_of_mem_located (g : Group) (h : g.Sound) (above : List String) (inner : String)
    (path : List String) (hpath : path ∈ (g.located (above ++ [inner])).map Prod.fst) :
    ∃ rest, path = above ++ inner :: rest := by
  rcases List.mem_map.mp hpath with ⟨⟨path, inside⟩, hmem, rfl⟩
  rcases (mem_located_iff g h _ path inside).mp hmem with ⟨rest, hrest, -⟩
  refine ⟨rest, ?_⟩
  rw [hrest, List.append_assoc, List.singleton_append]

/-- No path is listed twice: below different inner groups paths differ in the
    name of that group. -/
theorem nodup_located (g : Group) (h : g.Sound) (above : List String) :
    ((g.located above).map Prod.fst).Nodup := by
  induction h generalizing above with
  | node messages groups ordered disjoint inhabited hinner ih =>
      rw [located, List.map_cons, locatedInGroups_eq, List.map_flatMap, List.nodup_cons,
        List.nodup_flatMap]
      refine ⟨?_, fun pair hpair => ih pair hpair _, ?_⟩
      · -- The group itself: all paths listed for inner groups are longer.
        intro hmem
        rcases List.mem_flatMap.mp hmem with ⟨pair, hpair, hpath⟩
        rcases exists_rest_of_mem_located pair.2 (hinner pair hpair) above pair.1 above hpath with
          ⟨rest, hrest⟩
        have hlength := congrArg List.length hrest
        rw [List.length_append, List.length_cons] at hlength
        omega
      · refine List.Pairwise.imp_of_mem ?_ ordered
        intro left right hleft hright hlt path hinleft hinright
        rcases exists_rest_of_mem_located left.2 (hinner left hleft) above left.1 path hinleft with
          ⟨rest, hrest⟩
        rcases exists_rest_of_mem_located right.2 (hinner right hright) above right.1 path
          hinright with ⟨rest', hrest'⟩
        have hname := (List.cons.inj (List.append_cancel_left (hrest.symm.trans hrest'))).1
        rw [hname] at hlt
        exact String.lt_irrefl right.1 hlt

end Group

end Phrasebook
