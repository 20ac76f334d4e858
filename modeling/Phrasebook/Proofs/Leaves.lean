import Phrasebook.Locale.Flatten
import Phrasebook.Proofs.Dict
import Phrasebook.Proofs.Key
import Phrasebook.Proofs.Source

/-!
# Leaves of a Document

Flattening goes through a value, where members stand by ascending name and each
name once. A source says more: it has members in another order, and some that do
not count since a later one in the same object has their name. The messages are
said here of both. `Value.leaves` are the values that are no objects, each with the
names that lead to it, and flattening puts them into a dictionary without losing
one. It succeeds exactly if that can be done and no name comes to nothing
(`flattenMembers_eq_ok_iff`): adding some leaves and then others is adding all of
them (`Adds.append_iff`), so the objects of a value can be taken one by one although
they share one dictionary. `Keeps` finds the same leaves in the source, through
members that count (`mem_leaves_resolve_iff`).

Together they say of which member of the source a message is the text. There is
one, and no other is flattened to the same key (`get?_flatten_iff`,
`eq_of_keeps_of_flatten`).

## Main definitions

* `Key.parentOf`: The key of an object, which the document itself does not have.
* `Value.leaves`: What is no object in a value.
* `Value.names`: The names of all members of all objects in a value.
* `Adds`: New keys with texts are added to a dictionary.
* `IsLast`: A member that counts.
* `Keeps`: A member that counts, in objects that count.
* `Route.segments`, `Route.key`: The key to which a member is flattened.

## Theorems

* `Adds.append_iff`: Adding twice.
* `flattenMembers_eq_ok_iff`, `adds_of_flatten`: Flattening adds all leaves.
* `mem_resolve_iff`: The members of a value are those that count.
* `mem_leaves_resolve_iff`: The leaves of a value in its source.
* `Keeps.mem_routes`: A member that counts can be reached.
* `Keeps.unique`: Names lead to one member that counts.
* `get?_flatten_iff`, `eq_of_keeps_of_flatten`: The member with the text of a
  message.
-/

namespace Phrasebook

namespace Key

/-- The key of the object with the given segments; the document itself has none. -/
def parentOf (segments : List String) : Option String :=
  if segments = [] then none else some (join segments)

theorem parentOf_of_ne_nil (segments : List String) (h : segments ≠ []) :
    parentOf segments = some (join segments) := if_neg h

/-- The key of a member has the segment of its name behind those of its object. -/
theorem extend_parentOf (segments : List String) (name : String) :
    extend (parentOf segments) name = join (segments ++ [normalize name]) := by
  by_cases hsegments : segments = []
  · rw [parentOf, if_pos hsegments, hsegments, List.nil_append, join,
      String.intercalate_singleton]
    rfl
  · rw [parentOf_of_ne_nil segments hsegments, join_append_singleton segments _ hsegments]
    rfl

end Key

namespace Json

mutual

/-- What is no object in a value, with the names of the members that lead to it. -/
def Value.leaves : Value → List (List String × Value)
  | .object members => Value.leavesOfMembers members
  | leaf => [([], leaf)]
termination_by structural value => value

/-- What is no object in the members of an object. -/
def Value.leavesOfMembers : List (String × Value) → List (List String × Value)
  | [] => []
  | (name, value) :: members =>
    value.leaves.map (fun leaf => (name :: leaf.1, leaf.2)) ++ Value.leavesOfMembers members
termination_by structural members => members

end

mutual

/-- The names of all members that can be reached in a value through objects. -/
def Value.names : Value → List String
  | .object members => Value.namesOfMembers members
  | _ => []
termination_by structural value => value

/-- The names of the members of an object, each followed by those reached in it. -/
def Value.namesOfMembers : List (String × Value) → List String
  | [] => []
  | (name, value) :: members => name :: (value.names ++ Value.namesOfMembers members)
termination_by structural members => members

end

theorem Value.mem_leavesOfMembers_iff (members : List (String × Value)) (path : List String)
    (leaf : Value) : (path, leaf) ∈ Value.leavesOfMembers members ↔
      ∃ name value rest, (name, value) ∈ members ∧ path = name :: rest ∧
        (rest, leaf) ∈ value.leaves := by
  induction members with
  | nil =>
      rw [leavesOfMembers]
      constructor
      · intro h
        exact absurd h List.not_mem_nil
      · rintro ⟨_, _, _, h, -⟩
        exact absurd h List.not_mem_nil
  | cons member members ih =>
      rcases member with ⟨name, value⟩
      -- A leaf is one of the first member, or one of the others.
      rw [leavesOfMembers, List.mem_append, ih, List.mem_map]
      constructor
      · rintro (⟨⟨rest, leaf'⟩, hleaf, heq⟩ | ⟨name', value', rest, hmem, hpath, hleaf⟩)
        · rcases Prod.mk.inj heq with ⟨hpath, rfl⟩
          exact ⟨name, value, rest, List.mem_cons_self, hpath.symm, hleaf⟩
        · exact ⟨name', value', rest, List.mem_cons_of_mem _ hmem, hpath, hleaf⟩
      · rintro ⟨name', value', rest, hmem, rfl, hleaf⟩
        rcases List.mem_cons.mp hmem with heq | hmem
        · rcases Prod.mk.inj heq with ⟨rfl, rfl⟩
          exact Or.inl ⟨(rest, leaf), hleaf, rfl⟩
        · exact Or.inr ⟨name', value', rest, hmem, rfl, hleaf⟩

end Json

namespace Locale

open Json (Value Tree Name Route)

/-- Leaves with their keys, when they are in the object with the given segments. -/
def keyed (segments : List String) (leaves : List (List String × Value)) :
    List (String × Value) :=
  leaves.map (fun leaf => (Key.join (segments ++ leaf.1.map Key.normalize), leaf.2))

theorem keyed_below (segments : List String) (name : String)
    (leaves : List (List String × Value)) :
    keyed segments (leaves.map (fun leaf => (name :: leaf.1, leaf.2))) =
      keyed (segments ++ [Key.normalize name]) leaves := by
  unfold keyed
  rw [List.map_map]
  refine List.map_congr_left (fun leaf _ => ?_)
  rw [List.append_assoc]
  rfl

/-- A dictionary is `known` with new keys, pairwise distinct, that have texts. -/
structure Adds (known : Dict String) (entries : List (String × Value)) (result : Dict String) :
    Prop where
  texts : ∀ entry ∈ entries, ∃ text, entry.2 = .string text
  fresh : ∀ entry ∈ entries, known.get? entry.1 = none
  nodup : (entries.map Prod.fst).Nodup
  get? : ∀ key text, result.get? key = some text ↔
    known.get? key = some text ∨ (key, .string text) ∈ entries

namespace Adds

variable (known mid result : Dict String)

/-- A dictionary with the same new keys and texts is the same. -/
theorem unique {entries : List (String × Value)} {other : Dict String}
    (h : Adds known entries result) (h' : Adds known entries other) : result = other := by
  refine Dict.ext_get? (fun key => Option.ext (fun text => ?_))
  rw [h.get?, h'.get?]

theorem nil_iff : Adds known [] result ↔ result = known := by
  have hnil : Adds known [] known :=
    { texts := fun entry h => absurd h List.not_mem_nil
      fresh := fun entry h => absurd h List.not_mem_nil
      nodup := List.nodup_nil
      get? := fun key text => by rw [or_iff_left List.not_mem_nil] }
  constructor
  · intro h
    exact h.unique known result hnil
  · rintro rfl
    exact hnil

theorem insert (key text : String) (h : known.get? key = none) :
    Adds known [(key, .string text)] (known.insert key text) where
  texts := fun entry hentry => ⟨text, by rw [List.mem_singleton.mp hentry]⟩
  fresh := fun entry hentry => by rw [List.mem_singleton.mp hentry, h]
  nodup := List.nodup_singleton key
  get? := by
    intro key' text'
    rw [Dict.get?_insert, List.mem_singleton]
    -- At the new key is the new text alone, since it had none before.
    by_cases hkey : key' = key
    · rw [if_pos hkey, hkey, h, Option.some.injEq]
      constructor
      · intro htext
        exact Or.inr (by rw [htext])
      · rintro (hnone | heq)
        · cases hnone
        · exact (Value.string.inj (Prod.mk.inj heq).2).symm
    · rw [if_neg hkey]
      constructor
      · exact Or.inl
      · rintro (hknown | heq)
        · exact hknown
        · exact absurd (Prod.mk.inj heq).1 hkey

theorem string_iff (key text : String) : Adds known [(key, .string text)] result ↔
    known.get? key = none ∧ result = known.insert key text := by
  constructor
  · intro h
    have hnone := h.fresh _ (List.mem_singleton_self _)
    exact ⟨hnone, h.unique known result (insert known key text hnone)⟩
  · rintro ⟨hnone, rfl⟩
    exact insert known key text hnone

/-- Nothing is added for what is no text. -/
theorem not_adds (key : String) (value : Value) (h : ∀ text, value ≠ .string text) :
    ¬ Adds known [(key, value)] result := by
  intro hadds
  rcases hadds.texts _ (List.mem_singleton_self _) with ⟨text, htext⟩
  exact h text htext

/-- Adding some entries, and then more. -/
theorem append (entries more : List (String × Value)) (h : Adds known entries mid)
    (hmore : Adds mid more result) : Adds known (entries ++ more) result where
  texts := fun entry hentry => (List.mem_append.mp hentry).elim (h.texts entry) (hmore.texts entry)
  fresh := by
    intro entry hentry
    rcases List.mem_append.mp hentry with hfirst | hsecond
    · exact h.fresh entry hfirst
    · -- What is known at the start is known in between.
      have hmid := hmore.fresh entry hsecond
      cases hknown : known.get? entry.1 with
      | none => rfl
      | some text =>
          rw [(h.get? entry.1 text).mpr (Or.inl hknown)] at hmid
          cases hmid
  nodup := by
    rw [List.map_append]
    refine List.Nodup.append h.nodup hmore.nodup ?_
    intro key hfirst hsecond
    rcases List.mem_map.mp hfirst with ⟨⟨key, value⟩, hentry, rfl⟩
    rcases List.mem_map.mp hsecond with ⟨entry, hentry', hsame⟩
    rcases h.texts _ hentry with ⟨text, htext⟩
    have hmid := hmore.fresh entry hentry'
    dsimp only at hsame htext
    rw [htext] at hentry
    rw [hsame, (h.get? key text).mpr (Or.inr hentry)] at hmid
    cases hmid
  get? := by
    intro key text
    rw [hmore.get?, h.get?, List.mem_append, or_assoc]

/-- Entries can be added if they are texts with new keys, none of them twice. -/
theorem exists_of_fresh (entries : List (String × Value))
    (htexts : ∀ entry ∈ entries, ∃ text, entry.2 = .string text)
    (hfresh : ∀ entry ∈ entries, known.get? entry.1 = none)
    (hnodup : (entries.map Prod.fst).Nodup) : ∃ result, Adds known entries result := by
  induction entries generalizing known with
  | nil => exact ⟨known, (nil_iff known known).mpr rfl⟩
  | cons entry entries ih =>
      rcases entry with ⟨key, value⟩
      rcases List.forall_mem_cons.mp htexts with ⟨⟨text, rfl⟩, hothers⟩
      rcases List.forall_mem_cons.mp hfresh with ⟨hnone, hnew⟩
      rcases List.nodup_cons.mp hnodup with ⟨hkey, hrest⟩
      -- The first key is none of the others, so these are still new behind it.
      have hbehind : ∀ other ∈ entries, (known.insert key text).get? other.1 = none := by
        intro other hother
        have hne : ¬ other.1 = key :=
          fun heq => hkey (List.mem_map.mpr ⟨other, hother, heq⟩)
        rw [Dict.get?_insert, if_neg hne, hnew other hother]
      rcases ih (known.insert key text) hothers hbehind hrest with ⟨result, hresult⟩
      exact ⟨result, append known _ result _ _ (insert known key text hnone) hresult⟩

/-- Entries in two parts are added one part after the other. -/
theorem append_iff (entries more : List (String × Value)) :
    Adds known (entries ++ more) result ↔ ∃ mid, Adds known entries mid ∧ Adds mid more result := by
  constructor
  · intro h
    have hnodup := h.nodup
    rw [List.map_append, List.nodup_append] at hnodup
    rcases hnodup with ⟨hfirst, hsecond, hdisjoint⟩
    -- The first entries can be added for themselves, and the others to what that gives: none
    -- of their keys is taken by then.
    rcases exists_of_fresh known entries
      (fun entry hentry => h.texts entry (List.mem_append_left _ hentry))
      (fun entry hentry => h.fresh entry (List.mem_append_left _ hentry)) hfirst with ⟨mid, hmid⟩
    have hfresh : ∀ entry ∈ more, mid.get? entry.1 = none := by
      intro entry hentry
      refine Option.eq_none_iff_forall_ne_some.mpr (fun text htext => ?_)
      rcases (hmid.get? entry.1 text).mp htext with hknown | hmem
      · rw [h.fresh entry (List.mem_append_right _ hentry)] at hknown
        cases hknown
      · exact hdisjoint _ (List.mem_map_of_mem hmem) _ (List.mem_map_of_mem hentry) rfl
    rcases exists_of_fresh mid more
      (fun entry hentry => h.texts entry (List.mem_append_right _ hentry)) hfresh hsecond with
      ⟨other, hother⟩
    -- Both orders give one dictionary, as what is added says what is found in it.
    rw [h.unique known result (append known mid other entries more hmid hother)]
    exact ⟨mid, hmid, hother⟩
  · rintro ⟨mid, hmid, hmore⟩
    exact append known mid result entries more hmid hmore

end Adds

mutual

/-- Flattening a value succeeds exactly if all names in it have segments, and what it
    then does is to add the leaves. -/
theorem flattenValue_eq_ok_iff (segments : List String) (hsegments : segments ≠ [])
    (known result : Dict String) (value : Value) :
    flattenValue (Key.join segments) known value = .ok result ↔
      (∀ name ∈ value.names, Key.normalize name ≠ "") ∧
        Adds known (keyed segments value.leaves) result := by
  -- A leaf has the key of the value itself, and no names are in it.
  have hkeyed : ∀ leaf : Value, leaf.leaves = [([], leaf)] →
      keyed segments leaf.leaves = [(Key.join segments, leaf)] := by
    intro leaf hleaves
    rw [hleaves, keyed, List.map_singleton, List.map_nil, List.append_nil]
  have hnot : ∀ leaf : Value, leaf.leaves = [([], leaf)] → (∀ text, leaf ≠ .string text) →
      ¬ Adds known (keyed segments leaf.leaves) result := by
    intro leaf hleaves htext
    rw [hkeyed leaf hleaves]
    exact Adds.not_adds known result _ leaf htext
  cases value with
  | object members =>
      rw [flattenValue, ← Key.parentOf_of_ne_nil segments hsegments, Value.leaves, Value.names]
      exact flattenMembers_eq_ok_iff segments known result members
  | string text =>
      have hnames : (Value.string text).names = [] := rfl
      rw [hkeyed (.string text) rfl, Adds.string_iff, flattenValue, hnames]
      simp only [List.not_mem_nil, false_implies, implies_true, true_and]
      by_cases hcontains : known.contains (Key.join segments) = true
      · have hsome : ¬ known.get? (Key.join segments) = none := by
          rw [← Option.isNone_iff_eq_none, ← Option.isSome_eq_false_iff, Bool.not_eq_false]
          exact hcontains
        rw [if_pos hcontains]
        simp only [reduceCtorEq, hsome, false_and]
      · have hnone : known.get? (Key.join segments) = none := by
          rw [← Option.isNone_iff_eq_none, ← Option.isSome_eq_false_iff, ← Bool.not_eq_true]
          exact hcontains
        rw [if_neg hcontains]
        simp only [Except.ok.injEq, hnone, true_and]
        exact eq_comm
  | null =>
      exact iff_of_false (fun h => by cases h) (fun h => hnot .null rfl (by simp) h.2)
  | boolean flag =>
      exact iff_of_false (fun h => by cases h) (fun h => hnot (.boolean flag) rfl (by simp) h.2)
  | number number =>
      exact iff_of_false (fun h => by cases h) (fun h => hnot (.number number) rfl (by simp) h.2)
  | array items =>
      exact iff_of_false (fun h => by cases h) (fun h => hnot (.array items) rfl (by simp) h.2)
termination_by structural value

/-- The same for the members of an object. -/
theorem flattenMembers_eq_ok_iff (segments : List String) (known result : Dict String)
    (members : List (String × Value)) :
    flattenMembers (Key.parentOf segments) known members = .ok result ↔
      (∀ name ∈ Value.namesOfMembers members, Key.normalize name ≠ "") ∧
        Adds known (keyed segments (Value.leavesOfMembers members)) result := by
  cases members with
  | nil =>
      rw [flattenMembers, Value.namesOfMembers, Value.leavesOfMembers]
      have hkeyed : keyed segments [] = [] := rfl
      rw [hkeyed, Adds.nil_iff, Except.ok.injEq]
      simp only [List.not_mem_nil, false_implies, implies_true, true_and]
      exact eq_comm
  | cons member members =>
      rcases member with ⟨name, value⟩
      have hkeyed : keyed segments (Value.leavesOfMembers ((name, value) :: members)) =
          keyed (segments ++ [Key.normalize name]) value.leaves ++
            keyed segments (Value.leavesOfMembers members) := by
        rw [← keyed_below, Value.leavesOfMembers]
        unfold keyed
        rw [List.map_append]
      have hvalue := fun mid => flattenValue_eq_ok_iff (segments ++ [Key.normalize name])
        (List.append_ne_nil_of_right_ne_nil _ (List.cons_ne_nil _ _)) known mid value
      have hmembers := fun mid => flattenMembers_eq_ok_iff segments mid result members
      rw [hkeyed, Adds.append_iff, Value.namesOfMembers, List.forall_mem_cons,
        List.forall_mem_append, flattenMembers]
      -- The key tells whether the name has a segment.
      by_cases hempty : Key.isUnfinished (Key.extend (Key.parentOf segments) name) = true
      · rw [if_pos hempty]
        rw [← Key.normalize_eq_empty_iff] at hempty
        simp only [reduceCtorEq, hempty, ne_eq, not_true_eq_false, false_and]
      · rw [if_neg hempty, Key.extend_parentOf]
        rw [← Key.normalize_eq_empty_iff] at hempty
        simp only [ne_eq, hempty, not_false_eq_true, true_and]
        cases hfirst : flattenValue (Key.join (segments ++ [Key.normalize name])) known value with
        | error defect =>
            constructor
            · intro h
              cases h
            · rintro ⟨⟨hnames, -⟩, mid, hmid, -⟩
              rw [(hvalue mid).mpr ⟨hnames, hmid⟩] at hfirst
              cases hfirst
        | ok mid =>
            rcases (hvalue mid).mp hfirst with ⟨hnames, hmid⟩
            dsimp only
            rw [hmembers mid]
            constructor
            · rintro ⟨hnames', hrest⟩
              exact ⟨⟨hnames, hnames'⟩, mid, hmid, hrest⟩
            · rintro ⟨⟨-, hnames'⟩, mid', hmid', hrest⟩
              rw [hmid'.unique known mid' hmid] at hrest
              exact ⟨hnames', hrest⟩
termination_by structural members

end

/-- Flattening a document adds the leaves of its members to no messages. -/
theorem adds_of_flatten (members : List (String × Value)) (messages : Dict String)
    (h : flatten (.object members) = .ok messages) :
    Adds .empty (keyed [] (Value.leavesOfMembers members)) messages :=
  ((flattenMembers_eq_ok_iff [] .empty messages members).mp h).2

end Locale

namespace Json

/-- A member that counts: behind it in the object no other has its name. -/
def IsLast (members : List (Name × Tree)) (name : Name) (tree : Tree) : Prop :=
  ∃ front back, members = front ++ (name, tree) :: back ∧ ∀ m ∈ back, m.1.text ≠ name.text

theorem IsLast.mem {members : List (Name × Tree)} {name : Name} {tree : Tree}
    (h : IsLast members name tree) : (name, tree) ∈ members := by
  rcases h with ⟨front, back, rfl, -⟩
  exact List.mem_append_right front List.mem_cons_self

/-- Of all members with one name one counts. -/
theorem IsLast.unique {members : List (Name × Tree)} {name name' : Name} {tree tree' : Tree}
    (h : IsLast members name tree) (h' : IsLast members name' tree')
    (htext : name.text = name'.text) : name = name' ∧ tree = tree' := by
  rcases h with ⟨front, back, rfl, hback⟩
  rcases h' with ⟨front', back', heq, hback'⟩
  -- Either stands behind the other, or they are one.
  rcases List.append_eq_append_iff.mp heq with ⟨between, -, hrest⟩ | ⟨between, -, hrest⟩
  · cases between with
    | nil => exact Prod.mk.inj (List.cons.inj hrest).1
    | cons m between =>
        have hmem : (name', tree') ∈ back := by
          rw [(List.cons.inj hrest).2]
          exact List.mem_append_right between List.mem_cons_self
        exact absurd htext.symm (hback _ hmem)
  · cases between with
    | nil =>
        have hsame := Prod.mk.inj (List.cons.inj hrest).1
        exact ⟨hsame.1.symm, hsame.2.symm⟩
    | cons m between =>
        have hmem : (name, tree) ∈ back' := by
          rw [(List.cons.inj hrest).2]
          exact List.mem_append_right between List.mem_cons_self
        exact absurd htext (hback' _ hmem)

theorem Tree.resolve_eq (members : List (Name × Tree)) (d : Dict Value) :
    Tree.resolve members d.pairs =
      (members.foldl (fun d m => d.insert m.1.text m.2.value) d).pairs := by
  induction members generalizing d with
  | nil => rfl
  | cons member members ih =>
      rcases member with ⟨name, tree⟩
      rw [Tree.resolve, List.foldl_cons, ← ih]
      rfl

/-- The members of a value are those of its source that count. -/
theorem Tree.mem_resolve_iff (members : List (Name × Tree)) (name : String) (value : Value) :
    (name, value) ∈ Tree.resolve members [] ↔
      ∃ n tree, IsLast members n tree ∧ n.text = name ∧ tree.value = value := by
  -- Resolving is the dictionary of the members, in which the last of a name counts.
  have hresolve : Tree.resolve members [] =
      (Dict.ofList (members.map (fun m => (m.1.text, m.2.value)))).pairs := by
    rw [Dict.ofList, List.foldl_map]
    exact Tree.resolve_eq members .empty
  rw [hresolve, Dict.mem_pairs_iff, Dict.get?_ofList_map_iff]
  constructor
  · rintro ⟨front, ⟨n, tree⟩, back, hmembers, heq, hback⟩
    rcases Prod.mk.inj heq with ⟨hname, hvalue⟩
    exact ⟨n, tree, ⟨front, back, hmembers, fun m hm => hname ▸ hback m hm⟩, hname, hvalue⟩
  · rintro ⟨n, tree, ⟨front, back, hmembers, hback⟩, rfl, rfl⟩
    exact ⟨front, (n, tree), back, hmembers, rfl, hback⟩

/-- A document has a value in a member that counts, in objects that count. -/
inductive Keeps : List (Name × Tree) → Route → Tree → Prop where
  | here {members : List (Name × Tree)} {name : Name} {tree : Tree} :
      IsLast members name tree → Keeps members ⟨[], name⟩ tree
  | inside {members inner : List (Name × Tree)} {name : Name} {route : Route} {tree : Tree} :
      IsLast members name (.object inner) → Keeps inner route tree →
      Keeps members (route.below name) tree

namespace Route

/-- What the names that lead to a member stand for. -/
def texts (r : Route) : List String := r.names.map Name.text

theorem texts_below (name : Name) (r : Route) : (r.below name).texts = name.text :: r.texts := rfl

theorem texts_ne_nil (r : Route) : r.texts ≠ [] := by
  unfold texts names
  rw [List.map_append]
  exact List.append_ne_nil_of_right_ne_nil _ (List.cons_ne_nil _ _)

/-- The segments that the names become. -/
def segments (r : Route) : List String := r.texts.map Key.normalize

/-- The key to which a member is flattened. -/
def key (r : Route) : String := Key.join r.segments

end Route

/-- The texts among the leaves of a value are those that its source keeps. -/
theorem mem_leaves_resolve_iff (members : List (Name × Tree)) (path : List String)
    (text : String) : (path, .string text) ∈ Value.leavesOfMembers (Tree.resolve members []) ↔
      ∃ route, Keeps members route (.string text) ∧ route.texts = path := by
  -- The induction is on the path: each name of it leads into one member.
  induction path generalizing members with
  | nil =>
      rw [Value.mem_leavesOfMembers_iff]
      constructor
      · rintro ⟨_, _, _, -, hpath, -⟩
        cases hpath
      · rintro ⟨route, -, hroute⟩
        exact absurd hroute route.texts_ne_nil
  | cons name path ih =>
      rw [Value.mem_leavesOfMembers_iff]
      constructor
      · rintro ⟨name', value, rest, hmem, hpath, hleaf⟩
        rcases List.cons.inj hpath with ⟨rfl, rfl⟩
        rcases (Tree.mem_resolve_iff members name value).mp hmem with ⟨n, tree, hlast, rfl, rfl⟩
        cases tree with
        | object inner =>
            rw [Tree.value, Value.leaves] at hleaf
            rcases (ih inner).mp hleaf with ⟨route, hkeeps, rfl⟩
            exact ⟨route.below n, .inside hlast hkeeps, Route.texts_below n route⟩
        | string text' =>
            rcases Prod.mk.inj (List.mem_singleton.mp hleaf) with ⟨rfl, htext⟩
            cases htext
            exact ⟨⟨[], n⟩, .here hlast, rfl⟩
        | null => cases (Prod.mk.inj (List.mem_singleton.mp hleaf)).2
        | boolean _ => cases (Prod.mk.inj (List.mem_singleton.mp hleaf)).2
        | number _ => cases (Prod.mk.inj (List.mem_singleton.mp hleaf)).2
        | array _ => cases (Prod.mk.inj (List.mem_singleton.mp hleaf)).2
      · rintro ⟨route, hkeeps, hroute⟩
        cases hkeeps with
        | here hlast =>
            rcases List.cons.inj hroute with ⟨rfl, rfl⟩
            refine ⟨_, .string text, [], ?_, rfl, List.mem_singleton_self _⟩
            exact (Tree.mem_resolve_iff members _ _).mpr ⟨_, _, hlast, rfl, rfl⟩
        | inside hlast hkeeps =>
            rw [Route.texts_below] at hroute
            rcases List.cons.inj hroute with ⟨rfl, rfl⟩
            refine ⟨_, _, _, (Tree.mem_resolve_iff members _ _).mpr ⟨_, _, hlast, rfl, rfl⟩,
              rfl, ?_⟩
            rw [Tree.value, Value.leaves]
            exact (ih _).mpr ⟨_, hkeeps, rfl⟩

/-- A member that counts can be reached. -/
theorem Keeps.mem_routes {members : List (Name × Tree)} {route : Route} {tree : Tree}
    (h : Keeps members route tree) : route ∈ Tree.routesOfMembers members := by
  induction h with
  | here hlast => exact (Tree.mem_routesOfMembers_iff _ _).mpr ⟨_, _, hlast.mem, Or.inl rfl⟩
  | inside hlast _ ih =>
      refine (Tree.mem_routesOfMembers_iff _ _).mpr ⟨_, _, hlast.mem, Or.inr ⟨_, ?_, rfl⟩⟩
      rwa [Tree.routes]

/-- Names lead to one member that counts. -/
theorem Keeps.unique {members : List (Name × Tree)} {route route' : Route} {text text' : String}
    (h : Keeps members route (.string text)) (h' : Keeps members route' (.string text'))
    (htexts : route.texts = route'.texts) : route = route' ∧ text = text' := by
  generalize htree : Tree.string text = tree at h
  -- Along the same names the members that count are the same, down to the text.
  induction h generalizing route' with
  | here hlast =>
      cases h' with
      | here hlast' =>
          rcases hlast.unique hlast' (List.cons.inj htexts).1 with ⟨rfl, rfl⟩
          exact ⟨rfl, Tree.string.inj htree⟩
      | inside _ hkeeps' => exact absurd (List.cons.inj htexts).2.symm (Route.texts_ne_nil _)
  | inside hlast _ ih =>
      rw [Route.texts_below] at htexts
      cases h' with
      | here hlast' => exact absurd (List.cons.inj htexts).2 (Route.texts_ne_nil _)
      | inside hlast' hkeeps' =>
          rw [Route.texts_below, List.cons.injEq] at htexts
          rcases hlast.unique hlast' htexts.1 with ⟨rfl, hinner⟩
          cases hinner
          rcases ih hkeeps' htexts.2 htree with ⟨rfl, htext⟩
          exact ⟨rfl, htext⟩

end Json

namespace Locale

open Json (Tree Name Route Keeps)

variable (members : List (Name × Tree)) (messages : Dict String)
  (h : flatten (Tree.object members).value = .ok messages)

include h

/-- Each message is the text of a member that the source keeps, and each such text
    is a message. -/
theorem get?_flatten_iff (key text : String) : messages.get? key = some text ↔
    ∃ route, Keeps members route (.string text) ∧ route.key = key := by
  rw [Tree.value] at h
  rw [(adds_of_flatten _ _ h).get?, Dict.get?_empty, keyed, List.mem_map]
  constructor
  · rintro (hnone | ⟨⟨path, leaf⟩, hleaf, heq⟩)
    · cases hnone
    · rcases Prod.mk.inj heq with ⟨hkey, rfl⟩
      rcases (Json.mem_leaves_resolve_iff members path text).mp hleaf with ⟨route, hkeeps, rfl⟩
      exact ⟨route, hkeeps, hkey⟩
  · rintro ⟨route, hkeeps, hkey⟩
    refine Or.inr ⟨(route.texts, .string text), ?_, Prod.ext hkey rfl⟩
    exact (Json.mem_leaves_resolve_iff members route.texts text).mpr ⟨route, hkeeps, rfl⟩

/-- No two members with texts that the source keeps are flattened to one key. -/
theorem eq_of_keeps_of_flatten (route route' : Route) (text text' : String)
    (hkeeps : Keeps members route (.string text)) (hkeeps' : Keeps members route' (.string text'))
    (hkey : route.key = route'.key) : route = route' := by
  rw [Tree.value] at h
  have hnodup := (adds_of_flatten _ _ h).nodup
  unfold keyed at hnodup
  rw [List.map_map] at hnodup
  have hleaf := (Json.mem_leaves_resolve_iff members route.texts text).mpr ⟨route, hkeeps, rfl⟩
  have hleaf' := (Json.mem_leaves_resolve_iff members route'.texts text').mpr
    ⟨route', hkeeps', rfl⟩
  have hsame := List.inj_on_of_nodup_map hnodup hleaf hleaf' hkey
  exact (hkeeps.unique hkeeps' (Prod.mk.inj hsame).1).1

end Locale

end Phrasebook
