import Phrasebook.Proofs.Flatten

/-!
# Documents without Dots in Names

A dot in a name means nothing: it is dropped before the name becomes a segment. So a
document can as well be written without any dots, if that leaves the names of each
object different. What flattening makes of it stays the same, but the way there does
not. Members stand by ascending name, and names without dots stand in another order,
so leaves are met in another order, and of several defects another one may be the
first.

For the result that does not matter. `flatten_eq_ok_iff` says what flattening gives
without an order: it is about which leaves there are and which names. Without dots
these are the same ones in another order (`perm_leaves_withoutDots`,
`mem_names_withoutDots_iff`), with the same segments and so with the same keys. The
names of one object may still become equal segments, since blanks are dropped too;
then both documents fail, or the objects with these names have one path in both.

## Main definitions

* `Key.withoutDots`: A name without its dots.
* `Value.withoutDots`: A value in which no name has dots.
* `Value.objectNames`: The names of the members of each object in a value.
* `Value.DotsApart`: Without dots the names in each object are different.

## Theorems

* `Key.normalize_withoutDots`: Dots do not count for segments.
* `Value.perm_members_withoutDots`: The members of an object, in another order.
* `Value.perm_leaves_withoutDots`: The leaves of a value, in another order.
* `Value.mem_names_withoutDots_iff`: The names in a value.
* `Adds.perm`, `Adds.map_iff`: Adding entries in another order, or seen by their
  texts.
* `flatten_withoutDots_eq_ok_iff`: The same messages.
* `flatten_withoutDots`: The same messages, or no messages in both.
-/

namespace Phrasebook

namespace Key

/-- A name without its dots. -/
def withoutDots (name : String) : String := String.ofList (name.toList.filter (· ≠ separator))

/-- Dots do not count for the segment that a name becomes. -/
theorem normalize_withoutDots (name : String) : normalize (withoutDots name) = normalize name := by
  unfold normalize withoutDots
  rw [String.toList_ofList, List.filter_filter]
  simp only [Bool.and_self]

end Key

namespace Json

namespace Value

mutual

/-- A value in which no name has dots, at any depth. Members are listed by their new
    names; of equal ones the last counts. -/
def withoutDots : Value → Value
  | .array items => .array (itemsWithoutDots items)
  | .object members => .object (Dict.ofList (membersWithoutDots members)).pairs
  | scalar => scalar
termination_by structural value => value

/-- The items of an array, in which no name has dots. -/
def itemsWithoutDots : List Value → List Value
  | [] => []
  | item :: items => item.withoutDots :: itemsWithoutDots items
termination_by structural items => items

/-- The members of an object, in the order that they had, and named without dots. -/
def membersWithoutDots : List (String × Value) → List (String × Value)
  | [] => []
  | (name, value) :: members =>
    (Key.withoutDots name, value.withoutDots) :: membersWithoutDots members
termination_by structural members => members

end

mutual

/-- The names of the members of each object in a value, at every depth. -/
def objectNames : Value → List (List String)
  | .array items => objectNamesOfItems items
  | .object members => members.map Prod.fst :: objectNamesOfMembers members
  | _ => []
termination_by structural value => value

/-- The names in the objects in the items of an array. -/
def objectNamesOfItems : List Value → List (List String)
  | [] => []
  | item :: items => item.objectNames ++ objectNamesOfItems items
termination_by structural items => items

/-- The names in the objects in the members of an object. -/
def objectNamesOfMembers : List (String × Value) → List (List String)
  | [] => []
  | (_, value) :: members => value.objectNames ++ objectNamesOfMembers members
termination_by structural members => members

end

/-- No object has two members whose names become equal without dots. -/
def DotsApart (value : Value) : Prop :=
  ∀ names ∈ value.objectNames, (names.map Key.withoutDots).Nodup

instance (value : Value) : Decidable value.DotsApart :=
  inferInstanceAs (Decidable (∀ names ∈ value.objectNames, (names.map Key.withoutDots).Nodup))

/-- A leaf as it stands in a value in which no name has dots. -/
def dotlessLeaf (leaf : List String × Value) : List String × Value :=
  (leaf.1.map Key.withoutDots, leaf.2.withoutDots)

theorem membersWithoutDots_eq (members : List (String × Value)) :
    membersWithoutDots members = members.map (fun m => (Key.withoutDots m.1, m.2.withoutDots)) := by
  induction members with
  | nil => rfl
  | cons member members ih => rw [membersWithoutDots, ih, List.map_cons]

theorem mem_objectNamesOfMembers_iff (members : List (String × Value)) (names : List String) :
    names ∈ objectNamesOfMembers members ↔ ∃ m ∈ members, names ∈ m.2.objectNames := by
  induction members with
  | nil => simp [objectNamesOfMembers]
  | cons member members ih => simp [objectNamesOfMembers, ih]

theorem leavesOfMembers_eq (members : List (String × Value)) :
    leavesOfMembers members =
      members.flatMap (fun m => m.2.leaves.map (fun leaf => (m.1 :: leaf.1, leaf.2))) := by
  induction members with
  | nil => rfl
  | cons member members ih => rw [leavesOfMembers, ih, List.flatMap_cons]

theorem mem_namesOfMembers_iff (members : List (String × Value)) (name : String) :
    name ∈ namesOfMembers members ↔ ∃ m ∈ members, name = m.1 ∨ name ∈ m.2.names := by
  induction members with
  | nil => simp [namesOfMembers]
  | cons member members ih => simp [namesOfMembers, ih, or_assoc]

/-- What is no text does not become one without dots. -/
theorem withoutDots_eq_string_iff (value : Value) (text : String) :
    value.withoutDots = .string text ↔ value = .string text := by
  cases value <;> simp [withoutDots]

/-- An object stays an object, and nothing else becomes one. -/
theorem exists_withoutDots_eq_object_iff (value : Value) :
    (∃ members, value.withoutDots = .object members) ↔ ∃ members, value = .object members := by
  cases value <;> simp [withoutDots]

namespace DotsApart

variable {members : List (String × Value)}

/-- Without dots the names of the members of the object itself are different. -/
theorem nodup (h : (Value.object members).DotsApart) :
    (members.map (fun m => Key.withoutDots m.1)).Nodup := by
  have hnames := h (members.map Prod.fst) (by simp [objectNames])
  rwa [List.map_map] at hnames

theorem of_mem (h : (Value.object members).DotsApart) (m : String × Value) (hm : m ∈ members) :
    m.2.DotsApart := by
  intro names hnames
  refine h names ?_
  rw [objectNames, List.mem_cons, mem_objectNamesOfMembers_iff]
  exact Or.inr ⟨m, hm, hnames⟩

end DotsApart

/-- The members of an object without dots are those that it had, in another order. -/
theorem perm_members_withoutDots (members : List (String × Value))
    (h : (Value.object members).DotsApart) :
    (Dict.ofList (membersWithoutDots members)).pairs.Perm
      (members.map (fun m => (Key.withoutDots m.1, m.2.withoutDots))) := by
  rw [membersWithoutDots_eq]
  refine Dict.perm_pairs_of_size_ofList _ ?_
  -- No name is lost, since they are all different.
  have hdedup := List.Nodup.dedup h.nodup
  rw [Dict.size_ofList, List.map_map, List.length_map]
  exact (congrArg List.length hdedup).trans (List.length_map _)

/-- The leaves of an object are those of its members, each behind its name. -/
theorem perm_leaves_of_members (members others : List (String × Value))
    (hperm : others.Perm (members.map (fun m => (Key.withoutDots m.1, m.2.withoutDots))))
    (hmembers : ∀ m ∈ members, m.2.withoutDots.leaves.Perm (m.2.leaves.map dotlessLeaf)) :
    (leavesOfMembers others).Perm ((leavesOfMembers members).map dotlessLeaf) := by
  rw [leavesOfMembers_eq, leavesOfMembers_eq, List.map_flatMap]
  refine (hperm.flatMap_right _).trans ?_
  rw [List.flatMap_map]
  refine List.Perm.flatMap_left _ (fun m hm => ?_)
  refine ((hmembers m hm).map _).trans (List.Perm.of_eq ?_)
  rw [List.map_map, List.map_map]
  rfl

mutual

/-- Induction into objects: what holds of an object whenever it holds of the values of
    its members, and of all that is no object, holds of every value. -/
theorem object_induction {motive : Value → Prop}
    (object : ∀ members, (∀ m ∈ members, motive m.2) → motive (.object members))
    (leaf : ∀ value, (∀ members, value ≠ .object members) → motive value) (value : Value) :
    motive value := by
  cases value with
  | object members => exact object members (object_induction_members object leaf members)
  | null => exact leaf _ (by simp)
  | boolean _ => exact leaf _ (by simp)
  | number _ => exact leaf _ (by simp)
  | string _ => exact leaf _ (by simp)
  | array _ => exact leaf _ (by simp)
termination_by structural value

theorem object_induction_members {motive : Value → Prop}
    (object : ∀ members, (∀ m ∈ members, motive m.2) → motive (.object members))
    (leaf : ∀ value, (∀ members, value ≠ .object members) → motive value)
    (members : List (String × Value)) : ∀ m ∈ members, motive m.2 := by
  cases members with
  | nil => simp
  | cons member members =>
      rcases member with ⟨name, value⟩
      exact List.forall_mem_cons.mpr ⟨object_induction object leaf value,
        object_induction_members object leaf members⟩
termination_by structural members

end

/-- The leaves of a value without dots are those that it had, in another order. -/
theorem perm_leaves_withoutDots (value : Value) (h : value.DotsApart) :
    value.withoutDots.leaves.Perm (value.leaves.map dotlessLeaf) := by
  induction value using object_induction with
  | object members ih =>
      rw [withoutDots, leaves, leaves]
      exact perm_leaves_of_members members _ (perm_members_withoutDots members h)
        (fun m hm => ih m hm (h.of_mem m hm))
  | leaf value hleaf =>
      cases value with
      | object members => exact absurd rfl (hleaf members)
      | null | boolean | number | string | array => exact List.Perm.refl _

/-- The names in a value without dots are those that it had, without their dots. -/
theorem mem_names_withoutDots_iff (value : Value) (h : value.DotsApart) (name : String) :
    name ∈ value.withoutDots.names ↔ ∃ n ∈ value.names, Key.withoutDots n = name := by
  induction value using object_induction with
  | object members ih =>
      -- The names of an object are those of its members and those inside them, dropped dots or
      -- not.
      rw [withoutDots, names, names]
      simp only [mem_namesOfMembers_iff, (perm_members_withoutDots members h).mem_iff, List.mem_map]
      constructor
      · rintro ⟨-, ⟨m, hm, rfl⟩, rfl | hinside⟩
        · exact ⟨m.1, ⟨m, hm, Or.inl rfl⟩, rfl⟩
        · rcases (ih m hm (h.of_mem m hm)).mp hinside with ⟨n, hn, rfl⟩
          exact ⟨n, ⟨m, hm, Or.inr hn⟩, rfl⟩
      · rintro ⟨n, ⟨m, hm, hn⟩, rfl⟩
        refine ⟨_, ⟨m, hm, rfl⟩, ?_⟩
        rcases hn with rfl | hinside
        · exact Or.inl rfl
        · exact Or.inr ((ih m hm (h.of_mem m hm)).mpr ⟨n, hinside, rfl⟩)
  | leaf value hleaf =>
      cases value with
      | object members => exact absurd rfl (hleaf members)
      | null | boolean | number | string | array => simp [withoutDots, names]

end Value

end Json

namespace Locale

open Json (Value)

section Adds

variable {known result : Dict String} {entries others : List (String × Value)}

/-- The order in which entries are added does not count. -/
theorem Adds.perm (h : Adds known entries result) (hperm : entries.Perm others) :
    Adds known others result where
  texts := fun entry hentry => h.texts entry (hperm.mem_iff.mpr hentry)
  fresh := fun entry hentry => h.fresh entry (hperm.mem_iff.mpr hentry)
  nodup := (hperm.map Prod.fst).nodup_iff.mp h.nodup
  get? := fun key text => by rw [h.get?, hperm.mem_iff]

/-- Only the texts among the values count for adding entries. -/
theorem Adds.map_iff (f : Value → Value) (hf : ∀ v text, f v = .string text ↔ v = .string text) :
    Adds known (entries.map (fun e => (e.1, f e.2))) result ↔ Adds known entries result := by
  have hkeys : (entries.map (fun e => (e.1, f e.2))).map Prod.fst = entries.map Prod.fst := by
    rw [List.map_map]
    rfl
  have htexts : (∀ entry ∈ entries.map (fun e => (e.1, f e.2)), ∃ text, entry.2 = .string text) ↔
      ∀ entry ∈ entries, ∃ text, entry.2 = .string text := by
    rw [List.forall_mem_map]
    simp only [hf]
  have hfresh : (∀ entry ∈ entries.map (fun e => (e.1, f e.2)), known.get? entry.1 = none) ↔
      ∀ entry ∈ entries, known.get? entry.1 = none := by
    rw [List.forall_mem_map]
  -- Of the values only the texts matter, and these stay what they are.
  have hmem : ∀ key text, (key, Value.string text) ∈ entries.map (fun e => (e.1, f e.2)) ↔
      (key, .string text) ∈ entries := by
    intro key text
    simp only [List.mem_map, Prod.mk.injEq, hf, Prod.exists]
    constructor
    · rintro ⟨_, _, hin, rfl, rfl⟩
      exact hin
    · intro hin
      exact ⟨key, _, hin, rfl, rfl⟩
  constructor
  · intro h
    exact ⟨htexts.mp h.texts, hfresh.mp h.fresh, hkeys ▸ h.nodup,
      fun key text => by rw [h.get?, hmem]⟩
  · intro h
    exact ⟨htexts.mpr h.texts, hfresh.mpr h.fresh, hkeys.symm ▸ h.nodup,
      fun key text => by rw [h.get?, hmem]⟩

end Adds

/-- The leaves without dots have the keys that the leaves have. -/
theorem keyed_map_dotlessLeaf (leaves : List (List String × Value)) :
    keyed [] (leaves.map Value.dotlessLeaf) =
      (keyed [] leaves).map (fun e => (e.1, e.2.withoutDots)) := by
  have hsegments : ∀ path : List String,
      (path.map Key.withoutDots).map Key.normalize = path.map Key.normalize := by
    intro path
    rw [List.map_map]
    exact List.map_congr_left (fun name _ => Key.normalize_withoutDots name)
  unfold keyed
  rw [List.map_map, List.map_map]
  refine List.map_congr_left (fun leaf _ => ?_)
  simp only [Function.comp_apply, Value.dotlessLeaf, hsegments]

/-- A document gives the messages that it gives without dots. -/
theorem flatten_withoutDots_eq_ok_iff (value : Value) (h : value.DotsApart)
    (messages : Dict String) :
    flatten value.withoutDots = .ok messages ↔ flatten value = .ok messages := by
  have hnames : (∀ name ∈ value.withoutDots.names, Key.normalize name ≠ "") ↔
      ∀ name ∈ value.names, Key.normalize name ≠ "" := by
    simp only [Value.mem_names_withoutDots_iff value h, forall_exists_index, and_imp,
      forall_apply_eq_imp_iff₂, Key.normalize_withoutDots]
  have hperm : (keyed [] value.withoutDots.leaves).Perm
      (keyed [] (value.leaves.map Value.dotlessLeaf)) := (value.perm_leaves_withoutDots h).map _
  have hadds : Adds .empty (keyed [] value.withoutDots.leaves) messages ↔
      Adds .empty (keyed [] value.leaves) messages :=
    calc Adds .empty (keyed [] value.withoutDots.leaves) messages
      _ ↔ Adds .empty (keyed [] (value.leaves.map Value.dotlessLeaf)) messages :=
        ⟨fun hadds => hadds.perm hperm, fun hadds => hadds.perm hperm.symm⟩
      _ ↔ Adds .empty (keyed [] value.leaves) messages := by
        rw [keyed_map_dotlessLeaf, Adds.map_iff _ Value.withoutDots_eq_string_iff]
  rw [flatten_eq_ok_iff, flatten_eq_ok_iff, value.exists_withoutDots_eq_object_iff, hnames, hadds]

/-- If the names of each object are different without dots, a document and the same
    without dots in its names give the same messages, or neither gives any. -/
theorem flatten_withoutDots (value : Value) (h : value.DotsApart) :
    (∃ messages, flatten value = .ok messages ∧ flatten value.withoutDots = .ok messages) ∨
    ∃ defect defect', flatten value = .error defect ∧
      flatten value.withoutDots = .error defect' := by
  have hsame := flatten_withoutDots_eq_ok_iff value h
  cases hflat : flatten value with
  | ok messages => exact Or.inl ⟨messages, rfl, (hsame messages).mpr hflat⟩
  | error defect =>
      refine Or.inr ⟨defect, ?_⟩
      cases hdotless : flatten value.withoutDots with
      | error defect' => exact ⟨defect', rfl, rfl⟩
      -- Messages without dots would be messages with them.
      | ok messages =>
          rw [(hsame messages).mp hdotless] at hflat
          cases hflat

/-- The members of the document and of the one without dots stand in different order. -/
theorem flatten_withoutDots_reordered : ∃ messages,
    (Value.object [(".b", .string "x"), ("a", .object [("c.d", .string "y")])]).DotsApart ∧
    flatten (.object [(".b", .string "x"), ("a", .object [("c.d", .string "y")])]) = .ok messages ∧
    flatten (.object [("a", .object [("cd", .string "y")]), ("b", .string "x")]) = .ok messages := by
  have hok : (flatten (.object [(".b", .string "x"),
      ("a", .object [("c.d", .string "y")])])).isOk = true := by decide +kernel
  have hapart : (Value.object [(".b", .string "x"),
      ("a", .object [("c.d", .string "y")])]).DotsApart := by decide +kernel
  rcases flatten_withoutDots _ hapart with ⟨messages, hflat, hdotless⟩ | ⟨defect, -, hflat, -⟩
  · exact ⟨messages, hapart, hflat, hdotless⟩
  · rw [hflat] at hok
    cases hok

/-- Of two defects another is the first without dots. -/
example : flatten (.object [(".b", .null), ("a", .boolean true)]) =
      .error (.malformed "b" (.leafNotText "null")) ∧
    flatten (Value.object [(".b", .null), ("a", .boolean true)]).withoutDots =
      .error (.malformed "a" (.leafNotText "a boolean")) := by
  decide +kernel

end Locale

end Phrasebook
