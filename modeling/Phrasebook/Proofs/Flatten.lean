import Mathlib.Data.List.DropRight
import Phrasebook.Proofs.Leaves

/-!
# Messages as the Leaves of a Document

What flattening makes of a document is known without following it through the tree:
the leaves with the names that lead to them, and nothing of the order in which they
were met. It succeeds exactly if the document is an object, all names in it have
segments, all leaves are texts, and no two leaves have the same key. The messages are
then the leaves, one each (`flatten_leaves`).

Objects may share a path, and a text may share the path of an object, so it is only the
keys of leaves that have to differ. A name has no segment if nothing is left of it
without dots and blanks. Flattening looks at the key that the name gives, which is then
empty or ends with a separator; both come to the same (`Key.normalize_eq_empty_iff`).

All keys that come from a document are well-formed, whatever its names are. Placing
messages in packages relies on that (`wellFormed_of_flatten`).

## Main definitions

* `Key.ofPath`: The key to which the member behind some names is flattened.

## Theorems

* `Text.trim_trim`: Blanks are dropped once.
* `Key.segments_ofPath`: The segments of a key are those of the names.
* `Value.mem_names_of_mem_leaves`: The names that lead to a leaf are in the value.
* `exists_adds_empty_iff`: Leaves that can be added to no messages.
* `Adds.size_eq`: As many messages as leaves.
* `flatten_eq_ok_iff`: Flattening adds the leaves of an object.
* `wellFormed_of_flatten`: Keys of documents are well-formed.
* `flatten_leaves`: When flattening succeeds, and what the messages are.
-/

namespace Phrasebook

namespace Text

/-- Trimming a text that was trimmed drops nothing more. -/
theorem trim_trim (s : List Char) : trim (trim s) = trim s := by
  -- Dropping at the end leaves a front part, which still starts with no blank.
  have hfront : (trim s).dropWhile isBlank = trim s := by
    have hprefix : trim s <+: s.dropWhile isBlank := List.rdropWhile_prefix isBlank _
    rcases hprefix with ⟨back, hback⟩
    cases htrim : trim s with
    | nil => rfl
    | cons c cs =>
        rw [htrim, List.cons_append] at hback
        refine List.dropWhile_cons_of_neg (fun hc => ?_)
        have hidem := List.dropWhile_idempotent isBlank s
        rw [← hback, List.dropWhile_cons_of_pos hc] at hidem
        -- What is left would be longer than what it is left of.
        have hlength := (List.dropWhile_suffix isBlank (l := cs ++ back)).length_le
        rw [hidem, List.length_cons] at hlength
        omega
  have hback : List.rdropWhile isBlank (trim s) = trim s :=
    List.rdropWhile_idempotent isBlank (s.dropWhile isBlank)
  calc trim (trim s) = List.rdropWhile isBlank ((trim s).dropWhile isBlank) := rfl
    _ = trim s := by rw [hfront, hback]

end Text

namespace Key

/-- The key to which the member behind some names is flattened. -/
def ofPath (names : List String) : String := join (names.map normalize)

/-- A segment has no blanks at its ends. -/
theorem trim_normalize (name : String) :
    Text.trim (normalize name).toList = (normalize name).toList := by
  rw [normalize, String.toList_ofList, Text.trim_trim]

/-- The segments of a key are those of the names. -/
theorem segments_ofPath (names : List String) (h : names ≠ []) :
    segments (ofPath names) = names.map normalize := by
  refine segments_join _ (fun hmap => h (List.map_eq_nil_iff.mp hmap)) (fun s hs => ?_)
  rcases List.mem_map.mp hs with ⟨name, -, rfl⟩
  exact separator_not_mem_normalize name

end Key

namespace Json

mutual

/-- The names that lead to a leaf are in the value. -/
theorem Value.mem_names_of_mem_leaves (value : Value) (leaf : List String × Value)
    (h : leaf ∈ value.leaves) : ∀ name ∈ leaf.1, name ∈ value.names := by
  cases value with
  | object members =>
      rw [Value.leaves] at h
      rw [Value.names]
      exact Value.mem_namesOfMembers_of_mem_leaves members leaf h
  | null => rw [List.mem_singleton.mp h]; exact fun name hname => absurd hname List.not_mem_nil
  | boolean _ => rw [List.mem_singleton.mp h]; exact fun name hname => absurd hname List.not_mem_nil
  | number _ => rw [List.mem_singleton.mp h]; exact fun name hname => absurd hname List.not_mem_nil
  | string _ => rw [List.mem_singleton.mp h]; exact fun name hname => absurd hname List.not_mem_nil
  | array _ => rw [List.mem_singleton.mp h]; exact fun name hname => absurd hname List.not_mem_nil
termination_by structural value

theorem Value.mem_namesOfMembers_of_mem_leaves (members : List (String × Value))
    (leaf : List String × Value) (h : leaf ∈ Value.leavesOfMembers members) :
    ∀ name ∈ leaf.1, name ∈ Value.namesOfMembers members := by
  cases members with
  | nil => exact absurd h List.not_mem_nil
  | cons member members =>
      rcases member with ⟨first, value⟩
      intro name hname
      rw [Value.namesOfMembers, List.mem_cons, List.mem_append]
      rw [Value.leavesOfMembers, List.mem_append, List.mem_map] at h
      -- A leaf of the first member has its name in front, the others are further on.
      rcases h with ⟨inner, hinner, rfl⟩ | hbehind
      · rcases List.mem_cons.mp hname with hfirst | hname
        · exact Or.inl hfirst
        · exact Or.inr (Or.inl (Value.mem_names_of_mem_leaves value inner hinner name hname))
      · exact Or.inr (Or.inr (Value.mem_namesOfMembers_of_mem_leaves members leaf hbehind name hname))
termination_by structural members

end

/-- The leaves of an object have a way to them. -/
theorem Value.path_ne_nil_of_mem_leaves (members : List (String × Value))
    (leaf : List String × Value) (h : leaf ∈ (Value.object members).leaves) : leaf.1 ≠ [] := by
  rw [Value.leaves] at h
  rcases (Value.mem_leavesOfMembers_iff members leaf.1 leaf.2).mp h with ⟨_, _, _, -, hpath, -⟩
  rw [hpath]
  exact List.cons_ne_nil _ _

end Json

namespace Locale

open Json (Value)

/-- Entries can be added to no messages if they are texts with different keys. -/
theorem exists_adds_empty_iff (entries : List (String × Value)) :
    (∃ messages, Adds .empty entries messages) ↔
      (∀ entry ∈ entries, ∃ text, entry.2 = .string text) ∧ (entries.map Prod.fst).Nodup := by
  constructor
  · rintro ⟨messages, h⟩
    exact ⟨h.texts, h.nodup⟩
  · rintro ⟨htexts, hnodup⟩
    exact Adds.exists_of_fresh .empty entries htexts (fun _ _ => Dict.get?_empty) hnodup

/-- What is added to no messages makes as many messages. -/
theorem Adds.size_eq {entries : List (String × Value)} {messages : Dict String}
    (h : Adds .empty entries messages) : messages.size = entries.length := by
  -- The keys of the table are those that were added, and neither list repeats one.
  have hkeys : messages.keys.Perm (entries.map Prod.fst) := by
    refine (List.perm_ext_iff_of_nodup messages.nodup_keys h.nodup).mpr (fun key => ?_)
    rw [Dict.mem_keys_iff, List.mem_map]
    constructor
    · rintro ⟨text, htext⟩
      rcases (h.get? key text).mp htext with hnone | hmem
      · cases hnone
      · exact ⟨_, hmem, rfl⟩
    · rintro ⟨⟨key', value⟩, hmem, rfl⟩
      rcases h.texts _ hmem with ⟨text, rfl⟩
      exact ⟨text, (h.get? key' text).mpr (Or.inr hmem)⟩
  have hlength := hkeys.length_eq
  rwa [Dict.keys, List.length_map, List.length_map] at hlength

/-- Flattening succeeds for objects in which all names have segments, and adds the
    leaves. -/
theorem flatten_eq_ok_iff (value : Value) (messages : Dict String) :
    flatten value = .ok messages ↔ (∃ members, value = .object members) ∧
      (∀ name ∈ value.names, Key.normalize name ≠ "") ∧
        Adds .empty (keyed [] value.leaves) messages := by
  cases value with
  | object members =>
      rw [flatten, Value.names, Value.leaves]
      -- Only an object is flattened, so the rest is the statement about its members.
      refine Iff.trans (flattenMembers_eq_ok_iff [] .empty messages members) ?_
      exact (and_iff_right ⟨members, rfl⟩).symm
  | null => exact iff_of_false (fun h => by cases h) (fun h => by rcases h.1 with ⟨_, h⟩; cases h)
  | boolean _ =>
      exact iff_of_false (fun h => by cases h) (fun h => by rcases h.1 with ⟨_, h⟩; cases h)
  | number _ =>
      exact iff_of_false (fun h => by cases h) (fun h => by rcases h.1 with ⟨_, h⟩; cases h)
  | string _ =>
      exact iff_of_false (fun h => by cases h) (fun h => by rcases h.1 with ⟨_, h⟩; cases h)
  | array _ =>
      exact iff_of_false (fun h => by cases h) (fun h => by rcases h.1 with ⟨_, h⟩; cases h)

section Flattened

variable (value : Value) (messages : Dict String) (h : flatten value = .ok messages)

include h

/-- Each message is the text of a leaf with its key. -/
theorem get?_flatten_leaves_iff (key text : String) : messages.get? key = some text ↔
    ∃ path, (path, .string text) ∈ value.leaves ∧ Key.ofPath path = key := by
  have hadds := ((flatten_eq_ok_iff value messages).mp h).2.2
  rw [hadds.get?, Dict.get?_empty, keyed, List.mem_map]
  constructor
  · rintro (hnone | ⟨⟨path, leaf⟩, hleaf, heq⟩)
    · cases hnone
    · rcases Prod.mk.inj heq with ⟨hkey, rfl⟩
      exact ⟨path, hleaf, hkey⟩
  · rintro ⟨path, hleaf, hkey⟩
    exact Or.inr ⟨(path, .string text), hleaf, Prod.ext hkey rfl⟩

/-- Each key is made of the segments of the names that lead to its text. -/
theorem exists_path_of_flatten (key : String) (hkey : key ∈ messages.keys) :
    ∃ path text, (path, .string text) ∈ value.leaves ∧ messages.get? key = some text ∧
      key = Key.ofPath path ∧ Key.segments key = path.map Key.normalize ∧
      Key.segments key ≠ [] ∧
      ∀ s ∈ Key.segments key, Key.IsSegment s ∧ Text.trim s.toList = s.toList := by
  rcases (flatten_eq_ok_iff value messages).mp h with ⟨⟨members, rfl⟩, hnames, -⟩
  rcases (Dict.mem_keys_iff messages key).mp hkey with ⟨text, htext⟩
  rcases (get?_flatten_leaves_iff _ messages h key text).mp htext with ⟨path, hleaf, hpath⟩
  have hne := Value.path_ne_nil_of_mem_leaves members _ hleaf
  -- Normalizing takes the dots out of a name, so each name is one segment of the key.
  have hsegments : Key.segments key = path.map Key.normalize := by
    rw [← hpath, Key.segments_ofPath path hne]
  refine ⟨path, text, hleaf, htext, hpath.symm, hsegments, ?_, ?_⟩
  · rw [hsegments]
    exact fun hnil => hne (List.map_eq_nil_iff.mp hnil)
  · rw [hsegments]
    intro s hs
    rcases List.mem_map.mp hs with ⟨name, hname, rfl⟩
    have hin := Value.mem_names_of_mem_leaves _ _ hleaf name hname
    exact ⟨⟨hnames name hin, Key.separator_not_mem_normalize name⟩, Key.trim_normalize name⟩

/-- The keys of a document are well-formed. -/
theorem wellFormed_of_flatten (key : String) (hkey : key ∈ messages.keys) :
    Key.WellFormed key := by
  rcases exists_path_of_flatten value messages h key hkey with ⟨_, _, -, -, -, -, -, hsegments⟩
  exact (Key.wellFormed_iff key).mpr (fun s hs => (hsegments s hs).1)

end Flattened

/-- Flattening succeeds exactly if a document is an object, all names of members in it
    have segments, all that is no object is a text, and no two texts have one key. The
    messages are then the texts, verbatim and as many, each under the key that joins
    the segments of the names that lead to it: one or more, none of them empty, without
    separators and blanks at the ends. -/
theorem flatten_leaves (value : Value) :
    ((∃ messages, flatten value = .ok messages) ↔
      (∃ members, value = .object members) ∧
      (∀ name ∈ value.names, Key.normalize name ≠ "") ∧
      (∀ leaf ∈ value.leaves, ∃ text, leaf.2 = .string text) ∧
      (value.leaves.map (fun leaf => Key.ofPath leaf.1)).Nodup) ∧
    ∀ messages, flatten value = .ok messages →
      (∀ key text, messages.get? key = some text ↔
        ∃ path, (path, .string text) ∈ value.leaves ∧ Key.ofPath path = key) ∧
      messages.size = value.leaves.length ∧
      ∀ key ∈ messages.keys, ∃ path text, (path, .string text) ∈ value.leaves ∧
        messages.get? key = some text ∧ key = Key.ofPath path ∧
        Key.segments key = path.map Key.normalize ∧ Key.segments key ≠ [] ∧
        ∀ s ∈ Key.segments key, Key.IsSegment s ∧ Text.trim s.toList = s.toList := by
  have hkeys : (keyed [] value.leaves).map Prod.fst =
      value.leaves.map (fun leaf => Key.ofPath leaf.1) := by
    rw [keyed, List.map_map]
    rfl
  have htexts : (∀ entry ∈ keyed [] value.leaves, ∃ text, entry.2 = .string text) ↔
      ∀ leaf ∈ value.leaves, ∃ text, leaf.2 = .string text := by
    rw [keyed, List.forall_mem_map]
  constructor
  · simp only [flatten_eq_ok_iff, exists_and_left, exists_adds_empty_iff, hkeys, htexts]
  · intro messages h
    have hadds := ((flatten_eq_ok_iff value messages).mp h).2.2
    have hsize := hadds.size_eq
    rw [keyed, List.length_map] at hsize
    exact ⟨get?_flatten_leaves_iff value messages h, hsize,
      exists_path_of_flatten value messages h⟩

/-- Two objects with one path, whose texts have different keys. -/
theorem flatten_leaves_merged : ∃ messages,
    flatten (.object [("a.b", .object [(" c ", .string "x")]),
      ("ab", .object [("d", .string "y")])]) = .ok messages ∧
    messages.size = 2 ∧ messages.get? "ab.c" = some "x" ∧ messages.get? "ab.d" = some "y" := by
  have hall := flatten_leaves (.object [("a.b", .object [(" c ", .string "x")]),
    ("ab", .object [("d", .string "y")])])
  have htexts : ∀ leaf ∈ [(["a.b", " c "], Value.string "x"), (["ab", "d"], Value.string "y")],
      ∃ text, leaf.2 = .string text :=
    List.forall_mem_cons.mpr ⟨⟨"x", rfl⟩, List.forall_mem_singleton.mpr ⟨"y", rfl⟩⟩
  -- Dots are taken out before names are compared, so the two objects meet under one key.
  rcases hall.1.mpr ⟨⟨_, rfl⟩, by decide, htexts, by decide⟩ with ⟨messages, h⟩
  rcases hall.2 messages h with ⟨hget, hsize, -⟩
  exact ⟨messages, h, hsize,
    (hget "ab.c" "x").mpr ⟨["a.b", " c "], List.mem_cons_self, by decide⟩,
    (hget "ab.d" "y").mpr ⟨["ab", "d"], List.mem_cons_of_mem _ List.mem_cons_self, by decide⟩⟩

end Locale

end Phrasebook
