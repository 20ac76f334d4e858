/-!
# Dictionaries in Key Order

Finite maps from strings, kept as lists of pairs in ascending order of the
key. Every answer of the compiler is listed in that order, so the order is part
of the type and not of a printer.

There are two layers. `Assoc` works on plain lists of pairs, which may nest
inside an inductive type: a group of messages holds groups, a directory holds
directories. `Dict` bundles such a list with the proof that its keys ascend.
The bundle is what the rest of the library passes around, because two
dictionaries with the same look-ups are then the same value.

Strings are compared by code point, which is also the order of their UTF-8
bytes.

## Main definitions

* `Assoc.Ordered`: The keys of a list of pairs ascend strictly.
* `Assoc.insert`: Set the value of a key, keeping the order.
* `Dict`: An ordered list of pairs.
* `Dict.get?`, `Dict.insert`, `Dict.ofList`, `Dict.mapM`: Look-up and
  construction.

## Theorems

* `Assoc.mem_insert`: What an insertion leaves in a list.
* `Assoc.Ordered.insert`, `Assoc.Ordered.erase`: Both operations keep the order.
* `Assoc.lookup_cons_eq_ite`: Look-up in a list by its first pair.
* `Assoc.lookup_insert`: Look-up after an insertion.
* `Assoc.Ordered.eq_of_lookup`: Ordered lists with the same look-ups are equal.
* `Dict.ext`, `Dict.ext_get?`: Equality of dictionaries by pairs and by look-ups.
* `Dict.keys_mapPairs`: A function on the values keeps the keys.
* `Dict.ordered_iff_keys`: The order concerns the keys alone.
* `Dict.get?_empty`, `Dict.get?_insert`: Look-up in what was constructed.
-/

namespace Phrasebook

namespace Assoc

variable {α : Type}

/-- The keys ascend strictly, so no key stands twice. -/
def Ordered (pairs : List (String × α)) : Prop :=
  pairs.Pairwise (fun a b => a.1 < b.1)

/-- Set the value of `key`: a pair with that key is replaced, otherwise a new
    pair goes in front of the first greater key. -/
def insert (key : String) (value : α) : List (String × α) → List (String × α)
  | [] => [(key, value)]
  | (k, v) :: rest =>
    if key < k then (key, value) :: (k, v) :: rest
    else if key = k then (key, value) :: rest
    else (k, v) :: insert key value rest

/-- Drop the pair of `key`, if there is one. -/
def erase (key : String) (pairs : List (String × α)) : List (String × α) :=
  pairs.filter (fun pair => pair.1 != key)

/-- Of two different keys that do not ascend, the second is the smaller. -/
theorem lt_of_not_lt_of_ne {a b : String} (hlt : ¬ a < b) (hne : ¬ a = b) : b < a :=
  Std.lt_of_le_of_ne (Std.not_lt.mp hlt) (fun h => hne h.symm)

/-- The keys after an insertion are the old ones and the new one. -/
theorem mem_insert {key : String} {value : α} {pairs : List (String × α)} {pair : String × α}
    (h : pair ∈ insert key value pairs) : pair = (key, value) ∨ pair ∈ pairs := by
  induction pairs with
  | nil => simpa [insert] using h
  | cons head rest ih =>
    obtain ⟨k, v⟩ := head
    simp only [insert] at h
    -- The pair is put in front, in place of the first pair, or further behind.
    split at h
    · simpa using h
    · split at h
      · rcases List.mem_cons.mp h with h | h
        · exact Or.inl h
        · exact Or.inr (List.mem_cons_of_mem _ h)
      · rcases List.mem_cons.mp h with h | h
        · exact Or.inr (h ▸ List.mem_cons_self)
        · exact (ih h).imp_right (List.mem_cons_of_mem _)

/-- An insertion keeps the order. -/
theorem Ordered.insert {key : String} {value : α} {pairs : List (String × α)}
    (h : Ordered pairs) : Ordered (Assoc.insert key value pairs) := by
  induction pairs with
  | nil => exact List.pairwise_singleton _ _
  | cons head rest ih =>
    obtain ⟨k, v⟩ := head
    obtain ⟨hhead, hrest⟩ := List.pairwise_cons.mp h
    simp only [Assoc.insert]
    -- Wherever it is put, the pairs behind it have greater keys.
    split
    next hlt =>
      refine List.pairwise_cons.mpr ⟨fun pair hpair => ?_, h⟩
      rcases List.mem_cons.mp hpair with rfl | hpair
      · exact hlt
      · exact String.lt_trans hlt (hhead pair hpair)
    next hlt =>
      split
      next heq => exact List.pairwise_cons.mpr ⟨heq ▸ hhead, hrest⟩
      next hne =>
        refine List.pairwise_cons.mpr ⟨fun pair hpair => ?_, ih hrest⟩
        rcases mem_insert hpair with rfl | hpair
        · exact lt_of_not_lt_of_ne hlt hne
        · exact hhead pair hpair

/-- Dropping a pair keeps the order. -/
theorem Ordered.erase {key : String} {pairs : List (String × α)} (h : Ordered pairs) :
    Ordered (Assoc.erase key pairs) :=
  List.Pairwise.sublist List.filter_sublist h

/-- Look-up passes a pair with another key by. -/
theorem lookup_cons_eq_ite {k query : String} {v : α} {rest : List (String × α)} :
    ((k, v) :: rest).lookup query = if query = k then some v else rest.lookup query := by
  rw [List.lookup_cons]
  by_cases h : query = k
  · simp [h]
  · simp [h, beq_eq_false_iff_ne.mpr h]

/-- After an insertion its key has the new value, and any other key what it had. -/
theorem lookup_insert {key query : String} {value : α} {pairs : List (String × α)} :
    (insert key value pairs).lookup query =
      if query = key then some value else pairs.lookup query := by
  induction pairs with
  | nil => rw [insert, lookup_cons_eq_ite]
  | cons head rest ih =>
    obtain ⟨k, v⟩ := head
    simp only [insert]
    split
    · rw [lookup_cons_eq_ite]
    · split
      next heq =>
        subst heq
        rw [lookup_cons_eq_ite, lookup_cons_eq_ite]
        split <;> rfl
      next hne =>
        rw [lookup_cons_eq_ite, lookup_cons_eq_ite, ih]
        -- The first pair is passed over, and it has another key than the new one.
        by_cases hk : query = k
        · have hq : ¬query = key := fun h => hne (h.symm.trans hk)
          rw [if_pos hk, if_neg hq, if_pos hk]
        · rw [if_neg hk, if_neg hk]

/-- A key below all others has no value. -/
theorem lookup_eq_none_of_lt {key : String} {pairs : List (String × α)}
    (h : ∀ pair ∈ pairs, key < pair.1) : pairs.lookup key = none := by
  induction pairs with
  | nil => rfl
  | cons head rest ih =>
    obtain ⟨hk, hrest⟩ := List.forall_mem_cons.mp h
    have hne : ¬key = head.1 := fun heq => String.lt_irrefl key (heq ▸ hk)
    rw [lookup_cons_eq_ite, if_neg hne, ih hrest]

/-- The first key of an ordered list is not above a key with a value. -/
theorem Ordered.not_lt_of_lookup {key k : String} {v value : α} {rest : List (String × α)}
    (h : Ordered ((k, v) :: rest)) (hvalue : ((k, v) :: rest).lookup key = some value) :
    ¬key < k := by
  intro hlt
  obtain ⟨hk, -⟩ := List.pairwise_cons.mp h
  rw [lookup_eq_none_of_lt (List.forall_mem_cons.mpr
    ⟨hlt, fun pair hpair => String.lt_trans hlt (hk pair hpair)⟩)] at hvalue
  cases hvalue

/-- Ordered lists with the same look-ups are equal. -/
theorem Ordered.eq_of_lookup {left right : List (String × α)} (hleft : Ordered left)
    (hright : Ordered right) (h : ∀ key, left.lookup key = right.lookup key) : left = right := by
  -- The first key of a list has a value, so the other list cannot be empty.
  have hfirst {k : String} {v : α} {rest : List (String × α)} :
      ((k, v) :: rest).lookup k = some v := by rw [lookup_cons_eq_ite, if_pos rfl]
  induction left generalizing right with
  | nil =>
    cases right with
    | nil => rfl
    | cons head rest => cases (h head.1).trans hfirst
  | cons head rest ih =>
    obtain ⟨k, v⟩ := head
    cases right with
    | nil => cases hfirst.symm.trans (h k)
    | cons head' rest' =>
      obtain ⟨k', v'⟩ := head'
      -- Neither of the first keys is above the other.
      have hk : ¬k < k' := hright.not_lt_of_lookup ((h k).symm.trans hfirst)
      have hk' : ¬k' < k := hleft.not_lt_of_lookup ((h k').trans hfirst)
      have heq : k = k' := Classical.byContradiction (fun hne => hk' (lt_of_not_lt_of_ne hk hne))
      subst heq
      cases hfirst.symm.trans ((h k).trans hfirst)
      obtain ⟨hbelow, hrest⟩ := List.pairwise_cons.mp hleft
      obtain ⟨hbelow', hrest'⟩ := List.pairwise_cons.mp hright
      rw [ih hrest hrest' (fun key => ?_)]
      by_cases hkey : key = k
      · rw [hkey, lookup_eq_none_of_lt hbelow, lookup_eq_none_of_lt hbelow']
      · have := h key
        rwa [lookup_cons_eq_ite, lookup_cons_eq_ite, if_neg hkey, if_neg hkey] at this

end Assoc

/-- A finite map from strings, listed by ascending key. -/
structure Dict (α : Type) where
  /-- The pairs, by ascending key. -/
  pairs : List (String × α)
  ordered : Assoc.Ordered pairs

namespace Dict

variable {α β : Type}

/-- The dictionary without pairs. -/
def empty : Dict α := ⟨[], List.Pairwise.nil⟩

instance : EmptyCollection (Dict α) := ⟨empty⟩

instance : Inhabited (Dict α) := ⟨empty⟩

/-- Dictionaries with the same pairs are equal. -/
@[ext] theorem ext {d e : Dict α} (h : d.pairs = e.pairs) : d = e := by
  cases d; cases e; cases h; rfl

instance [DecidableEq α] : DecidableEq (Dict α) := fun d e =>
  decidable_of_iff (d.pairs = e.pairs) ⟨Dict.ext, fun h => h ▸ rfl⟩

/-- The value of `key`. -/
def get? (d : Dict α) (key : String) : Option α := d.pairs.lookup key

/-- Whether `key` has a value. -/
def contains (d : Dict α) (key : String) : Bool := (d.get? key).isSome

/-- The keys, ascending. -/
def keys (d : Dict α) : List String := d.pairs.map Prod.fst

/-- The values, by ascending key. -/
def values (d : Dict α) : List α := d.pairs.map Prod.snd

/-- The number of keys. -/
def size (d : Dict α) : Nat := d.pairs.length

/-- Whether no key has a value. -/
def isEmpty (d : Dict α) : Bool := d.pairs.isEmpty

/-- Set the value of `key`. -/
def insert (d : Dict α) (key : String) (value : α) : Dict α :=
  ⟨Assoc.insert key value d.pairs, d.ordered.insert⟩

/-- The dictionary of some pairs in any order; of equal keys the last counts. -/
def ofList (pairs : List (String × α)) : Dict α :=
  pairs.foldl (fun d pair => d.insert pair.1 pair.2) empty

/-- Apply a fallible function to every value, in key order, up to the first
    failure. -/
def mapPairs {ε : Type} (f : String → α → Except ε β) :
    List (String × α) → Except ε (List (String × β))
  | [] => .ok []
  | (key, value) :: rest => do
    let image ← f key value
    let images ← mapPairs f rest
    return (key, image) :: images

/-- The images have the keys of the pairs. -/
theorem keys_mapPairs {ε : Type} {f : String → α → Except ε β} {pairs : List (String × α)}
    {images : List (String × β)} (h : mapPairs f pairs = .ok images) :
    images.map Prod.fst = pairs.map Prod.fst := by
  induction pairs generalizing images with
  | nil => cases h; rfl
  | cons head rest ih =>
    obtain ⟨key, value⟩ := head
    simp only [mapPairs, bind, Except.bind] at h
    split at h
    · cases h
    · split at h
      · cases h
      next htail =>
        cases h
        simp [ih htail]

/-- Whether keys ascend depends on the keys alone. -/
theorem ordered_iff_keys {pairs : List (String × α)} :
    Assoc.Ordered pairs ↔ (pairs.map Prod.fst).Pairwise (· < ·) := by
  simp only [Assoc.Ordered, List.pairwise_map]

/-- Apply a fallible function to every value, in key order. The keys stay. -/
def mapM {ε : Type} (f : String → α → Except ε β) (d : Dict α) : Except ε (Dict β) :=
  match h : mapPairs f d.pairs with
  | .error e => .error e
  | .ok images =>
    .ok ⟨images, ordered_iff_keys.mpr (keys_mapPairs h ▸ ordered_iff_keys.mp d.ordered)⟩

/-- The empty dictionary has no values. -/
theorem get?_empty {query : String} : (empty : Dict α).get? query = none := rfl

/-- After an insertion its key has the new value, and any other key what it had. -/
theorem get?_insert {d : Dict α} {key query : String} {value : α} :
    (d.insert key value).get? query = if query = key then some value else d.get? query :=
  Assoc.lookup_insert

/-- Dictionaries with the same look-ups are equal. -/
theorem ext_get? {d e : Dict α} (h : ∀ key, d.get? key = e.get? key) : d = e :=
  ext (d.ordered.eq_of_lookup e.ordered h)

end Dict

end Phrasebook
