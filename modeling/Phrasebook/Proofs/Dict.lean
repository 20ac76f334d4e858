import Mathlib.Algebra.GroupWithZero.Nat
import Mathlib.Data.List.Dedup
import Mathlib.Data.List.Nodup
import Mathlib.Data.List.Perm.Subperm
import Phrasebook.Dict
import Phrasebook.Proofs.Fallible

/-!
# Dictionaries as Finite Maps

A dictionary can be read in two ways: pair by pair in key order, as whatever
lists it does, and by look-up, as whatever asks for one key does. Statements
about a catalogue need both at once, since a catalogue is filled by look-up and
printed pair by pair. The lemmas here say that the two readings agree, and what
each way of making a dictionary does to them.

`perm_keys_of_size_ofList` is the one that is not obvious. A dictionary made of
pairs is as large as their list only if no key occurs twice, so a comparison of
two numbers tells that the keys are pairwise distinct.

## Theorems

* `Assoc.mem_iff_lookup`, `Dict.mem_pairs_iff`: Pairs and look-ups agree.
* `Assoc.sum_insert`, `Dict.sum_insert`: What an insertion adds to a sum over the
  values.
* `Dict.size_insert`: A new key makes a dictionary larger by one.
* `Dict.mem_keys_iff`, `Dict.nodup_keys`: The keys are those with a value, each
  once.
* `Dict.get?_ofList`, `Dict.get?_ofList_map_iff`: Of equal keys the last counts.
* `Dict.get?_ofList_of_forall`: Look-up when equal keys have equal values.
* `Dict.ofList_pairs`: A dictionary is made again of its pairs.
* `Dict.size_ofList`: Equal keys are counted once.
* `Dict.perm_keys_of_size_ofList`, `Dict.get?_ofList_of_size`,
  `Dict.perm_pairs_of_size_ofList`: No key is lost, and no value, if the size is
  kept.
* `Dict.pairs_of_mapM`: The pairs of an image are the images of the pairs.
* `Dict.get?_of_mapM`: Look-up in an image.
* `Dict.contains_iff`: A key is contained exactly if it is listed.
* `Dict.mapM_eq_error_iff`: An image fails with the value of the least key whose
  value does.
* `Dict.exists_mapM_iff`: An image exists exactly if each value has one.
-/

namespace Phrasebook

namespace Assoc

variable {α : Type}

/-- A pair stands in an ordered list exactly if look-up finds it. -/
theorem mem_iff_lookup (pairs : List (String × α)) (h : Ordered pairs) (key : String) (value : α) :
    (key, value) ∈ pairs ↔ pairs.lookup key = some value := by
  induction pairs with
  | nil =>
      constructor
      · intro hmem
        exact absurd hmem List.not_mem_nil
      · intro hlookup
        cases hlookup
  | cons head rest ih =>
      rcases head with ⟨k, v⟩
      rcases List.pairwise_cons.mp h with ⟨hhead, hrest⟩
      rw [List.mem_cons, ih hrest, lookup_cons_eq_ite]
      by_cases hk : key = k
      · -- Behind the first pair all keys are greater, so its key is not among them.
        have hnone : rest.lookup key = none := by
          rw [hk]
          exact lookup_eq_none_of_lt hhead
        rw [if_pos hk, hnone, hk]
        simp only [Prod.mk.injEq, true_and, reduceCtorEq, or_false, Option.some.injEq]
        exact eq_comm
      · rw [if_neg hk]
        simp only [Prod.mk.injEq, hk, false_and, false_or]

/-- An insertion adds the new value to a sum over the values, and takes away the
    one that it replaces. -/
theorem sum_insert (size : α → Nat) (pairs : List (String × α)) (h : Ordered pairs)
    (key : String) (value : α) :
    ((insert key value pairs).map (fun pair => size pair.2)).sum +
        ((pairs.lookup key).map size).getD 0 =
      (pairs.map (fun pair => size pair.2)).sum + size value := by
  induction pairs with
  | nil => simp only [insert, List.lookup_nil, Option.map_none, Option.getD_none, List.map_cons,
      List.map_nil, List.sum_cons, List.sum_nil, Nat.add_zero, Nat.zero_add]
  | cons head rest ih =>
      rcases head with ⟨k, v⟩
      rcases List.pairwise_cons.mp h with ⟨hhead, hrest⟩
      rw [insert, lookup_cons_eq_ite]
      -- The cases are those of the insertion: in front, in place, or further on.
      by_cases hlt : key < k
      · have hne : ¬key = k := fun heq => String.lt_irrefl k (heq ▸ hlt)
        have hnone : rest.lookup key = none :=
          lookup_eq_none_of_lt (fun pair hpair => String.lt_trans hlt (hhead pair hpair))
        rw [if_pos hlt, if_neg hne, hnone]
        simp only [List.map_cons, List.sum_cons, Option.map_none, Option.getD_none]
        omega
      · rw [if_neg hlt]
        by_cases hk : key = k
        · rw [if_pos hk, if_pos hk]
          simp only [List.map_cons, List.sum_cons, Option.map_some, Option.getD_some]
          omega
        · have hrec := ih hrest
          rw [if_neg hk, if_neg hk]
          simp only [List.map_cons, List.sum_cons]
          omega

end Assoc

namespace Dict

variable {α β : Type}

/-- A pair stands in a dictionary exactly if look-up finds it. -/
theorem mem_pairs_iff (d : Dict α) (key : String) (value : α) :
    (key, value) ∈ d.pairs ↔ d.get? key = some value :=
  Assoc.mem_iff_lookup d.pairs d.ordered key value

/-- The keys are the strings that have a value. -/
theorem mem_keys_iff (d : Dict α) (key : String) :
    key ∈ d.keys ↔ ∃ value, d.get? key = some value := by
  rw [keys, List.mem_map]
  constructor
  · rintro ⟨⟨k, value⟩, hpair, rfl⟩
    exact ⟨value, (mem_pairs_iff d k value).mp hpair⟩
  · rintro ⟨value, hvalue⟩
    exact ⟨(key, value), (mem_pairs_iff d key value).mpr hvalue, rfl⟩

/-- A key is contained exactly if it is listed. -/
theorem contains_iff (d : Dict α) (key : String) : d.contains key = true ↔ key ∈ d.keys := by
  rw [contains, Option.isSome_iff_exists, mem_keys_iff]

/-- No key is listed twice. -/
theorem nodup_keys (d : Dict α) : d.keys.Nodup := by
  refine List.Pairwise.imp ?_ (ordered_iff_keys.mp d.ordered)
  intro a b hlt heq
  rw [heq] at hlt
  exact String.lt_irrefl b hlt

/-- What an insertion adds to a sum over the values. -/
theorem sum_insert (size : α → Nat) (d : Dict α) (key : String) (value : α) :
    ((d.insert key value).pairs.map (fun pair => size pair.2)).sum +
        ((d.get? key).map size).getD 0 =
      (d.pairs.map (fun pair => size pair.2)).sum + size value :=
  Assoc.sum_insert size d.pairs d.ordered key value

/-- A new key makes a dictionary larger by one. -/
theorem size_insert (d : Dict α) (key : String) (value : α) (h : d.get? key = none) :
    (d.insert key value).size = d.size + 1 := by
  -- The size is the sum of ones.
  have hsum := sum_insert (fun _ => 1) d key value
  rw [h, List.map_const', List.map_const', List.sum_replicate_nat,
    List.sum_replicate_nat] at hsum
  simpa only [size, Option.map_none, Option.getD_none, Nat.add_zero, Nat.mul_one] using hsum

/-- Look-up after several insertions: the last one of the key counts. -/
theorem get?_foldl_insert (pairs : List (String × α)) (d : Dict α) (key : String) :
    (pairs.foldl (fun d pair => d.insert pair.1 pair.2) d).get? key =
      (pairs.reverse.lookup key).or (d.get? key) := by
  induction pairs generalizing d with
  | nil => rfl
  | cons head rest ih =>
      rcases head with ⟨k, v⟩
      -- The first pair is the last of the reversed list, so it counts least.
      rw [List.foldl_cons, ih, get?_insert, List.reverse_cons, List.lookup_append,
        Assoc.lookup_cons_eq_ite, List.lookup_nil, Option.or_assoc]
      by_cases hk : key = k
      · rw [if_pos hk, if_pos hk, Option.some_or]
      · rw [if_neg hk, if_neg hk, Option.none_or]

/-- Look-up in a dictionary of pairs: of equal keys the last counts. -/
theorem get?_ofList (pairs : List (String × α)) (key : String) :
    (ofList pairs).get? key = pairs.reverse.lookup key := by
  rw [ofList, get?_foldl_insert, get?_empty, Option.or_none]

/-- A value in a dictionary of pairs is that of some pair. -/
theorem mem_of_get?_ofList (pairs : List (String × α)) (key : String) (value : α)
    (h : (ofList pairs).get? key = some value) : (key, value) ∈ pairs := by
  rw [get?_ofList, List.lookup_eq_some_iff] at h
  rcases h with ⟨front, back, heq, -⟩
  rw [← List.mem_reverse, heq]
  exact List.mem_append_right _ List.mem_cons_self

/-- Look-up in a dictionary made from a list: the value comes from the last element
    with the key. -/
theorem get?_ofList_map_iff (xs : List β) (f : β → String × α) (key : String) (value : α) :
    (ofList (xs.map f)).get? key = some value ↔ ∃ front x back,
      xs = front ++ x :: back ∧ f x = (key, value) ∧ ∀ y ∈ back, (f y).1 ≠ key := by
  rw [get?_ofList, List.lookup_eq_some_iff]
  constructor
  · rintro ⟨back, front, heq, hback⟩
    rw [List.reverse_eq_append_iff, List.reverse_cons, List.append_assoc, List.singleton_append]
      at heq
    -- The table is filled from the left, so the pair found is the last one of its key.
    rcases List.map_eq_append_iff.mp heq with ⟨xs', rest, rfl, -, hrest⟩
    rcases List.map_eq_cons_iff.mp hrest with ⟨x, ys, rfl, hx, hys⟩
    refine ⟨xs', x, ys, rfl, hx, fun y hy hkey => ?_⟩
    have hin : f y ∈ back := List.mem_reverse.mp (hys ▸ List.mem_map_of_mem hy)
    exact (bne_iff_ne.mp (hback (f y) hin)) hkey.symm
  · rintro ⟨front, x, back, rfl, hx, hback⟩
    refine ⟨(back.map f).reverse, (front.map f).reverse, ?_, fun pair hpair => ?_⟩
    · rw [List.map_append, List.map_cons, hx, List.reverse_append, List.reverse_cons,
        List.append_assoc, List.singleton_append]
    · rcases List.mem_map.mp (List.mem_reverse.mp hpair) with ⟨y, hy, rfl⟩
      exact bne_iff_ne.mpr (fun hkey => hback y hy hkey.symm)

/-- Every key of the pairs has a value in their dictionary. -/
theorem exists_get?_ofList (pairs : List (String × α)) (key : String) (value : α)
    (h : (key, value) ∈ pairs) : ∃ last, (ofList pairs).get? key = some last := by
  rw [get?_ofList, ← Option.isSome_iff_exists, List.lookup_isSome_iff]
  exact ⟨(key, value), List.mem_reverse.mpr h, beq_self_eq_true key⟩

/-- Look-up in a dictionary of pairs when equal keys have equal values. -/
theorem get?_ofList_of_forall (pairs : List (String × α)) (key : String) (value : α)
    (hmem : (key, value) ∈ pairs) (hsame : ∀ other, (key, other) ∈ pairs → other = value) :
    (ofList pairs).get? key = some value := by
  rcases exists_get?_ofList pairs key value hmem with ⟨last, hlast⟩
  rw [hlast, hsame last (mem_of_get?_ofList pairs key last hlast)]

/-- The keys of a dictionary of pairs are those of the pairs. -/
theorem mem_keys_ofList (pairs : List (String × α)) (key : String) :
    key ∈ (ofList pairs).keys ↔ key ∈ pairs.map Prod.fst := by
  rw [mem_keys_iff, List.mem_map]
  constructor
  · rintro ⟨value, hvalue⟩
    exact ⟨(key, value), mem_of_get?_ofList pairs key value hvalue, rfl⟩
  · rintro ⟨⟨k, value⟩, hpair, rfl⟩
    exact exists_get?_ofList pairs k value hpair

/-- A dictionary is made again of its pairs. -/
theorem ofList_pairs (d : Dict α) : ofList d.pairs = d := by
  refine ext_get? (fun key => Option.ext (fun value => ?_))
  constructor
  · intro h
    exact (mem_pairs_iff d key value).mp (mem_of_get?_ofList d.pairs key value h)
  · intro h
    refine get?_ofList_of_forall d.pairs key value ((mem_pairs_iff d key value).mpr h) ?_
    intro other hother
    rw [(mem_pairs_iff d key other).mp hother] at h
    exact Option.some.inj h

/-- A dictionary of pairs is as large as its pairs have different keys. -/
theorem size_ofList (pairs : List (String × α)) :
    (ofList pairs).size = (pairs.map Prod.fst).dedup.length := by
  have hperm : (ofList pairs).keys.Perm (pairs.map Prod.fst).dedup := by
    refine (List.perm_ext_iff_of_nodup (nodup_keys _) (List.nodup_dedup _)).mpr (fun key => ?_)
    rw [mem_keys_ofList, List.mem_dedup]
  rw [← hperm.length_eq, keys, List.length_map]
  rfl

/-- If a dictionary is as large as the list of its pairs, its keys are the keys
    of the pairs in another order. Hence no key occurred twice. -/
theorem perm_keys_of_size_ofList (pairs : List (String × α))
    (h : (ofList pairs).size = pairs.length) :
    (ofList pairs).keys.Perm (pairs.map Prod.fst) := by
  have hsub : (ofList pairs).keys ⊆ pairs.map Prod.fst :=
    fun key hkey => (mem_keys_ofList pairs key).mp hkey
  -- The keys are some of those of the pairs, and there are as many of them.
  refine ((nodup_keys (ofList pairs)).subperm hsub).perm_of_length_le ?_
  rw [keys, List.length_map, List.length_map]
  exact Nat.le_of_eq h.symm

/-- If a dictionary is as large as the list of its pairs, it holds exactly these. -/
theorem get?_ofList_of_size (pairs : List (String × α)) (h : (ofList pairs).size = pairs.length)
    (key : String) (value : α) : (ofList pairs).get? key = some value ↔ (key, value) ∈ pairs := by
  constructor
  · exact mem_of_get?_ofList pairs key value
  · intro hmem
    -- Nothing was overwritten, so the keys of the list are distinct.
    have hnodup : (pairs.map Prod.fst).Nodup :=
      (perm_keys_of_size_ofList pairs h).nodup_iff.mp (nodup_keys (ofList pairs))
    refine get?_ofList_of_forall pairs key value hmem (fun other hother => ?_)
    exact (Prod.mk.inj (List.inj_on_of_nodup_map hnodup hother hmem rfl)).2

/-- If a dictionary is as large as the list of its pairs, it has these in another
    order. -/
theorem perm_pairs_of_size_ofList (pairs : List (String × α))
    (h : (ofList pairs).size = pairs.length) : (ofList pairs).pairs.Perm pairs := by
  have hkeys := nodup_keys (ofList pairs)
  have hfirst : (pairs.map Prod.fst).Nodup :=
    (perm_keys_of_size_ofList pairs h).nodup_iff.mp hkeys
  refine (List.perm_ext_iff_of_nodup hkeys.of_map hfirst.of_map).mpr (fun pair => ?_)
  rw [mem_pairs_iff (ofList pairs) pair.1 pair.2]
  exact get?_ofList_of_size pairs h pair.1 pair.2

/-- The pairs of an image are the images of the pairs. -/
theorem pairs_of_mapM {ε : Type} (f : String → α → Except ε β) (d : Dict α) (e : Dict β)
    (h : d.mapM f = .ok e) : mapPairs f d.pairs = .ok e.pairs := by
  rw [mapM] at h
  split at h
  · cases h
  · next images himages =>
      cases h
      exact himages

/-- The image of a pair is that of its value, beside the same key. -/
theorem mapPairs_eq_mapM {ε : Type} (f : String → α → Except ε β) (pairs : List (String × α)) :
    mapPairs f pairs = pairs.mapM (fun pair => (f pair.1 pair.2).map (pair.1, ·)) := by
  induction pairs with
  | nil => rfl
  | cons pair pairs ih =>
      rw [List.mapM_cons, ← ih, mapPairs]
      cases f pair.1 pair.2 with
      | error e => rfl
      | ok image => rfl

/-- A pair of an image stems from a pair with the same key. -/
theorem mem_of_mapPairs {ε : Type} (f : String → α → Except ε β) (pairs : List (String × α))
    (images : List (String × β)) (h : mapPairs f pairs = .ok images) (key : String) (value : α)
    (hmem : (key, value) ∈ pairs) : ∃ image, f key value = .ok image ∧ (key, image) ∈ images := by
  rw [mapPairs_eq_mapM] at h
  rcases (Fallible.exists_mapM_iff _ _).mp ⟨images, h⟩ _ hmem with ⟨pair, hpair⟩
  have hin := Fallible.mem_of_mapM _ _ images h _ hmem pair hpair
  rcases (Fallible.map_eq_ok_iff _ _ _).mp hpair with ⟨image, himage, rfl⟩
  exact ⟨image, himage, hin⟩

/-- Look-up in an image: every value has one. -/
theorem get?_of_mapM {ε : Type} (f : String → α → Except ε β) (d : Dict α) (e : Dict β)
    (h : d.mapM f = .ok e) (key : String) (value : α) (hvalue : d.get? key = some value) :
    ∃ image, f key value = .ok image ∧ e.get? key = some image := by
  rcases mem_of_mapPairs f d.pairs e.pairs (pairs_of_mapM f d e h) key value
    ((mem_pairs_iff d key value).mpr hvalue) with ⟨image, himage, hmem⟩
  exact ⟨image, himage, (mem_pairs_iff e key image).mp hmem⟩

/-- The images of pairs fail with the image of one of them, and those before it do
    not. -/
theorem mapPairs_eq_error_iff {ε : Type} (f : String → α → Except ε β)
    (pairs : List (String × α)) (e : ε) :
    mapPairs f pairs = .error e ↔ ∃ front key value back,
      pairs = front ++ (key, value) :: back ∧
      (∀ pair ∈ front, ∃ image, f pair.1 pair.2 = .ok image) ∧ f key value = .error e := by
  -- Putting the key back in front of the image does not change whether there is one.
  have hok : ∀ pair : String × α,
      (∃ b, (f pair.1 pair.2).map (pair.1, ·) = .ok b) ↔ ∃ image, f pair.1 pair.2 = .ok image := by
    intro pair
    simp only [Fallible.map_eq_ok_iff]
    rw [exists_comm]
    simp only [exists_and_left, exists_eq', and_true]
  rw [mapPairs_eq_mapM, Fallible.mapM_eq_error_iff]
  simp only [hok, Fallible.map_eq_error_iff, Prod.exists]

/-- An image fails as the images of the pairs do. -/
theorem mapM_eq_error_iff_mapPairs {ε : Type} (f : String → α → Except ε β) (d : Dict α) (e : ε) :
    d.mapM f = .error e ↔ mapPairs f d.pairs = .error e := by
  rw [mapM]
  split
  · next e' he =>
      rw [he]
      simp only [Except.error.injEq]
  · next images himages =>
      constructor
      · intro h
        cases h
      · intro h
        rw [himages] at h
        cases h

/-- An image fails with the value of one key, and the values of all smaller keys
    have images. -/
theorem mapM_eq_error_iff {ε : Type} (f : String → α → Except ε β) (d : Dict α) (e : ε) :
    d.mapM f = .error e ↔ ∃ key value, d.get? key = some value ∧ f key value = .error e ∧
      ∀ smaller other, smaller < key → d.get? smaller = some other →
        ∃ image, f smaller other = .ok image := by
  rw [mapM_eq_error_iff_mapPairs, mapPairs_eq_error_iff]
  constructor
  · rintro ⟨front, key, value, back, hpairs, hfront, hvalue⟩
    have hmem : (key, value) ∈ d.pairs := by
      rw [hpairs]
      exact List.mem_append_right _ List.mem_cons_self
    refine ⟨key, value, (mem_pairs_iff d key value).mp hmem, hvalue, ?_⟩
    intro smaller other hlt hother
    -- The pairs from that of the key on have no smaller keys.
    have hordered := d.ordered
    rw [hpairs, Assoc.Ordered, List.pairwise_append] at hordered
    have hin := (mem_pairs_iff d smaller other).mpr hother
    rw [hpairs, List.mem_append] at hin
    rcases hin with hin | hin
    · exact hfront _ hin
    · exfalso
      rcases List.mem_cons.mp hin with heq | hin
      · cases heq
        exact String.lt_irrefl key hlt
      · have hgt := (List.pairwise_cons.mp hordered.2.1).1 _ hin
        exact String.lt_irrefl key (String.lt_trans hgt hlt)
  · rintro ⟨key, value, hget, hvalue, hsmaller⟩
    rcases List.append_of_mem ((mem_pairs_iff d key value).mpr hget) with ⟨front, back, hpairs⟩
    refine ⟨front, key, value, back, hpairs, ?_, hvalue⟩
    intro pair hpair
    have hordered := d.ordered
    rw [hpairs, Assoc.Ordered, List.pairwise_append] at hordered
    have hmem : pair ∈ d.pairs := by
      rw [hpairs]
      exact List.mem_append_left _ hpair
    exact hsmaller pair.1 pair.2 (hordered.2.2 pair hpair _ List.mem_cons_self)
      ((mem_pairs_iff d pair.1 pair.2).mp hmem)

/-- An image exists exactly if each value has one. -/
theorem exists_mapM_iff {ε : Type} (f : String → α → Except ε β) (d : Dict α) :
    (∃ e, d.mapM f = .ok e) ↔
      ∀ key value, d.get? key = some value → ∃ image, f key value = .ok image := by
  constructor
  · rintro ⟨e, he⟩ key value hvalue
    rcases get?_of_mapM f d e he key value hvalue with ⟨image, himage, -⟩
    exact ⟨image, himage⟩
  · intro h
    -- No error can come up, since it would come from one of the values.
    rw [← Fallible.ne_error_iff]
    intro cause hcause
    rcases (mapM_eq_error_iff f d cause).mp hcause with ⟨key, value, hget, hvalue, -⟩
    rcases h key value hget with ⟨image, himage⟩
    rw [himage] at hvalue
    cases hvalue

/-- An image has the keys of what it is the image of. -/
theorem keys_of_mapM {ε : Type} (f : String → α → Except ε β) (d : Dict α) (e : Dict β)
    (h : d.mapM f = .ok e) : e.keys = d.keys :=
  keys_mapPairs (pairs_of_mapM f d e h)

end Dict

end Phrasebook
