import Phrasebook.Json.Printer
import Phrasebook.Proofs.Grammar

/-!
# Printed Values Are Told Apart

A printed value shows where it ends: whatever stands behind it, no other value
can be read from the front of the same text. For numbers that is a question of
digits, and of floating-point numbers that have no text of their own; the values
here are made of texts alone, as those of a manifest are.

Strings end at their closing quote, which cannot be mistaken for an escaped one.
Arrays and objects are both lists between brackets. Such a list goes on with a
comma as long as there are items and with a line feed behind the last, so lists
that are printed alike are as long as each other and are compared item by item.

## Main definitions

* `Value.Textual`: A value is made of texts, arrays and objects.

## Theorems

* `Quoted.write_append_inj`: A printed string shows where it ends.
* `bracketed_append_inj`: So does a list between brackets, if its items do.
* `Value.Textual.chars_append_inj`: So does a value that is made of texts.
* `Value.Textual.eq_of_print`: Such values are equal if they are printed alike.
-/

namespace Phrasebook

namespace Json

/-- A printed string shows where it ends. -/
theorem Quoted.write_append_inj (text text' : String) (rest rest' : List Char)
    (h : write text.toList ++ rest = write text'.toList ++ rest') : text = text' ∧ rest = rest' := by
  -- Behind the opening quote the text is read back, up to the closing one.
  have hread : ∀ (text : String) (rest : List Char),
      read (write text.toList ++ rest).tail = .ok (text.toList, rest) := by
    intro text rest
    generalize hs : write text.toList ++ rest = s
    have hquotes := quotes_write text rest
    rw [hs] at hquotes
    cases hquotes with
    | mk hspells =>
        rw [String.toList_ofList]
        exact read_of_spells _ _ rest hspells
  have hboth := (hread text rest).symm.trans (h ▸ hread text' rest')
  rcases Prod.mk.inj (Except.ok.inj hboth) with ⟨htext, hrest⟩
  exact ⟨String.toList_inj.mp htext, hrest⟩

section Lists

variable {α : Type} (print : α → List Char)

/-- More items would go on with a comma, so items end in front of a line feed. -/
theorem itemLines_append_inj (level : Nat) (xs ys : List α) (rest rest' : List Char)
    (hitem : ∀ x ∈ xs, ∀ y ∈ ys, ∀ rest rest', print x ++ rest = print y ++ rest' →
      x = y ∧ rest = rest')
    (h : itemLines print level xs ++ '\n' :: rest = itemLines print level ys ++ '\n' :: rest') :
    xs = ys ∧ rest = rest' := by
  induction xs generalizing ys with
  | nil =>
      cases ys with
      | nil => exact ⟨rfl, List.tail_eq_of_cons_eq h⟩
      | cons y ys => cases List.head_eq_of_cons_eq h
  | cons x xs ih =>
      cases ys with
      | nil => cases List.head_eq_of_cons_eq h
      | cons y ys =>
          simp only [itemLines, List.flatMap_cons, List.cons_append, List.append_assoc] at h
          have hbehind := List.append_cancel_left (List.tail_eq_of_cons_eq h)
          rcases hitem x List.mem_cons_self y List.mem_cons_self _ _ hbehind with ⟨rfl, hmore⟩
          -- The claim about items is handed on to those that are left.
          have hinner : ∀ x ∈ xs, ∀ y ∈ ys, ∀ rest rest', print x ++ rest = print y ++ rest' →
              x = y ∧ rest = rest' := fun x hx y hy =>
            hitem x (List.mem_cons_of_mem _ hx) y (List.mem_cons_of_mem _ hy)
          rcases ih ys hinner hmore with ⟨rfl, hrest⟩
          exact ⟨rfl, hrest⟩

/-- The items between brackets, laid out like those behind another. -/
theorem cons_tail_bracketed (opening closing : Char) (level : Nat) (x : α) (xs : List α)
    (rest : List Char) :
    ',' :: (bracketed print opening closing level (x :: xs) ++ rest).tail =
      itemLines print (level + 1) (x :: xs) ++
        '\n' :: (List.replicate (2 * level) ' ' ++ closing :: rest) := by
  simp only [bracketed, itemLines, newLine, List.flatMap_cons, List.cons_append, List.append_assoc,
    List.nil_append, List.tail_cons]

/-- A list between brackets shows where it ends, if its items do. -/
theorem bracketed_append_inj (opening closing : Char) (level : Nat) (xs ys : List α)
    (rest rest' : List Char) (hclosing : closing ≠ '\n')
    (hitem : ∀ x ∈ xs, ∀ y ∈ ys, ∀ rest rest', print x ++ rest = print y ++ rest' →
      x = y ∧ rest = rest')
    (h : bracketed print opening closing level xs ++ rest =
      bracketed print opening closing level ys ++ rest') : xs = ys ∧ rest = rest' := by
  cases xs with
  | nil =>
      cases ys with
      | nil => exact ⟨rfl, List.append_cancel_left h⟩
      | cons y ys =>
          exact absurd (List.head_eq_of_cons_eq (List.tail_eq_of_cons_eq h)) hclosing
  | cons x xs =>
      cases ys with
      | nil => exact absurd (List.head_eq_of_cons_eq (List.tail_eq_of_cons_eq h)).symm hclosing
      | cons y ys =>
          -- With a comma for the opening sign, the first item is printed like the others.
          have hlines := congrArg (fun s => ',' :: s.tail) h
          simp only [cons_tail_bracketed] at hlines
          rcases itemLines_append_inj print _ _ _ _ _ hitem hlines with ⟨hlists, hrest⟩
          exact ⟨hlists, List.tail_eq_of_cons_eq (List.append_cancel_left hrest)⟩

end Lists

namespace Value

/-- A value is made of texts, arrays and objects. -/
inductive Textual : Value → Prop where
  | string (text : String) : Textual (.string text)
  | array (items : List Value) : (∀ item ∈ items, Textual item) → Textual (.array items)
  | object (members : List (String × Value)) :
      (∀ member ∈ members, Textual member.2) → Textual (.object members)

@[simp] theorem textual_string (text : String) : Textual (string text) := .string text

@[simp] theorem textual_array_iff (items : List Value) :
    Textual (array items) ↔ ∀ item ∈ items, Textual item := by
  constructor
  · intro h
    cases h with
    | array _ hitems => exact hitems
  · exact Textual.array items

@[simp] theorem textual_object_iff (members : List (String × Value)) :
    Textual (object members) ↔ ∀ member ∈ members, Textual member.2 := by
  constructor
  · intro h
    cases h with
    | object _ hmembers => exact hmembers
  · exact Textual.object members

namespace Textual

/-- The character in front of a value that is made of texts. -/
def opening : Value → Char
  | .array _ => '['
  | .object _ => '\x7b'
  | _ => '"'

theorem head?_chars (level : Nat) (v : Value) (hv : Textual v) (rest : List Char) :
    (v.chars level ++ rest).head? = some (opening v) := by
  cases hv with
  | string text => rfl
  | array items _ =>
      cases items with
      | nil => rfl
      | cons item items => rfl
  | object members _ =>
      cases members with
      | nil => rfl
      | cons member members => rfl

/-- A value that is made of texts shows where it ends. The character in front tells
    how it is made, and by induction each of its parts shows where it ends. -/
theorem chars_append_inj (v : Value) (hv : Textual v) :
    ∀ (level : Nat) (v' : Value) (rest rest' : List Char), Textual v' →
      v.chars level ++ rest = v'.chars level ++ rest' → v = v' ∧ rest = rest' := by
  -- The first character tells which kind of value was printed.
  induction hv with
  | string text =>
      intro level v' rest rest' hv' h
      have hopening := head?_chars level _ (.string text) rest
      rw [h, head?_chars level v' hv'] at hopening
      cases hv' with
      | string text' =>
          rcases Quoted.write_append_inj text text' rest rest' h with ⟨rfl, hrest⟩
          exact ⟨rfl, hrest⟩
      | array items' _ => cases hopening
      | object members' _ => cases hopening
  | array items hitems ih =>
      intro level v' rest rest' hv' h
      have hopening := head?_chars level _ (.array items hitems) rest
      rw [h, head?_chars level v' hv'] at hopening
      cases hv' with
      | string text' => cases hopening
      | object members' _ => cases hopening
      | array items' hitems' =>
          rw [chars_array, chars_array] at h
          rcases bracketed_append_inj _ _ _ _ _ _ _ _ (by decide)
            (fun x hx y hy rest rest' => ih x hx _ y rest rest' (hitems' y hy)) h with ⟨rfl, hrest⟩
          exact ⟨rfl, hrest⟩
  | object members hmembers ih =>
      intro level v' rest rest' hv' h
      have hopening := head?_chars level _ (.object members hmembers) rest
      rw [h, head?_chars level v' hv'] at hopening
      cases hv' with
      | string text' => cases hopening
      | array items' _ => cases hopening
      | object members' hmembers' =>
          -- A member ends where its value does, and its name ends before.
          have hmember : ∀ x ∈ members, ∀ y ∈ members', ∀ rest rest',
              memberText (level + 1) x ++ rest = memberText (level + 1) y ++ rest' →
                x = y ∧ rest = rest' := by
            intro x hx y hy rest rest' h
            simp only [memberText, List.append_assoc] at h
            rcases Quoted.write_append_inj _ _ _ _ h with ⟨hname, hvalue⟩
            rcases ih x hx _ y.2 _ _ (hmembers' y hy) (List.append_cancel_left hvalue) with
              ⟨hvalue, hrest⟩
            exact ⟨Prod.ext hname hvalue, hrest⟩
          rw [chars_object, chars_object] at h
          rcases bracketed_append_inj _ _ _ _ _ _ _ _ (by decide) hmember h with ⟨rfl, hrest⟩
          exact ⟨rfl, hrest⟩

/-- Values that are made of texts are equal if they are printed alike. -/
theorem eq_of_print (v v' : Value) (hv : Textual v) (hv' : Textual v') (h : v.print = v'.print) :
    v = v' :=
  (chars_append_inj v hv 0 v' [] [] hv' (congrArg (· ++ []) (String.ofList_injective h))).1

end Textual

end Value

end Json

end Phrasebook
