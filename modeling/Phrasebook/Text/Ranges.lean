/-!
# Ranges of Characters

A property of characters is a list of ranges of code points, both ends
included, in ascending order and without overlap. The tables of the modules
beside this one have that form, and `covers` looks a code point up in one.

## Main definitions

* `covers`: Some range of a table holds a code point.
* `ascends`: The ranges of a table are in order and do not overlap.

## Theorems

* `le_of_ascends`: No range starts below the floor of a table.
* `covers_iff`: Look-up in an ascending table is membership in a range.
-/

namespace Phrasebook

namespace Text

/-- Whether some range holds `code`. The search stops at the first range that
    lies above it. -/
def covers : List (Nat × Nat) → Nat → Bool
  | [], _ => false
  | (first, last) :: rest, code =>
    if code < first then false else code ≤ last || covers rest code

/-- Whether the ranges lie at or above `floor`, each above the end of the one
    before it, and none ends before it starts. -/
def ascends (floor : Nat) : List (Nat × Nat) → Bool
  | [] => true
  | (first, last) :: rest => floor ≤ first && first ≤ last && ascends (last + 1) rest

/-- No range of a table in order starts below its floor. -/
theorem le_of_ascends {ranges : List (Nat × Nat)} {floor : Nat}
    (h : ascends floor ranges = true) : ∀ r ∈ ranges, floor ≤ r.1 := by
  induction ranges generalizing floor with
  | nil => exact fun r hr => absurd hr List.not_mem_nil
  | cons head rest ih =>
    obtain ⟨first, last⟩ := head
    simp only [ascends, Bool.and_eq_true, decide_eq_true_eq] at h
    intro r hr
    rcases List.mem_cons.mp hr with rfl | hr
    · exact h.1.1
    · have hle := ih h.2 r hr
      omega

/-- Look-up in a table in order finds exactly the members of its ranges. -/
theorem covers_iff {ranges : List (Nat × Nat)} {floor code : Nat}
    (h : ascends floor ranges = true) :
    covers ranges code = true ↔ ∃ r ∈ ranges, r.1 ≤ code ∧ code ≤ r.2 := by
  induction ranges generalizing floor with
  | nil => simp [covers]
  | cons head rest ih =>
    obtain ⟨first, last⟩ := head
    simp only [ascends, Bool.and_eq_true, decide_eq_true_eq] at h
    simp only [covers]
    split
    next hlt =>
      refine ⟨fun hc => (Bool.false_ne_true hc).elim, fun ⟨r, hr, hlo, hhi⟩ => ?_⟩
      rcases List.mem_cons.mp hr with rfl | hr
      · exact absurd hlo (Nat.not_le.mpr hlt)
      · have hfloor := le_of_ascends h.2 r hr
        omega
    next hge =>
      simp only [Bool.or_eq_true, decide_eq_true_eq, ih h.2, List.mem_cons, exists_eq_or_imp]
      exact or_congr_left ⟨fun hle => ⟨Nat.not_lt.mp hge, hle⟩, fun hc => hc.2⟩

end Text

end Phrasebook
