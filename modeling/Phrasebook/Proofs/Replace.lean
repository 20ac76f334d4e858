import Mathlib.Data.List.Infix
import Mathlib.Tactic.ByContra

/-!
# Replacing Every Occurrence of a Pattern

Replacement as texts know it: from the left, a pattern that stands at the front is
exchanged for an image, and the search goes on behind it. What comes out depends on
how occurrences lie to each other and to the seams of a text, so in general nothing
is known of the replacement in two joined texts.

For the patterns of placeholders everything is known. Such a pattern is `Braced`: it
opens with a brace, closes with one, and has none in between. Two of them never
overlap, and none lies across the edge of another, so replacement can be done piece
by piece around them (`replace_around`). If the images have no braces, each
replacement takes opening braces away, exactly one for each occurrence. That makes
the opening braces of a text a count of what has been replaced, and
`count_foldl_replace_le` uses it for several replacements in a row: a pattern that
occurred more often than once leaves too few braces behind, whatever comes later.

## Main definitions

* `replace`: A text in which a pattern is replaced wherever it stands.
* `OccursOnce`: A pattern stands at exactly one place of a text.
* `BraceFree`, `Braced`: Texts without braces, and such texts in braces.

## Theorems

* `replace_induction`: Induction along the search for a pattern.
* `replace_append`: Replacement in two texts with no occurrence across the seam.
* `replace_of_once`: Replacement of a pattern that stands at one place.
* `Braced.eq_of_append_eq`: Of two patterns at the front of a text each is the other.
* `replace_around`: Replacement on both sides of a pattern and in it.
* `infix_replace`: A pattern survives the replacement of another.
* `count_replace_lt`, `count_replace_add_two_le`: Each occurrence costs a brace.
* `count_foldl_replace_le`: Each of several replacements costs a brace.
-/

namespace Phrasebook

namespace Text

/-- Put `image` for each occurrence of a pattern, after passing over `pending`
    characters of an occurrence. -/
def replaceFrom (pattern image : List Char) : (pending : Nat) → List Char → List Char
  | _, [] => []
  | pending + 1, _ :: cs => replaceFrom pattern image pending cs
  | 0, c :: cs =>
    if pattern.isPrefixOf (c :: cs) then image ++ replaceFrom pattern image (pattern.length - 1) cs
    else c :: replaceFrom pattern image 0 cs

/-- The text with `image` for each occurrence of a pattern that is not empty. The
    occurrences are found from the left, and do not overlap. -/
def replace (pattern image s : List Char) : List Char := replaceFrom pattern image 0 s

/-- A pattern stands at exactly one place of a text. -/
def OccursOnce (pattern s : List Char) : Prop := ∃! front, ∃ back, s = front ++ (pattern ++ back)

/-- A text without braces. -/
def BraceFree (s : List Char) : Prop := '\x7b' ∉ s ∧ '\x7d' ∉ s

instance (s : List Char) : Decidable (BraceFree s) :=
  inferInstanceAs (Decidable ('\x7b' ∉ s ∧ '\x7d' ∉ s))

/-- A text without braces, in braces. -/
def Braced (p : List Char) : Prop := ∃ inside, BraceFree inside ∧ p = '\x7b' :: (inside ++ ['\x7d'])

section Replace

variable (pattern image : List Char)

theorem replace_nil : replace pattern image [] = [] := rfl

theorem replaceFrom_append (passed rest : List Char) :
    replaceFrom pattern image passed.length (passed ++ rest) = replace pattern image rest := by
  induction passed with
  | nil => rfl
  | cons c passed ih => exact ih

/-- Where the pattern stands in front, its image is put, and the search goes on
    behind it. -/
theorem replace_pattern_append (hp : pattern ≠ []) (rest : List Char) :
    replace pattern image (pattern ++ rest) = image ++ replace pattern image rest := by
  cases hpattern : pattern with
  | nil => exact absurd hpattern hp
  | cons c cs =>
      have hfront : (c :: cs).isPrefixOf (c :: (cs ++ rest)) = true :=
        List.isPrefixOf_iff_prefix.mpr ⟨rest, rfl⟩
      rw [List.cons_append, replace, replaceFrom, if_pos hfront, List.length_cons,
        Nat.add_sub_cancel, replaceFrom_append]

/-- Where the pattern does not stand in front, the first character is kept. -/
theorem replace_cons_of_miss (c : Char) (cs : List Char) (h : ¬pattern <+: c :: cs) :
    replace pattern image (c :: cs) = c :: replace pattern image cs := by
  rw [replace, replaceFrom, if_neg (fun hfront => h (List.isPrefixOf_iff_prefix.mp hfront))]
  rfl

/-- Induction along the search for a pattern: a text is empty, starts with the
    pattern, or starts with a character that is passed over. -/
theorem replace_induction (hp : pattern ≠ []) (motive : List Char → Prop) (nil : motive [])
    (hit : ∀ rest, motive rest → motive (pattern ++ rest))
    (miss : ∀ c cs, ¬pattern <+: c :: cs → motive cs → motive (c :: cs)) (s : List Char) :
    motive s := by
  -- What is left behind the pattern or the character is shorter.
  induction hlength : s.length using Nat.strong_induction_on generalizing s with
  | _ n ih =>
    cases s with
    | nil => exact nil
    | cons c cs =>
        by_cases hfront : pattern <+: c :: cs
        · rcases hfront with ⟨rest, hrest⟩
          have hpos : 0 < pattern.length := List.length_pos_iff.mpr hp
          have hsum : pattern.length + rest.length = n := by
            rw [← List.length_append, hrest, hlength]
          rw [← hrest]
          exact hit rest (ih rest.length (by omega) rest rfl)
        · rw [List.length_cons] at hlength
          exact miss c cs hfront (ih cs.length (by omega) cs rfl)

/-- A text in which the pattern does not stand is kept. -/
theorem replace_eq_self (s : List Char) (h : ¬pattern <:+: s) : replace pattern image s = s := by
  induction s with
  | nil => rfl
  | cons c cs ih =>
      rw [List.infix_cons_iff, not_or] at h
      rw [replace_cons_of_miss pattern image c cs h.1, ih h.2]

/-- If no occurrence of the pattern lies across the seam of two texts, each can be
    replaced in by itself. -/
theorem replace_append (hp : pattern ≠ []) (s t : List Char)
    (hseam : ∀ x y, x ≠ [] → y ≠ [] → x <:+ s → y <+: t → pattern ≠ x ++ y) :
    replace pattern image (s ++ t) = replace pattern image s ++ replace pattern image t := by
  induction s using replace_induction pattern hp with
  | nil => rfl
  | hit rest ih =>
      have hrest := ih (fun x y hx hy hxs => hseam x y hx hy (hxs.trans (List.suffix_append _ _)))
      rw [List.append_assoc, replace_pattern_append pattern image hp,
        replace_pattern_append pattern image hp, hrest, List.append_assoc]
  | miss c cs hfront ih =>
      have hrest := ih (fun x y hx hy hxs => hseam x y hx hy (hxs.trans (List.suffix_cons c cs)))
      -- At the front of both texts the pattern would lie in the first or across.
      have hfront' : ¬pattern <+: c :: (cs ++ t) := by
        rintro ⟨rest, hsplit⟩
        have hsplit : pattern ++ rest = (c :: cs) ++ t := hsplit
        rcases List.append_eq_append_iff.mp hsplit with ⟨x, hx, -⟩ | ⟨y, hy, ht⟩
        · exact hfront ⟨x, hx.symm⟩
        · by_cases hnil : y = []
          · rw [hnil, List.append_nil] at hy
            exact hfront (hy ▸ List.prefix_rfl)
          · exact hseam (c :: cs) y (List.cons_ne_nil c cs) hnil List.suffix_rfl ⟨rest, ht.symm⟩ hy
      rw [List.cons_append, replace_cons_of_miss pattern image c _ hfront', hrest,
        replace_cons_of_miss pattern image c cs hfront, List.cons_append]

/-- A pattern that stands at one place is replaced there, and nothing else is. -/
theorem replace_of_once (hp : pattern ≠ []) (front back : List Char)
    (honce : OccursOnce pattern (front ++ (pattern ++ back))) :
    replace pattern image (front ++ (pattern ++ back)) = front ++ (image ++ back) := by
  have hunique : ∀ other rest, front ++ (pattern ++ back) = other ++ (pattern ++ rest) →
      other = front :=
    fun other rest h => honce.unique ⟨rest, h⟩ ⟨back, rfl⟩
  clear honce
  induction front with
  | nil =>
      -- Another occurrence behind the first one would be a second place.
      have hback : ¬pattern <:+: back := by
        rintro ⟨x, y, hxy⟩
        have hsecond : pattern ++ x = [] := by
          refine hunique (pattern ++ x) y ?_
          rw [List.nil_append, ← hxy, List.append_assoc, List.append_assoc]
        exact hp (List.append_eq_nil_iff.mp hsecond).1
      rw [List.nil_append, List.nil_append, replace_pattern_append pattern image hp,
        replace_eq_self pattern image back hback]
  | cons c front ih =>
      have hfront : ¬pattern <+: c :: (front ++ (pattern ++ back)) := by
        rintro ⟨rest, hrest⟩
        exact absurd (hunique [] rest hrest.symm).symm (List.cons_ne_nil c front)
      have hrest := ih (fun other rest h =>
        (List.cons.inj (hunique (c :: other) rest (congrArg (c :: ·) h))).2)
      rw [List.cons_append, replace_cons_of_miss pattern image c _ hfront, hrest,
        List.cons_append]

end Replace

theorem BraceFree.append {s t : List Char} (hs : BraceFree s) (ht : BraceFree t) :
    BraceFree (s ++ t) := by
  constructor
  · intro h
    exact (List.mem_append.mp h).elim hs.1 ht.1
  · intro h
    exact (List.mem_append.mp h).elim hs.2 ht.2

namespace Braced

variable {p q : List Char}

theorem ne_nil (h : Braced p) : p ≠ [] := by
  rcases h with ⟨inside, -, rfl⟩
  exact List.cons_ne_nil _ _

theorem exists_cons (h : Braced p) : ∃ rest, p = '\x7b' :: rest := by
  rcases h with ⟨inside, -, rfl⟩
  exact ⟨_, rfl⟩

theorem count_openBrace (h : Braced p) : p.count '\x7b' = 1 := by
  rcases h with ⟨inside, ⟨hopen, -⟩, rfl⟩
  rw [List.count_cons_self, List.count_append, List.count_eq_zero_of_not_mem hopen]
  rfl

/-- Behind its first character a pattern has no opening brace. -/
theorem openBrace_not_mem (x y : List Char) (h : Braced (x ++ y)) (hx : x ≠ []) :
    '\x7b' ∉ y := by
  intro hy
  have hfront : '\x7b' ∈ x := by
    rcases h.exists_cons with ⟨rest, hrest⟩
    cases x with
    | nil => exact absurd rfl hx
    | cons c x =>
        rw [List.cons_append, List.cons.injEq] at hrest
        rw [hrest.1]
        exact List.mem_cons_self
  -- A braced word has one opening brace, and it stands in front.
  have hcount := h.count_openBrace
  have hpos := List.count_pos_iff.mpr hy
  have hpos' := List.count_pos_iff.mpr hfront
  rw [List.count_append] at hcount
  omega

/-- In front of its last character a pattern has no closing brace. -/
theorem closeBrace_not_mem (x y : List Char) (h : Braced (x ++ y)) (hy : y ≠ []) :
    '\x7d' ∉ x := by
  rcases h with ⟨inside, ⟨-, hclose⟩, heq⟩
  rcases List.eq_nil_or_concat y with hnil | ⟨y, last, rfl⟩
  · exact absurd hnil hy
  · rw [List.concat_eq_append, ← List.append_assoc, ← List.cons_append] at heq
    -- The last character is the closing brace, so what is before it has none.
    have hfront := (List.append_inj' heq rfl).1
    intro hx
    have hmem : '\x7d' ∈ '\x7b' :: inside := hfront ▸ List.mem_append_left y hx
    rcases List.mem_cons.mp hmem with hbrace | hmem
    · exact absurd hbrace (by decide)
    · exact hclose hmem

/-- Of two patterns at the front of a text each is the other. -/
theorem eq_of_append_eq (hp : Braced p) (hq : Braced q) (s t : List Char)
    (h : p ++ s = q ++ t) : p = q := by
  -- A longer one would have the closing brace of the other inside.
  have hlonger : ∀ a b x : List Char, Braced a → Braced b → b = a ++ x → x = [] := by
    intro a b x ha hb hbx
    by_contra hx
    rcases ha with ⟨inside, -, rfl⟩
    subst hbx
    refine closeBrace_not_mem _ x hb hx ?_
    exact List.mem_cons_of_mem _ (List.mem_append_right inside (List.mem_singleton_self _))
  rcases List.append_eq_append_iff.mp h with ⟨x, hx, -⟩ | ⟨x, hx, -⟩
  · rw [hx, hlonger p q x hp hq hx, List.append_nil]
  · rw [hx, hlonger q p x hq hp hx, List.append_nil]

/-- A pattern stands in another only if it is the other. -/
theorem eq_of_infix (hp : Braced p) (hq : Braced q) (h : p <:+: q) : p = q := by
  rcases h with ⟨x, y, hxy⟩
  by_cases hx : x = []
  · rw [hx, List.nil_append] at hxy
    exact eq_of_append_eq hp hq y [] (by rw [hxy, List.append_nil])
  · exfalso
    rw [List.append_assoc] at hxy
    rcases hp.exists_cons with ⟨rest, hrest⟩
    -- The occurrence would begin with a second opening brace.
    refine openBrace_not_mem x (p ++ y) (hxy ▸ hq) hx ?_
    rw [hrest]
    exact List.mem_cons_self

end Braced

section Braces

variable {p q : List Char} (image : List Char)

/-- Replacement goes on by itself in front of a pattern, in it, and behind it. -/
theorem replace_around (hp : Braced p) (hq : Braced q) (u v : List Char) :
    replace p image (u ++ (q ++ v)) =
      replace p image u ++ (replace p image q ++ replace p image v) := by
  -- What lies across the first edge has an opening brace inside, and what lies
  -- across the second a closing one.
  have hfirst : ∀ x y, x ≠ [] → y ≠ [] → x <:+ u → y <+: q ++ v → p ≠ x ++ y := by
    rintro x y hx hy - ⟨rest, hrest⟩ rfl
    rcases hq.exists_cons with ⟨inner, hinner⟩
    cases y with
    | nil => exact absurd rfl hy
    | cons c y =>
        rw [hinner, List.cons_append, List.cons_append, List.cons.injEq] at hrest
        refine Braced.openBrace_not_mem x (c :: y) hp hx ?_
        rw [hrest.1]
        exact List.mem_cons_self
  have hsecond : ∀ x y, x ≠ [] → y ≠ [] → x <:+ q → y <+: v → p ≠ x ++ y := by
    rintro x y hx hy ⟨front, hfront⟩ - rfl
    rcases hq with ⟨inside, -, rfl⟩
    rcases List.eq_nil_or_concat x with hnil | ⟨x, last, rfl⟩
    · exact absurd hnil hx
    · rw [List.concat_eq_append, ← List.append_assoc, ← List.cons_append] at hfront
      have hlast := (List.append_inj' hfront rfl).2
      refine Braced.closeBrace_not_mem _ y hp hy ?_
      rw [List.concat_eq_append, hlast]
      exact List.mem_append_right x (List.mem_singleton_self _)
  rw [replace_append p image hp.ne_nil u (q ++ v) hfirst,
    replace_append p image hp.ne_nil q v hsecond]

/-- A pattern survives the replacement of another one. -/
theorem infix_replace (hp : Braced p) (hq : Braced q) (hne : p ≠ q) (s : List Char)
    (h : q <:+: s) : q <:+: replace p image s := by
  rcases h with ⟨u, v, rfl⟩
  have hkept : replace p image q = q :=
    replace_eq_self p image q (fun hinfix => hne (hp.eq_of_infix hq hinfix))
  rw [List.append_assoc, replace_around image hp hq, hkept, ← List.append_assoc]
  exact ⟨_, _, rfl⟩

variable (himage : BraceFree image)

include himage

/-- Replacement adds no opening brace. -/
theorem count_replace_le (hp : Braced p) (s : List Char) :
    (replace p image s).count '\x7b' ≤ s.count '\x7b' := by
  induction s using replace_induction p hp.ne_nil with
  | nil => exact Nat.le_refl _
  | hit rest ih =>
      rw [replace_pattern_append p image hp.ne_nil, List.count_append, List.count_append,
        List.count_eq_zero_of_not_mem himage.1]
      omega
  | miss c cs hfront ih =>
      rw [replace_cons_of_miss p image c cs hfront, List.count_cons, List.count_cons]
      omega

/-- Around an occurrence replacement adds no opening brace, and the one of the
    occurrence is lost. -/
theorem count_replace_around_le (hp : Braced p) (u v : List Char) :
    (replace p image (u ++ (p ++ v))).count '\x7b' ≤
      u.count '\x7b' + (replace p image v).count '\x7b' := by
  -- The pattern between the two sides is replaced as a whole.
  have hown : replace p image p = image := by
    have h := replace_pattern_append p image hp.ne_nil []
    rwa [List.append_nil, replace_nil, List.append_nil] at h
  have hu := count_replace_le image himage hp u
  rw [replace_around image hp hp, hown, List.count_append, List.count_append,
    List.count_eq_zero_of_not_mem himage.1]
  omega

/-- Replacing a pattern that occurs costs an opening brace. -/
theorem count_replace_lt (hp : Braced p) (s : List Char) (h : p <:+: s) :
    (replace p image s).count '\x7b' < s.count '\x7b' := by
  rcases h with ⟨u, v, rfl⟩
  have haround := count_replace_around_le image himage hp u v
  have hv := count_replace_le image himage hp v
  have hone := hp.count_openBrace
  rw [List.append_assoc, List.count_append, List.count_append]
  omega

/-- Replacing a pattern that occurs more than once costs two opening braces. -/
theorem count_replace_add_two_le (hp : Braced p) (s : List Char) (h : p <:+: s)
    (hmany : ¬OccursOnce p s) : (replace p image s).count '\x7b' + 2 ≤ s.count '\x7b' := by
  -- Of two places one comes first, and the other occurrence lies wholly behind it.
  have hbehind : ∀ u v other rest x, u ++ (p ++ v) = s → other ++ (p ++ rest) = s →
      x ≠ [] → other = u ++ x → p <:+: v := by
    intro u v other rest x hs hs' hx hother
    rw [← hs', hother, List.append_assoc] at hs
    have hsame := List.append_cancel_left hs
    rcases List.append_eq_append_iff.mp hsame with ⟨y, hxy, hv⟩ | ⟨y, hpy, hrest⟩
    · exact ⟨y, rest, by rw [hv, List.append_assoc]⟩
    · by_cases hy : y = []
      · rw [hy, List.nil_append] at hrest
        exact ⟨[], rest, by rw [← hrest, List.nil_append]⟩
      · exfalso
        rcases hp.exists_cons with ⟨inner, hinner⟩
        refine Braced.openBrace_not_mem x y (hpy ▸ hp) hx ?_
        cases y with
        | nil => exact absurd rfl hy
        | cons c y =>
            rw [hinner, List.cons_append, List.cons_append, List.cons.injEq] at hrest
            rw [hrest.1]
            exact List.mem_cons_self
  have htwice : ∃ u v, u ++ (p ++ v) = s ∧ p <:+: v := by
    rcases h with ⟨u, v, huv⟩
    rw [List.append_assoc] at huv
    have hother : ∃ other rest, other ++ (p ++ rest) = s ∧ other ≠ u := by
      by_contra hnone
      refine hmany ⟨u, ⟨v, huv.symm⟩, ?_⟩
      rintro other ⟨rest, hrest⟩
      by_contra hne
      exact hnone ⟨other, rest, hrest.symm, hne⟩
    rcases hother with ⟨other, rest, hrest, hne⟩
    rcases List.append_eq_append_iff.mp (huv.trans hrest.symm) with ⟨x, hx, -⟩ | ⟨x, hx, -⟩
    · have hnil : x ≠ [] := fun hnil => hne (by rw [hx, hnil, List.append_nil])
      exact ⟨u, v, huv, hbehind u v other rest x huv hrest hnil hx⟩
    · have hnil : x ≠ [] := fun hnil => hne (by rw [hx, hnil, List.append_nil])
      exact ⟨other, rest, hrest, hbehind other rest u v x hrest huv hnil hx⟩
  rcases htwice with ⟨u, v, rfl, hv⟩
  have haround := count_replace_around_le image himage hp u v
  have hlt := count_replace_lt image himage hp v hv
  have hone := hp.count_openBrace
  rw [List.count_append, List.count_append]
  omega

end Braces

/-- Replacing several patterns one after another, all of which occur, costs an
    opening brace each: none can take the occurrences of another away. -/
theorem count_foldl_replace_le {α : Type} (pattern image : α → List Char) (steps : List α)
    (s : List Char) (hbraced : ∀ x ∈ steps, Braced (pattern x))
    (hfree : ∀ x ∈ steps, BraceFree (image x)) (hdistinct : (steps.map pattern).Nodup)
    (hoccur : ∀ x ∈ steps, pattern x <:+: s) :
    (steps.foldl (fun s x => replace (pattern x) (image x) s) s).count '\x7b' + steps.length ≤
      s.count '\x7b' := by
  induction steps generalizing s with
  | nil => exact Nat.le_refl _
  | cons x steps ih =>
      rcases List.forall_mem_cons.mp hbraced with ⟨hx, hbraced⟩
      rcases List.forall_mem_cons.mp hfree with ⟨hximage, hfree⟩
      rcases List.forall_mem_cons.mp hoccur with ⟨hxs, hoccur⟩
      rw [List.map_cons, List.nodup_cons] at hdistinct
      -- Each step takes at least one opening brace away.
      have hlt := count_replace_lt (image x) hximage hx s hxs
      have hrest := ih (replace (pattern x) (image x) s) hbraced hfree hdistinct.2 (by
        intro y hy
        -- The step leaves the other patterns where they are.
        refine infix_replace (image x) hx (hbraced y hy) ?_ s (hoccur y hy)
        intro heq
        exact hdistinct.1 (heq ▸ List.mem_map_of_mem hy))
      rw [List.foldl_cons, List.length_cons]
      omega

end Text

end Phrasebook
