import Phrasebook.Json.Printer
import Phrasebook.Json.Typed
import Phrasebook.Proofs.Fallible

/-!
# Texts That Write Values

What it is for a text to write a value, said without a reader. A string can be spelled
in many ways, since every character may be escaped; blanks may stand around each sign;
the members of an object may come in any order. Each relation here leads from a text
through what is written at its front to the rest, so that rules follow one another as
they do in a text, and none of them says how long anything is.

A reader that knows which type of value has to come takes every text that writes one
(`Reads`). For arrays and objects that is shown once, for any kind of item or member:
the loops count their rounds by the length of the text, and every item takes at least
one character from it, so the rounds do not run out. Printing chooses one text among
those that write a value (`listed_array`, `listed_object`).

## Main definitions

* `Blanks`: Blanks stand at the front of a text.
* `Spells`: A text is spelled up to its closing quote.
* `Quotes`: A text is written between quotes.
* `Listed`: Items are written one after another, with commas between them, up to a
  closing sign.
* `Member`: A name and a value are written with a colon between them.
* `Reads`: A reader takes what a relation says is written.
* `Steps`: What is done with one member of an object changes a state.
* `itemLines`, `bracketed`: Items as they are printed between brackets.

## Theorems

* `skipSpace_eq_of_blanks`: Blanks are passed over.
* `Quoted.read_of_spells`: A string is read as it is spelled, whatever escapes it has.
* `Quoted.quotes_write`: What is printed for a text writes it.
* `readItems_of_listed`, `foldMembers_of_listed`, `readMembers_of_listed`: The items of
  an array and the members of an object are read.
* `listed_bracketed`: What is printed for a list between brackets writes its items.
* `Value.chars_array`, `Value.chars_object`: Arrays and objects are such lists.
* `listed_array`, `listed_object`: What is printed for items and members writes them.
-/

namespace Phrasebook

namespace Json

/-- Blanks stand at the front of a text, and then the rest. -/
inductive Blanks : List Char → List Char → Prop where
  | none {s : List Char} : Blanks s s
  | cons {c : Char} {s rest : List Char} : isSpace c = true → Blanks s rest → Blanks (c :: s) rest

/-- A text is spelled up to its closing quote, behind which the rest stands. A character
    that needs no escape may stand for itself, some have an escape of one letter, and all
    can be given by their 16-bit units. -/
inductive Spells : List Char → List Char → List Char → Prop where
  | close {rest : List Char} : Spells ('"' :: rest) [] rest
  | plain {c : Char} {s text rest : List Char} : c ≠ '"' → c ≠ '\\' → ¬ c < ' ' →
      Spells s text rest → Spells (c :: s) (c :: text) rest
  | letter {e c : Char} {s text rest : List Char} : Quoted.letterEscape? e = some c →
      Spells s text rest → Spells ('\\' :: e :: s) (c :: text) rest
  | unit {a b c d : Char} {n : Nat} {s text rest : List Char} : hexValue? a b c d = some n →
      Quoted.isHighSurrogate n = false → Quoted.isLowSurrogate n = false → Spells s text rest →
      Spells ('\\' :: 'u' :: a :: b :: c :: d :: s) (Char.ofNat n :: text) rest
  | pair {a b c d a' b' c' d' : Char} {high low : Nat} {s text rest : List Char} :
      hexValue? a b c d = some high → Quoted.isHighSurrogate high = true →
      hexValue? a' b' c' d' = some low → Quoted.isLowSurrogate low = true → Spells s text rest →
      Spells ('\\' :: 'u' :: a :: b :: c :: d :: '\\' :: 'u' :: a' :: b' :: c' :: d' :: s)
        (Quoted.joinSurrogates high low :: text) rest

/-- A text is written between quotes. -/
inductive Quotes : List Char → String → List Char → Prop where
  | mk {s text rest : List Char} : Spells s text rest → Quotes ('"' :: s) (String.ofList text) rest

/-- Items are written up to a closing sign: the first at once, and each of the others
    behind a comma. -/
inductive Listed {α : Type} (close : Char) (item : List Char → α → List Char → Prop) :
    (first : Bool) → List Char → List α → List Char → Prop where
  | close {first : Bool} {s rest : List Char} : Blanks s (close :: rest) →
      Listed close item first s [] rest
  | first {s front behind rest : List Char} {x : α} {xs : List α} : Blanks s front →
      item front x behind → Listed close item false behind xs rest →
      Listed close item true s (x :: xs) rest
  | next {s t front behind rest : List Char} {x : α} {xs : List α} : Blanks s (',' :: t) →
      Blanks t front → item front x behind → Listed close item false behind xs rest →
      Listed close item false s (x :: xs) rest

/-- A name in quotes, a colon and a value. -/
def Member {α : Type} (value : List Char → α → List Char → Prop) (s : List Char)
    (x : String × α) (rest : List Char) : Prop :=
  ∃ t u front, Quotes s x.1 t ∧ Blanks t (':' :: u) ∧ Blanks u front ∧ value front x.2 rest

/-- A reader takes what is written, behind any blanks, and it is not nothing. -/
structure Reads {α : Type} (reader : Reader α) (written : List Char → α → List Char → Prop) :
    Prop where
  reads : ∀ s front x rest, Blanks s front → written front x rest → reader s = .ok (x, rest)
  shorter : ∀ s x rest, written s x rest → rest.length < s.length

theorem skipSpace_eq_of_blanks (s rest : List Char) (h : Blanks s rest) :
    skipSpace s = skipSpace rest := by
  induction h with
  | none => rfl
  | cons hc _ ih =>
      unfold skipSpace at ih ⊢
      rw [List.dropWhile_cons_of_pos hc, ih]

/-- What stands behind blanks and starts with none is found behind them. -/
theorem skipSpace_eq_cons (s rest : List Char) (c : Char) (h : Blanks s (c :: rest))
    (hc : isSpace c = false) : skipSpace s = c :: rest := by
  rw [skipSpace_eq_of_blanks s _ h, skipSpace,
    List.dropWhile_cons_of_neg (by rw [hc]; exact Bool.false_ne_true)]

theorem Blanks.length_le {s rest : List Char} (h : Blanks s rest) : rest.length ≤ s.length := by
  induction h with
  | none => exact Nat.le_refl _
  | cons _ _ ih =>
      rw [List.length_cons]
      omega

namespace Quoted

/-- An escape stands for its character, and reading goes on behind it. -/
theorem readFrom_escape (s text rest : List Char) (c : Char) (width : Nat)
    (hescape : escape s = .ok (c, width)) (hrest : readFrom width s = .ok (text, rest)) :
    readFrom 0 ('\\' :: s) = .ok (c :: text, rest) := by
  rw [readFrom, if_neg (by decide), if_pos rfl, hescape]
  change (readFrom width s >>= _) = _
  rw [hrest]
  rfl

theorem escape_of_numericEscape (s : List Char) (c : Char) (width : Nat)
    (h : numericEscape s = .ok (c, width)) : escape ('u' :: s) = .ok (c, width + 1) := by
  have hletter : letterEscape? 'u' = none := by decide
  simp only [escape, hletter, if_true, h, Except.map]

theorem unit_eq_ok (a b c d : Char) (s : List Char) (n : Nat) (h : hexValue? a b c d = some n) :
    unit (a :: b :: c :: d :: s) = .ok n := by
  simp only [unit, h]

/-- A unit that is no surrogate is a character of its own. -/
theorem numericEscape_of_unit (a b c d : Char) (s : List Char) (n : Nat)
    (hvalue : hexValue? a b c d = some n) (hhigh : isHighSurrogate n = false)
    (hlow : isLowSurrogate n = false) :
    numericEscape (a :: b :: c :: d :: s) = .ok (Char.ofNat n, 4) := by
  unfold numericEscape
  rw [unit_eq_ok a b c d s n hvalue]
  change (if isLowSurrogate n then _ else if isHighSurrogate n then _ else _) = _
  rw [hlow, hhigh, if_neg Bool.false_ne_true, if_neg Bool.false_ne_true]

/-- Two surrogates are one character. -/
theorem numericEscape_of_pair (a b c d a' b' c' d' : Char) (s : List Char) (high low : Nat)
    (hvalue : hexValue? a b c d = some high) (hhigh : isHighSurrogate high = true)
    (hvalue' : hexValue? a' b' c' d' = some low) (hlow : isLowSurrogate low = true) :
    numericEscape (a :: b :: c :: d :: '\\' :: 'u' :: a' :: b' :: c' :: d' :: s) =
      .ok (joinSurrogates high low, 10) := by
  have hfirst : isLowSurrogate high = false := by
    simp only [isHighSurrogate, isLowSurrogate, Bool.and_eq_true, decide_eq_true_eq,
      Bool.and_eq_false_iff, decide_eq_false_iff_not] at hhigh ⊢
    omega
  -- The first unit is no low surrogate, so the second escape is looked for.
  unfold numericEscape
  rw [unit_eq_ok a b c d _ high hvalue]
  change (if isLowSurrogate high then _ else if isHighSurrogate high then _ else _) = _
  rw [hfirst, hhigh, if_neg Bool.false_ne_true, if_pos rfl]
  change (unit (a' :: b' :: c' :: d' :: s) >>= _) = _
  rw [unit_eq_ok a' b' c' d' s low hvalue']
  change (if isLowSurrogate low then _ else _) = _
  rw [hlow, if_pos rfl]

/-- A string is read as it is spelled. -/
theorem read_of_spells (s text rest : List Char) (h : Spells s text rest) :
    read s = .ok (text, rest) := by
  unfold read
  -- Every way to spell a character is read by the branch that looks for it.
  induction h with
  | close => rw [readFrom, if_pos rfl]
  | plain hquote hescape hcontrol _ ih =>
      rw [readFrom, if_neg hquote, if_neg hescape, if_neg hcontrol, ih]
      rfl
  | @letter e c s text rest hletter _ ih =>
      have hescape : escape (e :: s) = .ok (c, 1) := by
        simp only [escape, hletter]
      exact readFrom_escape _ text rest c 1 hescape ih
  | @unit a b c d n s text rest hvalue hhigh hlow _ ih =>
      have hnumeric := numericEscape_of_unit a b c d s n hvalue hhigh hlow
      exact readFrom_escape _ text rest _ 5 (escape_of_numericEscape _ _ 4 hnumeric) ih
  | @pair a b c d a' b' c' d' high low s text rest hvalue hhigh hvalue' hlow _ ih =>
      have hnumeric := numericEscape_of_pair a b c d a' b' c' d' s high low hvalue hhigh hvalue' hlow
      exact readFrom_escape _ text rest _ 11 (escape_of_numericEscape _ _ 10 hnumeric) ih

/-- A character is spelled as it is printed. -/
theorem spells_writeChar (c : Char) (s text rest : List Char) (h : Spells s text rest) :
    Spells (writeChar c ++ s) (c :: text) rest := by
  unfold writeChar
  by_cases hquote : c = '"'
  · rw [if_pos hquote, hquote]
    exact .letter (by decide) h
  rw [if_neg hquote]
  by_cases hescape : c = '\\'
  · rw [if_pos hescape, hescape]
    exact .letter (by decide) h
  rw [if_neg hescape]
  by_cases hback : c = '\x08'
  · rw [if_pos hback, hback]
    exact .letter (by decide) h
  rw [if_neg hback]
  by_cases htab : c = '\t'
  · rw [if_pos htab, htab]
    exact .letter (by decide) h
  rw [if_neg htab]
  by_cases hline : c = '\n'
  · rw [if_pos hline, hline]
    exact .letter (by decide) h
  rw [if_neg hline]
  by_cases hfeed : c = '\x0c'
  · rw [if_pos hfeed, hfeed]
    exact .letter (by decide) h
  rw [if_neg hfeed]
  by_cases hreturn : c = '\r'
  · rw [if_pos hreturn, hreturn]
    exact .letter (by decide) h
  rw [if_neg hreturn]
  by_cases hcontrol : c < ' '
  · rw [if_pos hcontrol]
    -- The other controls are given by two digits, of which there are few.
    have hdigits : ∀ n < 32, hexValue? '0' '0' (hexDigit (n / 16)) (hexDigit (n % 16)) = some n ∧
        isHighSurrogate n = false ∧ isLowSurrogate n = false := by decide
    have hsmall : c.toNat < 32 := hcontrol
    rcases hdigits c.toNat hsmall with ⟨hvalue, hhigh, hlow⟩
    have hunit := Spells.unit hvalue hhigh hlow h
    rw [Char.ofNat_toNat] at hunit
    exact hunit
  · rw [if_neg hcontrol]
    exact .plain hquote hescape hcontrol h

/-- A text is spelled as it is printed. -/
theorem quotes_write (text : String) (rest : List Char) :
    Quotes (write text.toList ++ rest) text rest := by
  have hspells : ∀ s : List Char, Spells (s.flatMap writeChar ++ '"' :: rest) s rest := by
    intro s
    induction s with
    | nil => exact .close
    | cons c s ih =>
        rw [List.flatMap_cons, List.append_assoc]
        exact spells_writeChar c _ s rest ih
  have hquotes := Quotes.mk (hspells text.toList)
  rw [String.ofList_toList] at hquotes
  rw [write, List.cons_append, List.cons_append, List.append_assoc, List.singleton_append]
  exact hquotes

end Quoted

namespace Quotes

variable {s rest : List Char} {text : String}

theorem exists_cons (h : Quotes s text rest) : ∃ cs, s = '"' :: cs := by
  cases h with
  | mk _ => exact ⟨_, rfl⟩

theorem shorter (h : Quotes s text rest) : rest.length < s.length := by
  have hspelled : ∀ s text rest, Spells s text rest → rest.length < s.length := by
    intro s text rest h
    induction h with
    | close => exact Nat.lt_succ_self _
    | plain | letter | unit | pair =>
        simp only [List.length_cons]
        omega
  cases h with
  | mk hspells =>
      have hlength := hspelled _ _ _ hspells
      rw [List.length_cons]
      omega

/-- A name in quotes is read, with its spelling. -/
theorem exists_readName (h : Quotes s text rest) :
    ∃ name, readName s = .ok (name, rest) ∧ name.text = text := by
  cases h with
  | @mk s text rest hspells =>
      have hread := Quoted.read_of_spells s text rest hspells
      exact ⟨_, (Fallible.bind_eq_ok_iff _ _ _).mpr ⟨_, hread, rfl⟩, rfl⟩

end Quotes

/-- A string is read wherever a text has to come. -/
theorem reads_readText : Reads readText Quotes where
  reads := by
    intro s front text rest hblanks hquotes
    cases hquotes with
    | @mk cs text rest hspells =>
        unfold readText
        rw [skipSpace_eq_cons s cs '"' hblanks (by decide)]
        exact (Fallible.bind_eq_ok_iff _ _ _).mpr ⟨_, Quoted.read_of_spells cs text rest hspells, rfl⟩
  shorter := fun s text rest h => h.shorter

/-- The colon behind a name is read. -/
theorem readColon_of_blanks (s rest : List Char) (h : Blanks s (':' :: rest)) :
    readColon s = .ok rest := by
  unfold readColon
  rw [skipSpace_eq_cons s rest ':' h (by decide)]
  dsimp only
  rw [if_pos rfl]

theorem behindClosing_of_blanks (close : Char) (s rest : List Char)
    (h : Blanks s (close :: rest)) (hclose : isSpace close = false) : behindClosing s = rest := by
  rw [behindClosing, skipSpace_eq_cons s rest close h hclose, List.drop_one, List.tail_cons]

section Lists

variable {α : Type} {close : Char} {item : List Char → α → List Char → Prop} {first : Bool}
  {s rest : List Char} {xs : List α}

/-- Each item takes a character, so there are no more of them than characters in front
    of the rest. -/
theorem Listed.length_lt (h : Listed close item first s xs rest)
    (hitem : ∀ s x rest, item s x rest → rest.length < s.length) :
    xs.length + rest.length < s.length := by
  -- An item takes a character at least, and the closing sign takes one.
  induction h with
  | close hblanks =>
      have hlength := hblanks.length_le
      simp only [List.length_cons, List.length_nil] at hlength ⊢
      omega
  | first hblanks hx _ ih =>
      have hlength := hblanks.length_le
      have hshorter := hitem _ _ _ hx
      rw [List.length_cons]
      omega
  | next hcomma hblanks hx _ ih =>
      have hlength := hcomma.length_le
      have hlength' := hblanks.length_le
      have hshorter := hitem _ _ _ hx
      rw [List.length_cons] at hlength ⊢
      omega

end Lists

theorem nextItem_close (first : Bool) (s rest : List Char) (h : Blanks s (']' :: rest)) :
    nextItem first s = .ok none := by
  unfold nextItem
  rw [skipSpace_eq_cons s rest ']' h (by decide)]
  dsimp only
  rw [if_pos rfl]

/-- The first item is found behind blanks, if it starts with a quote. -/
theorem nextItem_first (s front : List Char) (h : Blanks s ('"' :: front)) :
    nextItem true s = .ok (some ('"' :: front)) := by
  unfold nextItem
  rw [skipSpace_eq_cons s front '"' h (by decide)]
  dsimp only
  rw [if_neg (by decide), if_pos rfl]

theorem nextItem_next (s t front : List Char) (hcomma : Blanks s (',' :: t))
    (h : Blanks t ('"' :: front)) : nextItem false s = .ok (some ('"' :: front)) := by
  unfold nextItem
  rw [skipSpace_eq_cons s t ',' hcomma (by decide)]
  dsimp only
  rw [if_neg (by decide), if_neg Bool.false_ne_true, if_pos rfl,
    skipSpace_eq_cons t front '"' h (by decide)]
  dsimp only
  rw [if_neg (by decide)]

theorem nextName_close (first : Bool) (s rest : List Char) (h : Blanks s ('\x7d' :: rest)) :
    nextName first s = .ok none := by
  unfold nextName
  rw [skipSpace_eq_cons s rest '\x7d' h (by decide)]
  dsimp only
  rw [if_pos rfl]

theorem nextName_first (s front : List Char) (h : Blanks s ('"' :: front)) :
    nextName true s = .ok (some ('"' :: front)) := by
  unfold nextName
  rw [skipSpace_eq_cons s front '"' h (by decide)]
  dsimp only
  rw [if_neg (by decide), if_pos rfl, if_pos rfl]

theorem nextName_next (s t front : List Char) (hcomma : Blanks s (',' :: t))
    (h : Blanks t ('"' :: front)) : nextName false s = .ok (some ('"' :: front)) := by
  unfold nextName
  rw [skipSpace_eq_cons s t ',' hcomma (by decide)]
  dsimp only
  rw [if_neg (by decide), if_neg Bool.false_ne_true, if_pos rfl,
    skipSpace_eq_cons t front '"' h (by decide)]
  dsimp only
  rw [if_pos rfl]

section Items

variable {α : Type} (item : Reader α) (rounds : Nat) (first : Bool)

theorem readItemsFrom_none (s : List Char) (h : nextItem first s = .ok none) :
    readItemsFrom item (rounds + 1) first s = .ok ([], behindClosing s) :=
  (Fallible.bind_eq_ok_iff _ _ _).mpr ⟨none, h, rfl⟩

theorem readItemsFrom_some (s front behind rest : List Char) (x : α) (xs : List α)
    (hnext : nextItem first s = .ok (some front)) (hx : item front = .ok (x, behind))
    (hxs : readItemsFrom item rounds false behind = .ok (xs, rest)) :
    readItemsFrom item (rounds + 1) first s = .ok (x :: xs, rest) := by
  refine (Fallible.bind_eq_ok_iff _ _ _).mpr ⟨some front, hnext, ?_⟩
  refine (Fallible.bind_eq_ok_iff _ _ _).mpr ⟨(x, behind), hx, ?_⟩
  exact (Fallible.bind_eq_ok_iff _ _ _).mpr ⟨(xs, rest), hxs, rfl⟩

end Items

/-- The items of an array are read, if each of them starts with a quote. -/
theorem readItems_of_listed {α : Type} (reader : Reader α)
    (item : List Char → α → List Char → Prop) (hreads : Reads reader item)
    (hquote : ∀ s x rest, item s x rest → ∃ cs, s = '"' :: cs) (s rest : List Char) (xs : List α)
    (h : Listed ']' item true s xs rest) : readItems reader s = .ok (xs, rest) := by
  -- The list may start anywhere, and rounds may be left over: a text has at least as many
  -- characters as items.
  have hfrom : ∀ first s xs rest, Listed ']' item first s xs rest → ∀ more,
      readItemsFrom reader (more + xs.length + 1) first s = .ok (xs, rest) := by
    intro first s xs rest h more
    induction h with
    | @close first s rest hblanks =>
        rw [readItemsFrom_none reader _ first s (nextItem_close first s rest hblanks),
          behindClosing_of_blanks ']' s rest hblanks (by decide)]
    | @first s front behind rest x xs hblanks hx _ ih =>
        rcases hquote _ _ _ hx with ⟨cs, rfl⟩
        exact readItemsFrom_some reader _ true s _ behind rest x xs (nextItem_first s cs hblanks)
          (hreads.reads _ _ x behind .none hx) ih
    | @next s t front behind rest x xs hcomma hblanks hx _ ih =>
        rcases hquote _ _ _ hx with ⟨cs, rfl⟩
        exact readItemsFrom_some reader _ false s _ behind rest x xs
          (nextItem_next s t cs hcomma hblanks) (hreads.reads _ _ x behind .none hx) ih
  have hlength := h.length_lt hreads.shorter
  have hrounds : s.length + 1 = (s.length - xs.length) + xs.length + 1 := by omega
  rw [readItems, hrounds]
  exact hfrom true s xs rest h _

section Members

variable {σ : Type} (member : σ → Name → Reader σ) (rounds : Nat) (first : Bool) (state : σ)

theorem foldMembersFrom_none (s : List Char) (h : nextName first s = .ok none) :
    foldMembersFrom member (rounds + 1) first state s = .ok (state, behindClosing s) :=
  (Fallible.bind_eq_ok_iff _ _ _).mpr ⟨none, h, rfl⟩

theorem foldMembersFrom_some (s front colon behind rest : List Char) (name : Name)
    (next last : σ) (hnext : nextName first s = .ok (some front))
    (hname : readName front = .ok (name, colon))
    (hmember : member state name colon = .ok (next, behind))
    (hrest : foldMembersFrom member rounds false next behind = .ok (last, rest)) :
    foldMembersFrom member (rounds + 1) first state s = .ok (last, rest) := by
  refine (Fallible.bind_eq_ok_iff _ _ _).mpr ⟨some front, hnext, ?_⟩
  refine (Fallible.bind_eq_ok_iff _ _ _).mpr ⟨(name, colon), hname, ?_⟩
  exact (Fallible.bind_eq_ok_iff _ _ _).mpr ⟨(next, behind), hmember, hrest⟩

end Members

/-- A member that is written starts with its name, and the reader of its value takes it
    from there whenever the members before it have left a fitting state. -/
def Steps {σ β : Type} (member : σ → Name → Reader σ) (step : σ → β → σ)
    (fits : σ → List β → Prop) (item : List Char → β → List Char → Prop) : Prop :=
  ∀ s x rest, item s x rest → rest.length < s.length ∧ ∃ text colon, Quotes s text colon ∧
    ∀ state name xs, name.text = text → fits state (x :: xs) →
      member state name colon = .ok (step state x, rest) ∧ fits (step state x) xs

/-- The members of an object are gathered one after another. -/
theorem foldMembers_of_listed {σ β : Type} (member : σ → Name → Reader σ) (step : σ → β → σ)
    (fits : σ → List β → Prop) (item : List Char → β → List Char → Prop)
    (hsteps : Steps member step fits item) (start : σ) (s rest : List Char) (xs : List β)
    (h : Listed '\x7d' item true s xs rest) (hfits : fits start xs) :
    foldMembers member start s = .ok (xs.foldl step start, rest) := by
  -- As for items, with a state that the members that come first have changed.
  have hfrom : ∀ first s xs rest, Listed '\x7d' item first s xs rest →
      ∀ more state, fits state xs → foldMembersFrom member (more + xs.length + 1) first state s =
        .ok (xs.foldl step state, rest) := by
    intro first s xs rest h more
    induction h with
    | @close first s rest hblanks =>
        intro state _
        rw [foldMembersFrom_none member _ first state s (nextName_close first s rest hblanks),
          behindClosing_of_blanks '\x7d' s rest hblanks (by decide)]
        rfl
    | @first s front behind rest x xs hblanks hx _ ih =>
        intro state hfits
        rcases hsteps _ _ _ hx with ⟨-, text, colon, hquotes, hmember⟩
        rcases hquotes.exists_cons with ⟨cs, rfl⟩
        rcases hquotes.exists_readName with ⟨name, hname, htext⟩
        rcases hmember state name xs htext hfits with ⟨hread, hnext⟩
        exact foldMembersFrom_some member _ true state s _ colon behind rest name _ _
          (nextName_first s cs hblanks) hname hread (ih _ hnext)
    | @next s t front behind rest x xs hcomma hblanks hx _ ih =>
        intro state hfits
        rcases hsteps _ _ _ hx with ⟨-, text, colon, hquotes, hmember⟩
        rcases hquotes.exists_cons with ⟨cs, rfl⟩
        rcases hquotes.exists_readName with ⟨name, hname, htext⟩
        rcases hmember state name xs htext hfits with ⟨hread, hnext⟩
        exact foldMembersFrom_some member _ false state s _ colon behind rest name _ _
          (nextName_next s t cs hcomma hblanks) hname hread (ih _ hnext)
  have hlength := h.length_lt (fun s x rest hx => (hsteps s x rest hx).1)
  have hrounds : s.length + 1 = (s.length - xs.length) + xs.length + 1 := by omega
  rw [foldMembers, hrounds]
  exact hfrom true s xs rest h _ start hfits

/-- A member starts with the quote of its name. -/
theorem Member.exists_cons {α : Type} {written : List Char → α → List Char → Prop}
    {s rest : List Char} {x : String × α} (h : Member written s x rest) : ∃ cs, s = '"' :: cs := by
  rcases h with ⟨_, _, _, hquotes, -⟩
  exact hquotes.exists_cons

section Tables

variable {α : Type} (reader : Reader α) (written : List Char → α → List Char → Prop)
  (hreads : Reads reader written)

theorem readMembersFrom_none (rounds : Nat) (first : Bool) (s : List Char)
    (h : nextName first s = .ok none) :
    readMembersFrom reader (rounds + 1) first s = .ok ([], behindClosing s) :=
  (Fallible.bind_eq_ok_iff _ _ _).mpr ⟨none, h, rfl⟩

include hreads

/-- A member takes at least the quotes of its name. -/
theorem Member.shorter (s : List Char) (x : String × α) (rest : List Char)
    (h : Member written s x rest) : rest.length < s.length := by
  rcases h with ⟨t, u, front, hquotes, hcolon, hblanks, hvalue⟩
  have hname := hquotes.shorter
  have hlength := hcolon.length_le
  have hlength' := hblanks.length_le
  have hshorter := hreads.shorter _ _ _ hvalue
  rw [List.length_cons] at hlength
  omega

/-- A member in front of others that are read is read with them. -/
theorem exists_readMembersFrom_cons (rounds : Nat) (first : Bool)
    (s front behind rest : List Char) (x : String × α) (others : List (Name × α))
    (hnext : nextName first s = .ok (some front)) (hx : Member written front x behind)
    (hothers : readMembersFrom reader rounds false behind = .ok (others, rest)) :
    ∃ name : Name, name.text = x.1 ∧
      readMembersFrom reader (rounds + 1) first s = .ok ((name, x.2) :: others, rest) := by
  rcases hx with ⟨t, u, value, hquotes, hcolon, hblanks, hvalue⟩
  rcases hquotes.exists_readName with ⟨name, hname, htext⟩
  refine ⟨name, htext, ?_⟩
  -- A member is read in four steps, each from where the one before has stopped.
  refine (Fallible.bind_eq_ok_iff _ _ _).mpr ⟨some front, hnext, ?_⟩
  refine (Fallible.bind_eq_ok_iff _ _ _).mpr ⟨(name, t), hname, ?_⟩
  refine (Fallible.bind_eq_ok_iff _ _ _).mpr ⟨u, readColon_of_blanks t u hcolon, ?_⟩
  have hread := hreads.reads u value x.2 behind hblanks hvalue
  refine (Fallible.bind_eq_ok_iff _ _ _).mpr ⟨(x.2, behind), hread, ?_⟩
  exact (Fallible.bind_eq_ok_iff _ _ _).mpr ⟨(others, rest), hothers, rfl⟩

/-- The members of an object are read with their names. -/
theorem readMembers_of_listed (s rest : List Char) (xs : List (String × α))
    (h : Listed '\x7d' (Member written) true s xs rest) : ∃ members,
      readMembers reader s = .ok (members, rest) ∧ members.map (fun m => (m.1.text, m.2)) = xs := by
  -- What is read has places that the list knows nothing of, so only the texts are compared.
  have hfrom : ∀ first s xs rest, Listed '\x7d' (Member written) first s xs rest → ∀ more,
      ∃ members, readMembersFrom reader (more + xs.length + 1) first s = .ok (members, rest) ∧
        members.map (fun m => (m.1.text, m.2)) = xs := by
    intro first s xs rest h more
    induction h with
    | @close first s rest hblanks =>
        refine ⟨[], ?_, rfl⟩
        rw [readMembersFrom_none reader _ first s (nextName_close first s rest hblanks),
          behindClosing_of_blanks '\x7d' s rest hblanks (by decide)]
    | @first s front behind rest x xs hblanks hx _ ih =>
        rcases ih with ⟨others, hothers, rfl⟩
        rcases hx.exists_cons with ⟨cs, rfl⟩
        rcases exists_readMembersFrom_cons reader written hreads _ true s _ behind rest x others
          (nextName_first s cs hblanks) hx hothers with ⟨name, htext, hread⟩
        exact ⟨_, hread, by rw [List.map_cons, htext]⟩
    | @next s t front behind rest x xs hcomma hblanks hx _ ih =>
        rcases ih with ⟨others, hothers, rfl⟩
        rcases hx.exists_cons with ⟨cs, rfl⟩
        rcases exists_readMembersFrom_cons reader written hreads _ false s _ behind rest x others
          (nextName_next s t cs hcomma hblanks) hx hothers with ⟨name, htext, hread⟩
        exact ⟨_, hread, by rw [List.map_cons, htext]⟩
  have hlength := h.length_lt (Member.shorter reader written hreads)
  have hrounds : s.length + 1 = (s.length - xs.length) + xs.length + 1 := by omega
  rw [readMembers, hrounds]
  exact hfrom true s xs rest h _

end Tables

/-- A new line is blank, whatever its level. -/
theorem blanks_newLine (level : Nat) (rest : List Char) : Blanks (newLine level ++ rest) rest := by
  have hspaces : ∀ n, Blanks (List.replicate n ' ' ++ rest) rest := by
    intro n
    induction n with
    | zero => exact .none
    | succ n ih => exact .cons (by decide) ih
  exact .cons (by decide) (hspaces (2 * level))

section Lists

variable {α β : Type} (print : α → List Char)

/-- Items behind the first as they are printed, each on a line of its own. -/
def itemLines (level : Nat) (xs : List α) : List Char :=
  xs.flatMap (fun x => ',' :: newLine level ++ print x)

/-- Items between brackets as they are printed. -/
def bracketed (opening closing : Char) (level : Nat) : List α → List Char
  | [] => [opening, closing]
  | x :: xs =>
    opening :: newLine (level + 1) ++ print x ++ itemLines print (level + 1) xs ++ newLine level ++
      [closing]

/-- What is printed for a list between brackets writes its items, if it does so for
    each. -/
theorem listed_bracketed (item : List Char → β → List Char → Prop) (f : β → α)
    (opening closing : Char) (level : Nat) (xs : List β)
    (hitem : ∀ x ∈ xs, ∀ rest, item (print (f x) ++ rest) x rest) (rest : List Char) : ∃ s,
      bracketed print opening closing level (xs.map f) ++ rest = opening :: s ∧
        Listed closing item true s xs rest := by
  -- Each item but the first has a comma and a new line in front of it.
  have hbehind : ∀ ys : List β, (∀ x ∈ ys, x ∈ xs) → Listed closing item false
      (itemLines print (level + 1) (ys.map f) ++ (newLine level ++ closing :: rest)) ys rest := by
    intro ys hys
    induction ys with
    | nil => exact .close (blanks_newLine level _)
    | cons x ys ih =>
        rcases List.forall_mem_cons.mp hys with ⟨hx, hys⟩
        simp only [itemLines, List.map_cons, List.flatMap_cons, List.cons_append, List.append_assoc]
        exact .next .none (blanks_newLine (level + 1) _) (hitem x hx _) (ih hys)
  cases xs with
  | nil => exact ⟨closing :: rest, rfl, .close .none⟩
  | cons x xs =>
      refine ⟨_, ?_, .first (blanks_newLine (level + 1) _) (hitem x List.mem_cons_self _)
        (hbehind xs (fun y hy => List.mem_cons_of_mem _ hy))⟩
      simp only [List.map_cons, bracketed, List.cons_append, List.append_assoc, List.nil_append]

end Lists

namespace Value

/-- The characters of a member. -/
def memberText (level : Nat) (member : String × Value) : List Char :=
  Quoted.write member.1.toList ++ ([':', ' '] ++ member.2.chars level)

theorem itemChars_eq (level : Nat) (items : List Value) :
    itemChars level items = itemLines (chars level) level items := by
  induction items with
  | nil => rfl
  | cons item items ih =>
      rw [itemChars, ih]
      rfl

theorem memberChars_eq (level : Nat) (members : List (String × Value)) :
    memberChars level members = itemLines (memberText level) level members := by
  induction members with
  | nil => rfl
  | cons member members ih =>
      simp only [memberChars, ih, itemLines, memberText, List.flatMap_cons, List.cons_append,
        List.append_assoc]

/-- An array is a list between brackets. -/
theorem chars_array (level : Nat) (items : List Value) :
    (array items).chars level = bracketed (chars (level + 1)) '[' ']' level items := by
  cases items with
  | nil => rfl
  | cons item items =>
      rw [chars, itemChars_eq]
      rfl

/-- An object is a list of members between braces. -/
theorem chars_object (level : Nat) (members : List (String × Value)) :
    (object members).chars level = bracketed (memberText (level + 1)) '\x7b' '\x7d' level members := by
  cases members with
  | nil => rfl
  | cons member members =>
      simp only [chars, memberChars_eq, bracketed, memberText, List.cons_append, List.append_assoc]

end Value

/-- What is printed for an array writes its items, if it does so for each. -/
theorem listed_array {β : Type} (item : List Char → β → List Char → Prop) (f : β → Value)
    (level : Nat) (hitem : ∀ x rest, item ((f x).chars (level + 1) ++ rest) x rest)
    (xs : List β) (rest : List Char) : ∃ s,
      (Value.array (xs.map f)).chars level ++ rest = '[' :: s ∧ Listed ']' item true s xs rest := by
  rw [Value.chars_array]
  exact listed_bracketed _ item f '[' ']' level xs (fun x _ => hitem x) rest

/-- What is printed for an object writes its members, if it does so for each. -/
theorem listed_object {β : Type} (item : List Char → β → List Char → Prop)
    (f : β → String × Value) (level : Nat) (xs : List β) (hitem : ∀ x ∈ xs, ∀ rest,
      item (Quoted.write (f x).1.toList ++ ':' :: ' ' :: ((f x).2.chars (level + 1) ++ rest)) x rest)
    (rest : List Char) : ∃ s,
      (Value.object (xs.map f)).chars level ++ rest = '\x7b' :: s ∧
        Listed '\x7d' item true s xs rest := by
  rw [Value.chars_object]
  refine listed_bracketed _ item f '\x7b' '\x7d' level xs (fun x hx rest => ?_) rest
  rw [Value.memberText, List.append_assoc]
  exact hitem x hx rest

end Json

end Phrasebook
