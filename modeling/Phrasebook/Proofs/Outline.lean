import Phrasebook.Json.Document
import Phrasebook.Proofs.Grammar

/-!
# Texts That Write Documents

What a JSON text is, whatever a reader makes of it. A document may be nested to any
depth, a numeral may be of any size, and a numeric escape need not have its partner;
a reader refuses some of these, so what holds of every document cannot be said with
one. `Outlines` says it of a text and a tree. The members of the tree have to be those
of the text, with the spelling and the place of each name; what strings and numbers
stand for is left open, as is what else is asked of a name.

The reader of documents is sound. Whatever it takes is written as the grammar has it,
and the names that it finds mean what it gives for them (`outlines_of_parse`). Each of
the smaller readers is sound in the same sense, and a reader of lists is so if that of
its items is.

## Main definitions

* `Spelling`: What may stand between the quotes of a string.
* `Numeral.Spells`: How a numeral is spelled.
* `Scalar`: A value without parts is written.
* `Name.Leads`, `Pair`: A name in quotes, and a member with its name.
* `Written`: A value is written, with a bound on its nesting.
* `Outlines`: A text is that of a document.
* `Name.WellSpelled`, `Name.Reads`: What may be asked of names.
* `Reader.Takes`, `Reader.Sound`: A reader takes only what is spelled or written.

## Theorems

* `Numeral.takes_read`: A numeral that is read is spelled as one.
* `Quoted.spells_of_read`: A string that is read is spelled as one.
* `Spells.exists_spelling`: The spelling of a string, whatever stands behind it.
* `leads_of_readName`: A name that is read stands in its quotes.
* `listed_of_readItems`, `listed_of_readMembers`: Arrays and objects that are read.
* `readTree_cases`: What can be read of a value.
* `sound_readTree`, `outlines_of_parse`: Values and documents that are read.
* `Outlines.imp`: Less may be asked of the names.
-/

namespace Phrasebook

namespace Json

/-- What may stand between the quotes of a string: no quote, no control and no
    backslash, unless it is that of an escape. -/
inductive Spelling : List Char → Prop where
  | nil : Spelling []
  | plain {c : Char} {s : List Char} : c ≠ '"' → c ≠ '\\' → ¬ c < ' ' → Spelling s →
      Spelling (c :: s)
  | letter {e c : Char} {s : List Char} : Quoted.letterEscape? e = some c → Spelling s →
      Spelling ('\\' :: e :: s)
  | unit {a b c d : Char} {n : Nat} {s : List Char} : hexValue? a b c d = some n → Spelling s →
      Spelling ('\\' :: 'u' :: a :: b :: c :: d :: s)

namespace Numeral

/-- Digits are spelled, at least one. -/
structure SpellsDigits (spelled : List Char) (digits : List Nat) : Prop where
  each : spelled.map digit? = digits.map some
  nonempty : digits ≠ []

/-- The digits behind a point are spelled, or there is no point. -/
inductive SpellsFraction : List Char → List Nat → Prop where
  | none : SpellsFraction [] []
  | point {spelled : List Char} {digits : List Nat} : SpellsDigits spelled digits →
      SpellsFraction ('.' :: spelled) digits

/-- An exponent is spelled, or there is none. -/
inductive SpellsExponent : List Char → Option Exponent → Prop where
  | none : SpellsExponent [] none
  | bare {mark : Char} {spelled : List Char} {digits : List Nat} : mark = 'e' ∨ mark = 'E' →
      SpellsDigits spelled digits → SpellsExponent (mark :: spelled) (some ⟨false, digits⟩)
  | plus {mark : Char} {spelled : List Char} {digits : List Nat} : mark = 'e' ∨ mark = 'E' →
      SpellsDigits spelled digits → SpellsExponent (mark :: '+' :: spelled) (some ⟨false, digits⟩)
  | minus {mark : Char} {spelled : List Char} {digits : List Nat} : mark = 'e' ∨ mark = 'E' →
      SpellsDigits spelled digits → SpellsExponent (mark :: '-' :: spelled) (some ⟨true, digits⟩)

/-- The sign of a numeral, which is never a plus. -/
def sign (negative : Bool) : List Char := if negative then ['-'] else []

/-- A numeral is spelled. Its whole part has no zero in front of other digits. -/
inductive Spells : List Char → Numeral → Prop where
  | mk {whole fraction exponent : List Char} {n : Numeral} : SpellsDigits whole n.whole →
      (n.whole.head? = some 0 → n.whole = [0]) → SpellsFraction fraction n.fraction →
      SpellsExponent exponent n.exponent →
      Spells (sign n.negative ++ whole ++ fraction ++ exponent) n

end Numeral

/-- A value without parts is written. What numbers and strings stand for is left open. -/
inductive Scalar : List Char → Tree → List Char → Prop where
  | null {rest : List Char} : Scalar ('n' :: 'u' :: 'l' :: 'l' :: rest) .null rest
  | yes {rest : List Char} : Scalar ('t' :: 'r' :: 'u' :: 'e' :: rest) (.boolean true) rest
  | no {rest : List Char} :
      Scalar ('f' :: 'a' :: 'l' :: 's' :: 'e' :: rest) (.boolean false) rest
  | number {spelled rest : List Char} {n : Numeral} {value : Number} : n.Spells spelled →
      Scalar (spelled ++ rest) (.number value) rest
  | string {spelled rest : List Char} {text : String} : Spelling spelled →
      Scalar ('"' :: (spelled ++ '"' :: rest)) (.string text) rest

namespace Name

/-- A name stands at the front of a text, in its quotes, and knows how far that is from
    the end. -/
structure Leads (n : Name) (s rest : List Char) : Prop where
  split : s = '"' :: (n.spelling.toList ++ '"' :: rest)
  distance : n.distance = s.length

/-- The quotes around a name are those of one string. -/
def WellSpelled (n : Name) : Prop := Spelling n.spelling.toList

/-- A name is spelled as a string that stands for its text. -/
def Reads (n : Name) : Prop :=
  ∀ back, Spells (n.spelling.toList ++ '"' :: back) n.text.toList back

end Name

section Documents

variable {α : Type} (named : Name → Prop)

/-- A member is written: a name with its spelling and its place, a colon and a value. -/
def Pair (value : List Char → α → List Char → Prop) (s : List Char) (x : Name × α)
    (rest : List Char) : Prop :=
  ∃ t u front, x.1.Leads s t ∧ named x.1 ∧ Blanks t (':' :: u) ∧ Blanks u front ∧
    value front x.2 rest

/-- A value is written in which at most `depth` arrays and objects enclose one another. -/
def Written : (depth : Nat) → List Char → Tree → List Char → Prop
  | 0, s, tree, rest => Scalar s tree rest
  | depth + 1, s, tree, rest =>
    Scalar s tree rest ∨
    (∃ t items, s = '[' :: t ∧ tree = .array items ∧
      Listed ']' (Written depth) true t items rest) ∨
    ∃ t members, s = '\x7b' :: t ∧ tree = .object members ∧
      Listed '\x7d' (Pair named (Written depth)) true t members rest

/-- A text is that of a document: the tree has the members of its objects, in their order,
    and each name with its spelling and its place. -/
def Outlines (tree : Tree) (text : String) : Prop :=
  ∃ depth front rest, Blanks text.toList front ∧ Written named depth front tree rest ∧
    Blanks rest []

end Documents

/-- What a reader takes of a text spells what it gives. -/
def Reader.Takes {α : Type} (reader : Reader α) (spells : List Char → α → Prop) : Prop :=
  ∀ s x rest, reader s = .ok (x, rest) → ∃ spelled, s = spelled ++ rest ∧ spells spelled x

/-- What a reader takes is written, behind blanks. -/
def Reader.Sound {α : Type} (reader : Reader α) (written : List Char → α → List Char → Prop) :
    Prop :=
  ∀ s x rest, reader s = .ok (x, rest) → ∃ front, Blanks s front ∧ written front x rest

theorem Blanks.trans {s mid rest : List Char} (h : Blanks s mid) (hmid : Blanks mid rest) :
    Blanks s rest := by
  induction h with
  | none => exact hmid
  | cons hc _ ih => exact .cons hc (ih hmid)

/-- What is passed over is blank. -/
theorem blanks_skipSpace (s : List Char) : Blanks s (skipSpace s) := by
  induction s with
  | nil => exact .none
  | cons c cs ih =>
      unfold skipSpace at ih ⊢
      cases hc : isSpace c with
      | true =>
          rw [List.dropWhile_cons_of_pos hc]
          exact .cons hc ih
      | false =>
          rw [List.dropWhile_cons_of_neg (by rw [hc]; exact Bool.false_ne_true)]
          exact .none

theorem eq_append_of_readWord (letters s rest : List Char) (h : readWord letters s = .ok rest) :
    s = letters ++ rest := by
  induction letters generalizing s with
  | nil =>
      cases h
      rfl
  | cons letter letters ih =>
      cases s with
      | nil => cases h
      | cons c cs =>
          rw [readWord] at h
          by_cases hc : c = letter
          · rw [if_pos hc] at h
            rw [hc, ih cs h, List.cons_append]
          · rw [if_neg hc] at h
            cases h

namespace Numeral

theorem eq_append_readDigits (s : List Char) : ∃ spelled, s = spelled ++ (readDigits s).2 ∧
    spelled.map digit? = (readDigits s).1.map some := by
  induction s with
  | nil => exact ⟨[], rfl, rfl⟩
  | cons c cs ih =>
      rw [readDigits]
      cases hc : digit? c with
      | none => exact ⟨[], rfl, rfl⟩
      | some d =>
          rcases ih with ⟨spelled, hcs, hdigits⟩
          refine ⟨c :: spelled, ?_, ?_⟩
          · exact congrArg (c :: ·) hcs
          · rw [List.map_cons, List.map_cons, hc, hdigits]

theorem takes_readSomeDigits : Reader.Takes readSomeDigits SpellsDigits := by
  intro s digits rest h
  cases s with
  | nil => cases h
  | cons c cs =>
      rw [readSomeDigits] at h
      cases hc : digit? c with
      | none =>
          rw [hc] at h
          cases h
      | some d =>
          rw [hc] at h
          cases h
          rcases eq_append_readDigits cs with ⟨spelled, hcs, hdigits⟩
          refine ⟨c :: spelled, congrArg (c :: ·) hcs, ?_, List.cons_ne_nil _ _⟩
          rw [List.map_cons, List.map_cons, hc, hdigits]

theorem takes_readWhole : Reader.Takes readWhole (fun spelled digits =>
    SpellsDigits spelled digits ∧ (digits.head? = some 0 → digits = [0])) := by
  intro s digits rest h
  rcases (Fallible.bind_eq_ok_iff _ _ _).mp h with ⟨⟨found, left⟩, hread, h⟩
  rcases takes_readSomeDigits s found left hread with ⟨spelled, hs, hspelled⟩
  -- The digits are refused or kept, and nothing more is read.
  dsimp only at h
  split at h
  · cases h
  · next hzero =>
      cases h
      refine ⟨spelled, hs, hspelled, fun hhead => ?_⟩
      rcases List.head?_eq_some_iff.mp hhead with ⟨more, rfl⟩
      cases more with
      | nil => rfl
      | cons d ds => exact absurd rfl (hzero d ds)

theorem takes_readFraction : Reader.Takes readFraction SpellsFraction := by
  intro s digits rest h
  cases s with
  | nil =>
      cases h
      exact ⟨[], rfl, .none⟩
  | cons c cs =>
      rw [readFraction] at h
      by_cases hpoint : c = '.'
      · rw [if_pos hpoint] at h
        rcases takes_readSomeDigits cs digits rest h with ⟨spelled, hcs, hspelled⟩
        exact ⟨'.' :: spelled, by rw [hpoint, hcs, List.cons_append], .point hspelled⟩
      · rw [if_neg hpoint] at h
        cases h
        exact ⟨[], rfl, .none⟩

/-- The sign of an exponent is a plus, a minus or none. -/
theorem readSign_cases (s : List Char) : readSign s = (false, s) ∨
    (∃ cs, s = '+' :: cs ∧ readSign s = (false, cs)) ∨
      ∃ cs, s = '-' :: cs ∧ readSign s = (true, cs) := by
  cases s with
  | nil => exact Or.inl rfl
  | cons c cs =>
      rw [readSign]
      by_cases hminus : c = '-'
      · rw [if_pos hminus]
        exact Or.inr (Or.inr ⟨cs, by rw [hminus], rfl⟩)
      · rw [if_neg hminus]
        by_cases hplus : c = '+'
        · rw [if_pos hplus]
          exact Or.inr (Or.inl ⟨cs, by rw [hplus], rfl⟩)
        · rw [if_neg hplus]
          exact Or.inl rfl

theorem takes_readExponent : Reader.Takes readExponent SpellsExponent := by
  intro s exponent rest h
  cases s with
  | nil =>
      cases h
      exact ⟨[], rfl, .none⟩
  | cons c cs =>
      rw [readExponent] at h
      by_cases hmark : c = 'e' ∨ c = 'E'
      · rw [if_pos hmark] at h
        -- A sign may stand behind the letter, and digits must, whichever sign it is.
        rcases readSign_cases cs with hsign | ⟨ds, rfl, hsign⟩ | ⟨ds, rfl, hsign⟩
        all_goals
          rw [hsign] at h
          rcases (Fallible.bind_eq_ok_iff _ _ _).mp h with ⟨⟨digits, left⟩, hread, hkept⟩
          rcases takes_readSomeDigits _ digits left hread with ⟨spelled, rfl, hspelled⟩
          cases hkept
        · exact ⟨c :: spelled, rfl, .bare hmark hspelled⟩
        · exact ⟨c :: '+' :: spelled, rfl, .plus hmark hspelled⟩
        · exact ⟨c :: '-' :: spelled, rfl, .minus hmark hspelled⟩
      · rw [if_neg hmark] at h
        cases h
        exact ⟨[], rfl, .none⟩

theorem exists_append_of_readUnsigned (negative : Bool) (s rest : List Char) (n : Numeral)
    (h : readUnsigned negative s = .ok (n, rest)) :
    ∃ spelled, sign negative ++ s = spelled ++ rest ∧ n.Spells spelled := by
  rcases (Fallible.bind_eq_ok_iff _ _ _).mp h with ⟨⟨whole, behindWhole⟩, hwhole, h⟩
  rcases (Fallible.bind_eq_ok_iff _ _ _).mp h with ⟨⟨fraction, behindFraction⟩, hfraction, h⟩
  rcases (Fallible.bind_eq_ok_iff _ _ _).mp h with ⟨⟨exponent, left⟩, hexponent, h⟩
  cases h
  rcases takes_readWhole _ _ _ hwhole with ⟨wholeSpelled, rfl, hdigits, hzero⟩
  rcases takes_readFraction _ _ _ hfraction with ⟨fractionSpelled, rfl, hpoint⟩
  rcases takes_readExponent _ _ _ hexponent with ⟨exponentSpelled, rfl, hmark⟩
  refine ⟨_, ?_, .mk hdigits hzero hpoint hmark⟩
  simp only [List.append_assoc]

theorem takes_read : Reader.Takes read (fun spelled n => n.Spells spelled) := by
  intro s n rest h
  cases s with
  | nil => exact exists_append_of_readUnsigned false [] rest n h
  | cons c cs =>
      rw [read] at h
      by_cases hminus : c = '-'
      · rw [if_pos hminus] at h
        rw [hminus]
        exact exists_append_of_readUnsigned true cs rest n h
      · rw [if_neg hminus] at h
        exact exists_append_of_readUnsigned false (c :: cs) rest n h

theorem takes_readValue :
    Reader.Takes readValue (fun spelled _ => ∃ n : Numeral, n.Spells spelled) := by
  intro s number rest h
  rcases (Fallible.bind_eq_ok_iff _ _ _).mp h with ⟨⟨numeral, left⟩, hread, h⟩
  rcases takes_read s numeral left hread with ⟨spelled, hs, hspelled⟩
  dsimp only at h
  split at h
  · cases h
    exact ⟨spelled, hs, numeral, hspelled⟩
  · cases h

end Numeral

namespace Quoted

/-- The characters of an escape are passed over. -/
theorem readFrom_append (skipped s : List Char) :
    readFrom skipped.length (skipped ++ s) = readFrom 0 s := by
  induction skipped with
  | nil => rfl
  | cons c skipped ih => exact ih

/-- What is read of a unit are four digits. -/
theorem exists_of_unit (s : List Char) (n : Nat) (h : unit s = .ok n) :
    ∃ a b c d rest, s = a :: b :: c :: d :: rest ∧ hexValue? a b c d = some n := by
  unfold unit at h
  split at h
  · next a b c d rest =>
      cases hvalue : hexValue? a b c d with
      | none =>
          rw [hvalue] at h
          cases h
      | some value =>
          rw [hvalue] at h
          cases h
          exact ⟨a, b, c, d, rest, rfl, hvalue⟩
  · cases h

theorem exists_append_of_expectMark (mark s : List Char) (h : expectMark mark s = .ok ()) :
    ∃ rest, s = mark ++ rest := by
  induction mark generalizing s with
  | nil => exact ⟨s, rfl⟩
  | cons m mark ih =>
      cases s with
      | nil => cases h
      | cons c cs =>
          rw [expectMark] at h
          by_cases hc : c = m
          · rw [if_pos hc] at h
            rcases ih cs h with ⟨rest, rfl⟩
            exact ⟨rest, by rw [hc, List.cons_append]⟩
          · rw [if_neg hc] at h
            cases h

/-- A numeric escape that is read is passed over, and a string behind it is one with it. -/
theorem exists_append_of_numericEscape (s : List Char) (meant : Char) (width : Nat)
    (h : numericEscape s = .ok (meant, width)) : ∃ skipped behind, s = skipped ++ behind ∧
      skipped.length = width ∧ ∀ text rest, Spells behind text rest →
        Spells ('\\' :: 'u' :: s) (meant :: text) rest := by
  rcases (Fallible.bind_eq_ok_iff _ _ _).mp h with ⟨first, hfirst, h⟩
  rcases exists_of_unit s first hfirst with ⟨a, b, c, d, behind, rfl, hvalue⟩
  dsimp only at h
  cases hlow : isLowSurrogate first with
  | true =>
      rw [if_pos hlow] at h
      cases h
  | false =>
      rw [hlow, if_neg Bool.false_ne_true] at h
      cases hhigh : isHighSurrogate first with
      | false =>
          rw [hhigh, if_neg Bool.false_ne_true] at h
          cases h
          exact ⟨[a, b, c, d], behind, rfl, rfl, fun text rest => .unit hvalue hhigh hlow⟩
      | true =>
          -- The other half has to follow, with a mark of its own.
          rw [if_pos hhigh] at h
          rcases (Fallible.bind_eq_ok_iff _ _ _).mp h with ⟨⟨⟩, hmark, h⟩
          rcases exists_append_of_expectMark _ _ hmark with ⟨half, hhalf⟩
          have hbehind : behind = '\\' :: 'u' :: half := hhalf
          rcases (Fallible.bind_eq_ok_iff _ _ _).mp h with ⟨second, hsecond, h⟩
          rw [hhalf] at hsecond
          rcases exists_of_unit half second hsecond with ⟨a', b', c', d', further, rfl, hvalue'⟩
          cases hlow' : isLowSurrogate second with
          | false =>
              rw [hlow', if_neg Bool.false_ne_true] at h
              cases h
          | true =>
              rw [if_pos hlow'] at h
              rcases Prod.mk.inj (Except.ok.inj h) with ⟨rfl, rfl⟩
              rw [hbehind]
              exact ⟨[a, b, c, d, '\\', 'u', a', b', c', d'], further, rfl, rfl,
                fun text rest => .pair hvalue hhigh hvalue' hlow'⟩

/-- An escape that is read is passed over, and a string behind it is one with it. -/
theorem exists_append_of_escape (s : List Char) (meant : Char) (width : Nat)
    (h : escape s = .ok (meant, width)) : ∃ skipped behind, s = skipped ++ behind ∧
      skipped.length = width ∧ ∀ text rest, Spells behind text rest →
        Spells ('\\' :: s) (meant :: text) rest := by
  cases s with
  | nil => cases h
  | cons e s =>
      rw [escape] at h
      cases hletter : letterEscape? e with
      | some c =>
          rw [hletter] at h
          cases h
          exact ⟨[e], s, rfl, rfl, fun text rest => .letter hletter⟩
      | none =>
          rw [hletter] at h
          dsimp only at h
          -- What is no letter of its own is an escape by number, or nothing at all.
          by_cases hu : e = 'u'
          · rw [if_pos hu] at h
            rcases (Fallible.map_eq_ok_iff _ _ _).mp h with ⟨⟨found, inner⟩, hnumeric, heq⟩
            cases heq
            rcases exists_append_of_numericEscape s _ inner hnumeric with
              ⟨skipped, behind, rfl, rfl, hspells⟩
            rw [hu]
            exact ⟨'u' :: skipped, behind, rfl, rfl, hspells⟩
          · rw [if_neg hu] at h
            cases h

/-- A string that is read is spelled as one. -/
theorem spells_of_read (s text rest : List Char) (h : read s = .ok (text, rest)) :
    Spells s text rest := by
  unfold read at h
  -- An escape is passed over at once, so the induction is on the length of the text.
  induction hlength : s.length using Nat.strongRecOn generalizing s text with
  | _ n ih =>
      cases s with
      | nil => cases h
      | cons c cs =>
          rw [readFrom] at h
          by_cases hquote : c = '"'
          · rw [if_pos hquote] at h
            cases h
            rw [hquote]
            exact .close
          rw [if_neg hquote] at h
          by_cases hescape : c = '\\'
          · rw [if_pos hescape] at h
            rcases (Fallible.bind_eq_ok_iff _ _ _).mp h with ⟨⟨meant, width⟩, hmeant, h⟩
            rcases (Fallible.bind_eq_ok_iff _ _ _).mp h with ⟨⟨behind, left⟩, hread, h⟩
            cases h
            rcases exists_append_of_escape cs meant width hmeant with
              ⟨skipped, further, rfl, rfl, hspells⟩
            rw [readFrom_append] at hread
            rw [hescape]
            refine hspells _ _ (ih _ ?_ _ _ hread rfl)
            rw [← hlength, List.length_cons, List.length_append]
            omega
          rw [if_neg hescape] at h
          by_cases hcontrol : c < ' '
          · rw [if_pos hcontrol] at h
            cases h
          rw [if_neg hcontrol] at h
          rcases (Fallible.bind_eq_ok_iff _ _ _).mp h with ⟨⟨behind, left⟩, hread, h⟩
          cases h
          refine .plain hquote hescape hcontrol (ih cs.length ?_ _ _ hread rfl)
          rw [← hlength, List.length_cons]
          exact Nat.lt_succ_self _

end Quoted

/-- A string is spelled by what stands in front of its closing quote, whatever stands
    behind it. -/
theorem Spells.exists_spelling {s text rest : List Char} (h : Spells s text rest) :
    ∃ spelled, s = spelled ++ '"' :: rest ∧ Spelling spelled ∧
      ∀ back, Spells (spelled ++ '"' :: back) text back := by
  induction h with
  | close => exact ⟨[], rfl, .nil, fun back => .close⟩
  | @plain c s text rest hquote hescape hcontrol _ ih =>
      rcases ih with ⟨spelled, rfl, hspelling, hback⟩
      exact ⟨c :: spelled, rfl, .plain hquote hescape hcontrol hspelling,
        fun back => .plain hquote hescape hcontrol (hback back)⟩
  | @letter e c s text rest hletter _ ih =>
      rcases ih with ⟨spelled, rfl, hspelling, hback⟩
      exact ⟨'\\' :: e :: spelled, rfl, .letter hletter hspelling,
        fun back => .letter hletter (hback back)⟩
  | @unit a b c d n s text rest hvalue hhigh hlow _ ih =>
      rcases ih with ⟨spelled, rfl, hspelling, hback⟩
      exact ⟨'\\' :: 'u' :: a :: b :: c :: d :: spelled, rfl, .unit hvalue hspelling,
        fun back => .unit hvalue hhigh hlow (hback back)⟩
  -- Two escapes are one character, but each of them is spelled like one alone.
  | @pair a b c d a' b' c' d' high low s text rest hvalue hhigh hvalue' hlow _ ih =>
      rcases ih with ⟨spelled, rfl, hspelling, hback⟩
      exact ⟨'\\' :: 'u' :: a :: b :: c :: d :: '\\' :: 'u' :: a' :: b' :: c' :: d' :: spelled, rfl,
        .unit hvalue (.unit hvalue' hspelling),
        fun back => .pair hvalue hhigh hvalue' hlow (hback back)⟩

theorem Name.Reads.wellSpelled {n : Name} (h : n.Reads) : n.WellSpelled := by
  rcases (h []).exists_spelling with ⟨spelled, hsplit, hspelling, -⟩
  unfold WellSpelled
  rw [List.append_cancel_right hsplit]
  exact hspelling

/-- A name that is read stands in its quotes, and reads as it should. -/
theorem leads_of_readName (cs rest : List Char) (name : Name)
    (h : readName ('"' :: cs) = .ok (name, rest)) : name.Leads ('"' :: cs) rest ∧ name.Reads := by
  rcases (Fallible.bind_eq_ok_iff _ _ _).mp h with ⟨⟨text, left⟩, hread, h⟩
  rw [List.drop_one, List.tail_cons] at hread h
  rcases (Quoted.spells_of_read cs text left hread).exists_spelling with ⟨spelled, hcs, -, hback⟩
  -- The spelling is cut off by its length, and that is the length of what was read.
  have hspelling : cs.take (cs.length - left.length - 1) = spelled := by
    have hlength : cs.length - left.length - 1 = spelled.length := by
      rw [hcs, List.length_append, List.length_cons]
      omega
    rw [hlength, hcs, List.take_left]
  dsimp only at h
  rw [hspelling] at h
  cases h
  refine ⟨⟨?_, rfl⟩, fun back => ?_⟩
  · rw [String.toList_ofList, ← hcs]
  · rw [String.toList_ofList, String.toList_ofList]
    exact hback back

/-- What stands in front of an item: blanks, and a comma if it is not the first. -/
def Approaches (first : Bool) (s front : List Char) : Prop :=
  if first then Blanks s front else ∃ t, Blanks s (',' :: t) ∧ Blanks t front

section Lists

variable {α : Type} {close : Char} {first : Bool} {s front back : List Char}

theorem Approaches.trans (h : Approaches first s front) (hblanks : Blanks front back) :
    Approaches first s back := by
  cases first with
  | true => exact Blanks.trans h hblanks
  | false =>
      rcases h with ⟨t, hcomma, ht⟩
      exact ⟨t, hcomma, ht.trans hblanks⟩

/-- An item in front of others that are written is written with them. -/
theorem Listed.cons {item : List Char → α → List Char → Prop} {behind rest : List Char} {x : α}
    {xs : List α} (h : Approaches first s front) (hx : item front x behind)
    (hxs : Listed close item false behind xs rest) : Listed close item first s (x :: xs) rest := by
  cases first with
  | true => exact .first h hx hxs
  | false =>
      rcases h with ⟨t, hcomma, ht⟩
      exact .next hcomma ht hx hxs

/-- Items are written whatever else is said of them. -/
theorem Listed.imp {item item' : List Char → α → List Char → Prop} {rest : List Char}
    {xs : List α} (h : Listed close item first s xs rest)
    (hitem : ∀ s x rest, item s x rest → item' s x rest) :
    Listed close item' first s xs rest := by
  induction h with
  | close hblanks => exact .close hblanks
  | first hblanks hx _ ih => exact .first hblanks (hitem _ _ _ hx) ih
  | next hcomma hblanks hx _ ih => exact .next hcomma hblanks (hitem _ _ _ hx) ih

end Lists

/-- What stands at the next item of an array. -/
theorem nextItem_cases (first : Bool) (s : List Char) (next : Option (List Char))
    (h : nextItem first s = .ok next) :
    (next = none ∧ Blanks s (']' :: behindClosing s)) ∨
      ∃ front, next = some front ∧ Approaches first s front := by
  have hspace := blanks_skipSpace s
  unfold nextItem at h
  unfold behindClosing
  cases hs : skipSpace s with
  | nil =>
      rw [hs] at h
      cases h
  | cons c cs =>
      rw [hs] at h hspace
      dsimp only at h
      by_cases hclose : c = ']'
      · rw [if_pos hclose] at h
        cases h
        rw [hclose] at hspace
        exact Or.inl ⟨rfl, hspace⟩
      rw [if_neg hclose] at h
      -- In front of the first item nothing stands; in front of any other a comma does.
      cases first with
      | true =>
          cases h
          exact Or.inr ⟨_, rfl, hspace⟩
      | false =>
          rw [if_neg Bool.false_ne_true] at h
          by_cases hcomma : c = ','
          · rw [if_pos hcomma] at h
            rw [hcomma] at hspace
            have hbehind := blanks_skipSpace cs
            cases hcs : skipSpace cs with
            | nil =>
                rw [hcs] at h hbehind
                cases h
                exact Or.inr ⟨_, rfl, cs, hspace, hbehind⟩
            | cons d ds =>
                rw [hcs] at h hbehind
                dsimp only at h
                -- Behind a comma the list may not end.
                by_cases hclose' : d = ']'
                · rw [if_pos hclose'] at h
                  cases h
                · rw [if_neg hclose'] at h
                  cases h
                  exact Or.inr ⟨_, rfl, cs, hspace, hbehind⟩
          · rw [if_neg hcomma] at h
            cases h

/-- What stands at the next name of an object. -/
theorem nextName_cases (first : Bool) (s : List Char) (next : Option (List Char))
    (h : nextName first s = .ok next) :
    (next = none ∧ Blanks s ('\x7d' :: behindClosing s)) ∨
      ∃ cs, next = some ('"' :: cs) ∧ Approaches first s ('"' :: cs) := by
  have hspace := blanks_skipSpace s
  unfold nextName at h
  unfold behindClosing
  cases hs : skipSpace s with
  | nil =>
      rw [hs] at h
      cases h
  | cons c cs =>
      rw [hs] at h hspace
      dsimp only at h
      by_cases hclose : c = '\x7d'
      · rw [if_pos hclose] at h
        cases h
        rw [hclose] at hspace
        exact Or.inl ⟨rfl, hspace⟩
      rw [if_neg hclose] at h
      -- As for items, but what is found has to be the quote of a name.
      cases first with
      | true =>
          rw [if_pos rfl] at h
          by_cases hquote : c = '"'
          · rw [if_pos hquote, hquote] at h
            cases h
            rw [hquote] at hspace
            exact Or.inr ⟨cs, rfl, hspace⟩
          · rw [if_neg hquote] at h
            cases h
      | false =>
          rw [if_neg Bool.false_ne_true] at h
          by_cases hcomma : c = ','
          · rw [if_pos hcomma] at h
            rw [hcomma] at hspace
            have hbehind := blanks_skipSpace cs
            cases hcs : skipSpace cs with
            | nil =>
                rw [hcs] at h
                cases h
            | cons d ds =>
                rw [hcs] at h hbehind
                dsimp only at h
                by_cases hquote : d = '"'
                · rw [if_pos hquote, hquote] at h
                  cases h
                  rw [hquote] at hbehind
                  exact Or.inr ⟨ds, rfl, cs, hspace, hbehind⟩
                · rw [if_neg hquote] at h
                  by_cases hclose' : d = '\x7d'
                  · rw [if_pos hclose'] at h
                    cases h
                  · rw [if_neg hclose'] at h
                    cases h
          · rw [if_neg hcomma] at h
            cases h

theorem blanks_of_readColon (s rest : List Char) (h : readColon s = .ok rest) :
    Blanks s (':' :: rest) := by
  have hspace := blanks_skipSpace s
  unfold readColon at h
  cases hs : skipSpace s with
  | nil =>
      rw [hs] at h
      cases h
  | cons c cs =>
      rw [hs] at h hspace
      dsimp only at h
      by_cases hcolon : c = ':'
      · rw [if_pos hcolon] at h
        cases h
        rwa [hcolon] at hspace
      · rw [if_neg hcolon] at h
        cases h

section Readers

variable {α : Type} (reader : Reader α) (written : List Char → α → List Char → Prop)
  (hsound : reader.Sound written)

include hsound

/-- The items of an array that are read are written. -/
theorem listed_of_readItems (s rest : List Char) (xs : List α)
    (h : readItems reader s = .ok (xs, rest)) : Listed ']' written true s xs rest := by
  have hfrom : ∀ rounds first s xs, readItemsFrom reader rounds first s = .ok (xs, rest) →
      Listed ']' written first s xs rest := by
    -- The induction is on the rounds; what they start from is found behind each item.
    intro rounds
    induction rounds with
    | zero =>
        intro first s xs h
        cases h
    | succ rounds ih =>
        intro first s xs h
        rcases (Fallible.bind_eq_ok_iff _ _ _).mp h with ⟨next, hnext, h⟩
        rcases nextItem_cases first s next hnext with ⟨rfl, hclose⟩ | ⟨front, rfl, hfront⟩
        · cases h
          exact .close hclose
        · rcases (Fallible.bind_eq_ok_iff _ _ _).mp h with ⟨⟨x, behind⟩, hx, h⟩
          rcases (Fallible.bind_eq_ok_iff _ _ _).mp h with ⟨⟨others, left⟩, hothers, h⟩
          cases h
          rcases hsound front x behind hx with ⟨value, hblanks, hwritten⟩
          exact .cons (hfront.trans hblanks) hwritten (ih false behind others hothers)
  exact hfrom (s.length + 1) true s xs h

/-- The members of an object that are read are written. -/
theorem listed_of_readMembers (s rest : List Char) (members : List (Name × α))
    (h : readMembers reader s = .ok (members, rest)) :
    Listed '\x7d' (Pair Name.Reads written) true s members rest := by
  have hfrom : ∀ rounds first s members,
      readMembersFrom reader rounds first s = .ok (members, rest) →
        Listed '\x7d' (Pair Name.Reads written) first s members rest := by
    -- The induction is on the rounds, of which each reads one member; the list may start
    -- anywhere in them.
    intro rounds
    induction rounds with
    | zero =>
        intro first s members h
        cases h
    | succ rounds ih =>
        intro first s members h
        rcases (Fallible.bind_eq_ok_iff _ _ _).mp h with ⟨next, hnext, h⟩
        rcases nextName_cases first s next hnext with ⟨rfl, hclose⟩ | ⟨cs, rfl, hfront⟩
        · cases h
          exact .close hclose
        · rcases (Fallible.bind_eq_ok_iff _ _ _).mp h with ⟨⟨name, behindName⟩, hname, h⟩
          rcases (Fallible.bind_eq_ok_iff _ _ _).mp h with ⟨behindColon, hcolon, h⟩
          rcases (Fallible.bind_eq_ok_iff _ _ _).mp h with ⟨⟨x, behind⟩, hx, h⟩
          rcases (Fallible.bind_eq_ok_iff _ _ _).mp h with ⟨⟨others, left⟩, hothers, h⟩
          cases h
          -- What is read leads from one place to the next: name, colon, value, other members.
          rcases leads_of_readName cs behindName name hname with ⟨hleads, hreads⟩
          rcases hsound behindColon x behind hx with ⟨front, hblanks, hwritten⟩
          exact .cons hfront ⟨behindName, behindColon, front, hleads, hreads,
            blanks_of_readColon _ _ hcolon, hblanks, hwritten⟩ (ih false behind others hothers)
  exact hfrom (s.length + 1) true s members h

end Readers

/-- A word that is read is written. -/
theorem scalar_of_readWord (c : Char) (letters cs rest : List Char) (word tree : Tree)
    (hword : ∀ rest, Scalar (c :: letters ++ rest) word rest)
    (h : (readWord letters cs >>= fun left => pure (word, left)) = .ok (tree, rest)) :
    Scalar (c :: cs) tree rest := by
  rcases (Fallible.bind_eq_ok_iff _ _ _).mp h with ⟨left, hleft, heq⟩
  cases heq
  rw [eq_append_of_readWord letters cs rest hleft]
  exact hword rest

/-- What is read of a value: one without parts, an array, or an object. -/
theorem readTree_cases (depth : Nat) (s : List Char) (tree : Tree) (rest : List Char)
    (h : readTree depth s = .ok (tree, rest)) :
    Scalar (skipSpace s) tree rest ∨
    (∃ inner items cs, depth = inner + 1 ∧ skipSpace s = '[' :: cs ∧ tree = .array items ∧
      readItems (readTree inner) cs = .ok (items, rest)) ∨
    ∃ inner members cs, depth = inner + 1 ∧ skipSpace s = '\x7b' :: cs ∧ tree = .object members ∧
      readMembers (readTree inner) cs = .ok (members, rest) := by
  unfold readTree at h
  dsimp only at h
  -- The first character decides, and the cases are in the order in which it is looked at.
  cases hs : skipSpace s with
  | nil =>
      rw [hs] at h
      cases h
  | cons c cs =>
      rw [hs] at h
      dsimp only at h
      by_cases hnull : c = 'n'
      · rw [if_pos hnull] at h
        exact Or.inl (scalar_of_readWord c _ cs rest _ tree (hnull ▸ fun rest => .null) h)
      rw [if_neg hnull] at h
      by_cases htrue : c = 't'
      · rw [if_pos htrue] at h
        exact Or.inl (scalar_of_readWord c _ cs rest _ tree (htrue ▸ fun rest => .yes) h)
      rw [if_neg htrue] at h
      by_cases hfalse : c = 'f'
      · rw [if_pos hfalse] at h
        exact Or.inl (scalar_of_readWord c _ cs rest _ tree (hfalse ▸ fun rest => .no) h)
      rw [if_neg hfalse] at h
      by_cases hnumber : c = '-' ∨ (Numeral.digit? c).isSome = true
      · rw [if_pos hnumber] at h
        rcases (Fallible.bind_eq_ok_iff _ _ _).mp h with ⟨⟨number, left⟩, hread, h⟩
        cases h
        rcases Numeral.takes_readValue _ _ _ hread with ⟨spelled, hspelled, n, hn⟩
        rw [hspelled]
        exact Or.inl (.number hn)
      rw [if_neg hnumber] at h
      by_cases hquote : c = '"'
      · rw [if_pos hquote] at h
        rcases (Fallible.bind_eq_ok_iff _ _ _).mp h with ⟨⟨text, left⟩, hread, h⟩
        cases h
        rcases (Quoted.spells_of_read _ _ _ hread).exists_spelling with ⟨spelled, rfl, hspelling, -⟩
        rw [hquote]
        exact Or.inl (.string hspelling)
      rw [if_neg hquote] at h
      by_cases hbracket : c = '['
      · rw [if_pos hbracket] at h
        cases depth with
        | zero => cases h
        | succ inner =>
            rcases (Fallible.bind_eq_ok_iff _ _ _).mp h with ⟨⟨items, left⟩, hread, h⟩
            cases h
            exact Or.inr (Or.inl ⟨inner, items, cs, rfl, by rw [hbracket], rfl, hread⟩)
      rw [if_neg hbracket] at h
      by_cases hbrace : c = '\x7b'
      · rw [if_pos hbrace] at h
        cases depth with
        | zero => cases h
        | succ inner =>
            rcases (Fallible.bind_eq_ok_iff _ _ _).mp h with ⟨⟨members, left⟩, hread, h⟩
            cases h
            exact Or.inr (Or.inr ⟨inner, members, cs, rfl, by rw [hbrace], rfl, hread⟩)
      rw [if_neg hbrace] at h
      cases h

/-- A value that is read is written. -/
theorem sound_readTree (depth : Nat) :
    Reader.Sound (readTree depth) (Written Name.Reads depth) := by
  induction depth with
  -- The induction is on the depth that is left, which items and members have one less of.
  | zero =>
      intro s tree rest h
      refine ⟨skipSpace s, blanks_skipSpace s, ?_⟩
      rcases readTree_cases 0 s tree rest h with hscalar | ⟨_, _, _, hdepth, _⟩ |
        ⟨_, _, _, hdepth, _⟩
      · exact hscalar
      · cases hdepth
      · cases hdepth
  | succ depth ih =>
      intro s tree rest h
      refine ⟨skipSpace s, blanks_skipSpace s, ?_⟩
      rcases readTree_cases (depth + 1) s tree rest h with hscalar |
        ⟨inner, items, cs, hdepth, hs, rfl, hread⟩ | ⟨inner, members, cs, hdepth, hs, rfl, hread⟩
      · exact Or.inl hscalar
      · rw [← Nat.succ.inj hdepth] at hread
        exact Or.inr (Or.inl ⟨cs, items, hs, rfl, listed_of_readItems _ _ ih cs rest items hread⟩)
      · rw [← Nat.succ.inj hdepth] at hread
        exact Or.inr (Or.inr ⟨cs, members, hs, rfl,
          listed_of_readMembers _ _ ih cs rest members hread⟩)

/-- A document that is read is written, and its names mean what is read of them. -/
theorem outlines_of_parse (text : String) (tree : Tree) (h : parse text = .ok tree) :
    Outlines Name.Reads tree text := by
  unfold parse readWhole at h
  dsimp only at h
  cases hread : readTree nestingLimit text.toList with
  | error fault =>
      rw [hread] at h
      cases h
  | ok result =>
      rw [hread] at h
      dsimp only at h
      -- Only blanks may be left behind the value.
      cases hspace : skipSpace result.2 with
      | cons c cs =>
          rw [hspace] at h
          cases h
      | nil =>
          rw [hspace] at h
          cases h
          rcases sound_readTree nestingLimit text.toList _ _ hread with ⟨front, hblanks, hwritten⟩
          exact ⟨nestingLimit, front, result.2, hblanks, hwritten,
            hspace ▸ blanks_skipSpace result.2⟩

section Names

variable {named named' : Name → Prop} (hnamed : ∀ n, named n → named' n)

include hnamed

/-- A value is written whatever else is said of its names. -/
theorem Written.imp (depth : Nat) (s : List Char) (tree : Tree) (rest : List Char)
    (h : Written named depth s tree rest) : Written named' depth s tree rest := by
  -- Items and the values of members are written with a lesser depth.
  induction depth generalizing s tree rest with
  | zero => exact h
  | succ depth ih =>
      rcases h with hscalar | ⟨t, items, hs, htree, hitems⟩ | ⟨t, members, hs, htree, hmembers⟩
      · exact Or.inl hscalar
      · exact Or.inr (Or.inl ⟨t, items, hs, htree, hitems.imp ih⟩)
      · refine Or.inr (Or.inr ⟨t, members, hs, htree, hmembers.imp ?_⟩)
        rintro s ⟨name, value⟩ rest ⟨behindName, behindColon, front, hleads, hname, hbehind⟩
        exact ⟨behindName, behindColon, front, hleads, hnamed name hname, hbehind.1, hbehind.2.1,
          ih _ _ _ hbehind.2.2⟩

/-- Less may be asked of the names of a document. -/
theorem Outlines.imp {tree : Tree} {text : String} (h : Outlines named tree text) :
    Outlines named' tree text := by
  rcases h with ⟨depth, front, rest, hfront, hwritten, hrest⟩
  exact ⟨depth, front, rest, hfront, hwritten.imp hnamed depth front tree rest, hrest⟩

end Names

end Json

end Phrasebook
