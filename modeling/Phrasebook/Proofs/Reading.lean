import Mathlib.Data.List.Forall2
import Phrasebook.Placeholder.Reading
import Phrasebook.Proofs.Cutting
import Phrasebook.Proofs.Dict
import Phrasebook.Proofs.Fallible

/-!
# What Reading a Text Finds

Reading goes through the tokens of a text three times: once to resolve them, once
to build the phrase, and once to collect the table of arguments. That these belong
together is said by one list, of parts: each is a gap, the token behind it, and
the argument that the token names. The phrase, the table and the signature are
all read off that list, and its gaps and tokens are the one way to cut the text.

A phrase joins literals that meet, so in general it does not show how it was
built. Here it does, because between two gaps there is always a slot.
`Phrase.Separates` is what a phrase keeps on the way: a literal that is added
stays a piece of its own.

The table has the tokens as keys, the signature the variables. Two tokens may have
one variable, if they give it one type. Reading compares each type only with the
latest of the same variable. That is enough: a step without a conflict forgets no
type that was known, so `conflict?_eq_none` follows by induction.

## Main definitions

* `Token.typeIdentifier`: The identifier of the type of a token.
* `Part`: A gap, a token and its argument.
* `Piece.ofGap`, `Part.pieces`: The pieces that a gap and a part become.
* `Phrase.Separates`: Literals that are added to a phrase stay apart.

## Theorems

* `Reading.pieces_phraseOf`: The pieces of a phrase that is built from gaps and
  arguments.
* `Reading.exists_known_of_conflict?_cons`: What one step of the search for
  conflicts keeps.
* `Reading.conflict?_eq_none`: Without a conflict each variable has one type.
* `Reading.ofText_eq_ok_iff`: What it takes to read a text.
* `Reading.parts_of_ofText`: The parts of a text that was read.
* `Reading.ofText_decomposes`: Phrase, arguments and signature of a text are those
  of the only way to cut it.
-/

namespace Phrasebook

/-- The identifier of the type of a token. A token without one, also one with
    nothing behind its colon, has the default type. -/
def Token.typeIdentifier (t : Token) : String :=
  (t.identifier?.map String.ofList).getD Argument.defaultType

/-- A gap of a text, the token behind it, and the argument that the token names. -/
structure Part where
  gap : List Char
  token : Token
  argument : Argument

/-- The pieces that a gap becomes: a literal, or none if it is empty. -/
def Piece.ofGap (gap : List Char) : List Piece :=
  if gap = [] then [] else [.literal (String.ofList gap)]

namespace Part

/-- A part as it stands in the cutting of a text. -/
def cut (p : Part) : List Char × Token := (p.gap, p.token)

/-- A token names an argument. -/
def Names (types : Dict CustomType) (t : Token) (a : Argument) : Prop :=
  Argument.resolve types (String.ofList t.name) t.typeIdentifier = .ok a

/-- The pieces that a part becomes. -/
def pieces (p : Part) : List Piece :=
  Piece.ofGap p.gap ++ [.slot (String.ofList p.token.name) p.argument.template]

end Part

theorem Argument.variableName_of_resolve (types : Dict CustomType) (name identifier : String)
    (a : Argument) (h : resolve types name identifier = .ok a) : a.variableName = name := by
  unfold resolve at h
  -- Custom type or native one, the name is put in as it is.
  cases hcustom : types.get? identifier with
  | some type =>
      rw [hcustom] at h
      cases h
      rfl
  | none =>
      rw [hcustom] at h
      by_cases hnative : identifier ∈ nativeTypes
      · simp only [if_pos hnative] at h
        cases h
        rfl
      · simp only [if_neg hnative] at h
        cases h

namespace Phrase

/-- A literal that is added to a phrase stays a piece of its own. -/
def Separates (p : Phrase) : Prop :=
  ∀ text, Piece.appendLiteral text p.pieces = p.pieces ++ [.literal text]

theorem separates_empty : empty.Separates := fun _ => rfl

theorem appendLiteral_append_slot (text name : String) (template : Template)
    (pieces : List Piece) :
    Piece.appendLiteral text (pieces ++ [.slot name template]) =
      pieces ++ [.slot name template] ++ [.literal text] := by
  induction pieces with
  | nil => rfl
  | cons piece pieces ih =>
      -- A literal in front is not the last piece, so it is passed over like a slot.
      have hpass : Piece.appendLiteral text (piece :: (pieces ++ [.slot name template])) =
          piece :: Piece.appendLiteral text (pieces ++ [.slot name template]) := by
        cases piece with
        | slot other template' => rfl
        | literal other =>
            cases pieces with
            | nil => rfl
            | cons next pieces => rfl
      rw [List.cons_append, hpass, ih]
      rfl

/-- Behind a slot literals stay apart. -/
theorem separates_addSlot (p : Phrase) (name : String) (template : Template) :
    (p.addSlot name template).Separates :=
  fun text => appendLiteral_append_slot text name template p.pieces

theorem pieces_addLiteral (p : Phrase) (hp : p.Separates) (gap : List Char) :
    (p.addLiteral (String.ofList gap)).pieces = p.pieces ++ Piece.ofGap gap := by
  unfold addLiteral Piece.ofGap
  by_cases hgap : gap = []
  · rw [if_pos hgap, hgap, List.append_nil]
    rfl
  · have hempty : (String.ofList gap).isEmpty = false := by
      rw [Bool.eq_false_iff]
      intro h
      have hlist := congrArg String.toList (String.isEmpty_iff.mp h)
      rw [String.toList_ofList] at hlist
      exact hgap hlist
    rw [if_neg hgap, hempty]
    exact hp (String.ofList gap)

end Phrase

namespace Reading

/-- Adding cuts one after another adds their pieces, and literals still stay
    apart behind them. -/
theorem pieces_foldl_addCut (cuts : List (List Char × Argument)) (p : Phrase)
    (hp : p.Separates) :
    (cuts.foldl (fun p (gap, argument) => addCut p gap argument) p).pieces =
        p.pieces ++ cuts.flatMap (fun cut =>
          Piece.ofGap cut.1 ++ [.slot cut.2.variableName cut.2.template]) ∧
      (cuts.foldl (fun p (gap, argument) => addCut p gap argument) p).Separates := by
  induction cuts generalizing p with
  | nil => exact ⟨(List.append_nil p.pieces).symm, hp⟩
  | cons cut cuts ih =>
      -- A slot ends each cut, so the gap of the next one joins no literal.
      have hnext : (addCut p cut.1 cut.2).Separates := Phrase.separates_addSlot _ _ _
      have hpieces : (addCut p cut.1 cut.2).pieces =
          p.pieces ++ (Piece.ofGap cut.1 ++ [.slot cut.2.variableName cut.2.template]) := by
        rw [← List.append_assoc, ← Phrase.pieces_addLiteral p hp]
        rfl
      rcases ih (addCut p cut.1 cut.2) hnext with ⟨hrest, hseparates⟩
      refine ⟨?_, hseparates⟩
      rw [List.foldl_cons, hrest, hpieces, List.flatMap_cons, List.append_assoc]

/-- The pieces of a phrase that is built from gaps and arguments. -/
theorem pieces_phraseOf (cuts : List (List Char × Argument)) (tail : List Char) :
    (phraseOf cuts tail).pieces =
      cuts.flatMap (fun cut =>
        Piece.ofGap cut.1 ++ [.slot cut.2.variableName cut.2.template]) ++ Piece.ofGap tail := by
  rcases pieces_foldl_addCut cuts .empty Phrase.separates_empty with ⟨hpieces, hseparates⟩
  unfold phraseOf
  rw [Phrase.pieces_addLiteral _ hseparates, hpieces]
  rfl

/-- One step without a conflict: from then on the type of the first argument is
    known, and what was known still is. -/
theorem exists_known_of_conflict?_cons (known : Dict String) (first : Argument)
    (arguments : List Argument) (h : conflict? known (first :: arguments) = none) :
    ∃ known', conflict? known' arguments = none ∧
      known'.get? first.variableName = some first.typeName ∧
      ∀ name type, known.get? name = some type → known'.get? name = some type := by
  rw [conflict?] at h
  -- A variable that is new is added with its type; one that is known has to have it.
  cases hknown : known.get? first.variableName with
  | none =>
      rw [hknown] at h
      refine ⟨_, h, by rw [Dict.get?_insert, if_pos rfl], ?_⟩
      intro name type htype
      by_cases hname : name = first.variableName
      · rw [hname, hknown] at htype
        cases htype
      · rw [Dict.get?_insert, if_neg hname, htype]
  | some type =>
      rw [hknown] at h
      by_cases htype : type = first.typeName
      · simp only [if_pos htype] at h
        exact ⟨known, h, htype ▸ hknown, fun _ _ hget => hget⟩
      · simp only [if_neg htype] at h
        cases h

/-- Without a conflict the known types hold of the variables that follow, and each
    of these has one type. -/
theorem conflict?_eq_none (known : Dict String) (arguments : List Argument)
    (h : conflict? known arguments = none) :
    (∀ a ∈ arguments, ∀ type, known.get? a.variableName = some type → type = a.typeName) ∧
      ∀ a ∈ arguments, ∀ b ∈ arguments, a.variableName = b.variableName →
        a.typeName = b.typeName := by
  induction arguments generalizing known with
  | nil =>
      exact ⟨fun a ha => absurd ha List.not_mem_nil, fun a ha => absurd ha List.not_mem_nil⟩
  | cons first arguments ih =>
      rcases exists_known_of_conflict?_cons known first arguments h with
        ⟨known', hrest, hfirst, hkept⟩
      rcases ih known' hrest with ⟨hafter, hsame⟩
      have hagree : ∀ a ∈ arguments, first.variableName = a.variableName →
          first.typeName = a.typeName := by
        intro a ha hname
        exact hafter a ha first.typeName (hname ▸ hfirst)
      constructor
      · intro a ha type htype
        rcases List.mem_cons.mp ha with rfl | hin
        · have hkept := hkept _ type htype
          rw [hfirst] at hkept
          exact (Option.some.inj hkept).symm
        · exact hafter a hin type (hkept _ type htype)
      · -- Two arguments of the rest agree by induction, the first agrees with each.
        intro a ha b hb hname
        rcases List.mem_cons.mp ha with rfl | hin
        · rcases List.mem_cons.mp hb with rfl | hin'
          · rfl
          · exact hagree b hin' hname
        · rcases List.mem_cons.mp hb with rfl | hin'
          · exact (hagree a hin hname.symm).symm
          · exact hsame a hin b hin' hname

/-- The table of arguments: each by the spelling of its token. -/
def tableOf (parts : List Part) : Dict Argument :=
  Dict.ofList (parts.map (fun p => (String.ofList p.token.spelling, p.argument)))

/-- Reading succeeds exactly if no token is wrapped, each names an argument, no two
    are spelled alike and there is no conflict of types. -/
theorem ofText_eq_ok_iff (types : Dict CustomType) (text : String) (r : Reading) :
    ofText types text = .ok r ↔ ∃ arguments,
      (Cutting.ofChars text.toList).occurrences.mapM (argumentOf types text) = .ok arguments ∧
      r.arguments = Dict.ofList (((Cutting.ofChars text.toList).cuts.map
        (fun cut => String.ofList cut.2.spelling)).zip arguments) ∧
      r.arguments.size = arguments.length ∧ conflict? .empty r.arguments.values = none ∧
      r.phrase = phraseOf (((Cutting.ofChars text.toList).cuts.map Prod.fst).zip arguments)
        (Cutting.ofChars text.toList).tail := by
  unfold ofText
  rw [Fallible.bind_eq_ok_iff]
  refine exists_congr (fun arguments => and_congr_right (fun _ => ?_))
  rcases r with ⟨table, phrase⟩
  simp only [ne_eq, ite_not]
  generalize Dict.ofList (((Cutting.ofChars text.toList).cuts.map
    (fun cut => String.ofList cut.2.spelling)).zip arguments) = made
  -- Two more things can fail: a token may be repeated, and a variable have two types.
  by_cases hsize : made.size = arguments.length
  · rw [if_pos hsize]
    cases hconflict : conflict? .empty made.values with
    | none =>
        simp only [Except.ok.injEq, Reading.mk.injEq]
        constructor
        · rintro ⟨rfl, rfl⟩
          exact ⟨rfl, hsize, hconflict, rfl⟩
        · rintro ⟨rfl, -, -, hphrase⟩
          exact ⟨rfl, hphrase.symm⟩
    | some conflict =>
        constructor
        · intro h
          cases h
        · rintro ⟨rfl, -, hnone, -⟩
          rw [hconflict] at hnone
          cases hnone
  · rw [if_neg hsize]
    constructor
    · intro h
      cases h
    · rintro ⟨rfl, hsize', -, -⟩
      exact absurd hsize' hsize

/-- Tokens and the arguments that they name make parts, with the gaps in front. -/
theorem exists_parts (types : Dict CustomType) (cuts : List (List Char × Token))
    (arguments : List Argument)
    (h : List.Forall₂ (Part.Names types) (cuts.map Prod.snd) arguments) :
    ∃ parts : List Part, parts.map Part.cut = cuts ∧ parts.map Part.argument = arguments ∧
      ∀ p ∈ parts, Part.Names types p.token p.argument := by
  induction cuts generalizing arguments with
  | nil =>
      rw [List.map_nil, List.forall₂_nil_left_iff] at h
      exact ⟨[], rfl, h.symm, fun p hp => absurd hp List.not_mem_nil⟩
  | cons cut cuts ih =>
      rcases List.forall₂_cons_left_iff.mp h with ⟨argument, rest, hnames, hrest, rfl⟩
      rcases ih rest hrest with ⟨parts, rfl, rfl, hall⟩
      refine ⟨⟨cut.1, cut.2, argument⟩ :: parts, rfl, rfl, ?_⟩
      intro p hp
      rcases List.mem_cons.mp hp with rfl | hp
      · exact hnames
      · exact hall p hp

/-- The parts of a text that was read: they cut it, each token names its argument,
    and phrase and arguments are made of them. -/
theorem parts_of_ofText (types : Dict CustomType) (text : String) (r : Reading)
    (h : ofText types text = .ok r) :
    ∃ (parts : List Part) (tail : List Char),
      Cutting.ofChars text.toList = ⟨parts.map Part.cut, tail⟩ ∧
      (∀ p ∈ parts, Part.Names types p.token p.argument) ∧
      r.phrase.pieces = parts.flatMap Part.pieces ++ Piece.ofGap tail ∧
      r.arguments = tableOf parts ∧ r.arguments.size = parts.length ∧
      conflict? .empty r.arguments.values = none := by
  rcases (ofText_eq_ok_iff types text r).mp h with
    ⟨arguments, harguments, htable, hsize, hconflict, hphrase⟩
  have hnames : List.Forall₂ (Part.Names types)
      ((Cutting.ofChars text.toList).cuts.map Prod.snd) arguments := by
    rw [← Cutting.tokens_occurrences, List.forall₂_map_left_iff]
    refine ((Fallible.mapM_eq_ok_iff _ _ _).mp harguments).imp ?_
    intro occurrence argument hargument
    rw [argumentOf] at hargument
    by_cases hwrapped : occurrence.isWrapped = true
    · rw [if_pos hwrapped] at hargument
      cases hargument
    · rw [if_neg hwrapped] at hargument
      exact hargument
  rcases exists_parts types _ arguments hnames with ⟨parts, hcuts, rfl, hall⟩
  refine ⟨parts, (Cutting.ofChars text.toList).tail, by rw [hcuts], hall, ?_, ?_, ?_, hconflict⟩
  · -- The variable of an argument is the name of its token.
    rw [hphrase, pieces_phraseOf, ← hcuts, List.map_map, List.zip_map', List.flatMap_map]
    refine congrArg (· ++ _) (List.flatMap_congr (fun p hp => ?_))
    have hname := Argument.variableName_of_resolve types _ _ p.argument (hall p hp)
    unfold Part.pieces
    rw [← hname]
    rfl
  · rw [htable, ← hcuts, List.map_map, List.zip_map']
    rfl
  · rw [hsize, List.length_map]

/-- The tokens of a text are those of the parts that cut it. -/
theorem tokensOf_eq (text : String) (parts : List Part) (tail : List Char)
    (h : Cutting.ofChars text.toList = ⟨parts.map Part.cut, tail⟩) :
    tokensOf text = parts.map Part.token := by
  unfold tokensOf
  rw [h, List.map_map]
  rfl

/-- The table has exactly the spellings of the tokens as keys, with their arguments. -/
theorem get?_tableOf (parts : List Part) (hsize : (tableOf parts).size = parts.length)
    (spelling : String) (a : Argument) :
    (tableOf parts).get? spelling = some a ↔
      ∃ p ∈ parts, String.ofList p.token.spelling = spelling ∧ p.argument = a := by
  unfold tableOf at hsize ⊢
  rw [Dict.get?_ofList_of_size _ (by rw [hsize, List.length_map]), List.mem_map]
  simp only [Prod.mk.injEq]

/-- The signature has exactly the variables of the tokens, with the types of their
    arguments. -/
theorem get?_signature_iff (types : Dict CustomType) (parts : List Part) (r : Reading)
    (hnames : ∀ p ∈ parts, Part.Names types p.token p.argument)
    (htable : r.arguments = tableOf parts) (hsize : r.arguments.size = parts.length)
    (hconflict : conflict? .empty r.arguments.values = none) (name type : String) :
    r.signature.get? name = some type ↔
      ∃ p ∈ parts, String.ofList p.token.name = name ∧ p.argument.typeName = type := by
  have hvalues : ∀ a, a ∈ r.arguments.values ↔ ∃ p ∈ parts, p.argument = a := by
    intro a
    unfold Dict.values
    rw [List.mem_map]
    constructor
    · rintro ⟨⟨spelling, a⟩, hmem, rfl⟩
      rw [Dict.mem_pairs_iff, htable, get?_tableOf parts (htable ▸ hsize)] at hmem
      rcases hmem with ⟨p, hp, -, hargument⟩
      exact ⟨p, hp, hargument⟩
    · rintro ⟨p, hp, rfl⟩
      refine ⟨(String.ofList p.token.spelling, p.argument), ?_, rfl⟩
      rw [Dict.mem_pairs_iff, htable, get?_tableOf parts (htable ▸ hsize)]
      exact ⟨p, hp, rfl, rfl⟩
  have hvariable : ∀ p ∈ parts, p.argument.variableName = String.ofList p.token.name :=
    fun p hp => Argument.variableName_of_resolve types _ _ p.argument (hnames p hp)
  unfold signature
  constructor
  · intro hget
    rcases List.mem_map.mp (Dict.mem_of_get?_ofList _ name type hget) with ⟨a, ha, heq⟩
    rcases Prod.mk.inj heq with ⟨rfl, rfl⟩
    rcases (hvalues a).mp ha with ⟨p, hp, rfl⟩
    exact ⟨p, hp, (hvariable p hp).symm, rfl⟩
  · rintro ⟨p, hp, rfl, rfl⟩
    have hmem := (hvalues p.argument).mpr ⟨p, hp, rfl⟩
    refine Dict.get?_ofList_of_forall _ _ _
      (List.mem_map.mpr ⟨p.argument, hmem, by rw [hvariable p hp]⟩) ?_
    -- Any other argument of the variable has the same type, or there is a conflict.
    intro other hother
    rcases List.mem_map.mp hother with ⟨a, ha, heq⟩
    rcases Prod.mk.inj heq with ⟨hname, rfl⟩
    exact (conflict?_eq_none .empty r.arguments.values hconflict).2 a ha p.argument hmem
      (hname.trans (hvariable p hp).symm)

/-- What was read is the only way to cut the text into tokens and gaps without
    tokens. The phrase consists of the gaps that are not empty and, for each token,
    a slot with its name and the template of the type that it names. The keys of
    the arguments are the spellings of the tokens, and the signature has the name
    of each with its type, and no others. -/
theorem ofText_decomposes (types : Dict CustomType) (text : String) (r : Reading)
    (h : ofText types text = .ok r) :
    ∃ (parts : List Part) (tail : List Char),
      (∀ c : Cutting, c.Decomposes text.toList ↔ c = ⟨parts.map Part.cut, tail⟩) ∧
      (∀ p ∈ parts, Argument.resolve types (String.ofList p.token.name) p.token.typeIdentifier =
        .ok p.argument) ∧
      r.phrase.pieces = parts.flatMap Part.pieces ++ Piece.ofGap tail ∧
      r.arguments.keys.Perm (parts.map (fun p => String.ofList p.token.spelling)) ∧
      (∀ p ∈ parts, r.arguments.get? (String.ofList p.token.spelling) = some p.argument) ∧
      ∀ name type, r.signature.get? name = some type ↔
        ∃ p ∈ parts, String.ofList p.token.name = name ∧ p.argument.typeName = type := by
  rcases parts_of_ofText types text r h with
    ⟨parts, tail, hcutting, hnames, hpieces, htable, hsize, hconflict⟩
  refine ⟨parts, tail, ?_, hnames, hpieces, ?_, ?_,
    get?_signature_iff types parts r hnames htable hsize hconflict⟩
  · intro c
    rw [← hcutting]
    exact Cutting.decomposes_iff text.toList c
  -- As many entries as tokens means that no token was repeated.
  · have hperm := Dict.perm_keys_of_size_ofList
      (parts.map (fun p => (String.ofList p.token.spelling, p.argument)))
      (by rw [List.length_map, ← hsize, htable]; rfl)
    rw [List.map_map] at hperm
    rw [htable]
    exact hperm
  · intro p hp
    rw [htable]
    exact (get?_tableOf parts (htable ▸ hsize) _ _).mpr ⟨p, hp, rfl, rfl⟩

/-- Braces that belong to no token, and one variable in two tokens. -/
theorem ofText_decomposes_greeting : ∃ (r : Reading) (parts : List Part) (tail : List Char),
    ofText .empty "Hi \x7b\x7bname\x7d, \x7d \x7bname:String\x7d\x7b!" = .ok r ∧
    r.phrase.pieces = parts.flatMap Part.pieces ++ Piece.ofGap tail ∧
    r.arguments.keys.Perm (parts.map (fun p => String.ofList p.token.spelling)) := by
  have hok : (ofText .empty "Hi \x7b\x7bname\x7d, \x7d \x7bname:String\x7d\x7b!").isOk = true := by
    decide +kernel
  cases h : ofText .empty "Hi \x7b\x7bname\x7d, \x7d \x7bname:String\x7d\x7b!" with
  | error defect =>
      rw [h] at hok
      cases hok
  | ok r =>
      rcases ofText_decomposes .empty _ r h with ⟨parts, tail, -, -, hpieces, hkeys, -, -⟩
      exact ⟨r, parts, tail, rfl, hpieces, hkeys⟩

end Reading

end Phrasebook
