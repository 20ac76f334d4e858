import Phrasebook.Proofs.Reading

/-!
# Which Texts Are Refused

There are four things for which a text can be refused, and each is found in its own
way: wrapped tokens by looking at the text around them, unknown types by look-up,
repeated tokens by comparing the size of a table with the number of tokens, and two
types for one variable by going through that table in the order of its keys, which
is not the order of the text. This module states all four of the tokens in the order
of the text, and which of them is told if there are several.

A type is compared only with the latest one of the same variable. So a conflict that
is found is one of two tokens (`Reading.conflict?_eq_some`), and that none is missed
is what `Reading.conflict?_eq_none` says.

## Main definitions

* `Occurrence.Wrapped`: A token stands between another pair of braces.
* `Argument.Means`: The type that an identifier means.
* `Occurrence.Readable`: A token is not wrapped, and its type is known.
* `Acceptable`: A text can be read.
* `TextDefect`: What is wrong with a text, by the order of reporting.
* `Reading.entered`: The table of arguments.

## Theorems

* `Occurrence.isWrapped_iff`: The check for braces finds the wrapped tokens.
* `Argument.exists_resolve_iff`, `Argument.resolve_eq_error_iff`: Look-up finds what
  an identifier means.
* `Reading.exists_argumentOf_iff`, `Reading.argumentOf_eq_error_iff`: When a token can
  be read, and what is wrong with it otherwise.
* `Reading.size_entered_eq_iff`: The table shows whether tokens are repeated.
* `Reading.conflict?_eq_some`, `Reading.exists_of_conflict?`: A conflict in the table
  is one of two tokens.
* `Reading.ofText_outcome`: When a text can be read, and what is told otherwise.
-/

namespace Phrasebook

namespace Occurrence

/-- A token stands between another pair of braces: on either side of it a brace is
    reached behind identifier characters alone. -/
def Wrapped (o : Occurrence) : Prop :=
  ∃ front inner inner' back, o.behind.reverse = front ++ '\x7b' :: inner ∧
    o.ahead = inner' ++ '\x7d' :: back ∧ (∀ c ∈ inner, Text.isIdentifierChar c = true) ∧
    ∀ c ∈ inner', Text.isIdentifierChar c = true

/-- A brace is reached if it stands behind identifier characters. -/
theorem reaches_iff (brace : Char) (text : List Char) (hbrace : Text.isIdentifierChar brace = false) :
    reaches brace text = true ↔ ∃ inner rest, text = inner ++ brace :: rest ∧
      ∀ c ∈ inner, Text.isIdentifierChar c = true := by
  unfold reaches
  rw [beq_iff_eq]
  constructor
  · intro hhead
    -- What is skipped is the longest run of identifier characters.
    have hsplit := List.takeWhile_append_dropWhile (p := Text.isIdentifierChar) (l := text)
    rcases List.head?_eq_some_iff.mp hhead with ⟨rest, hrest⟩
    rw [hrest] at hsplit
    exact ⟨_, rest, hsplit.symm, fun c hc => List.all_eq_true.mp List.all_takeWhile c hc⟩
  · rintro ⟨inner, rest, rfl, hinner⟩
    rw [List.dropWhile_append_of_pos hinner, List.dropWhile_cons_of_neg (by simp [hbrace])]
    rfl

theorem isWrapped_iff (o : Occurrence) : o.isWrapped = true ↔ o.Wrapped := by
  unfold isWrapped Wrapped
  rw [Bool.and_eq_true, reaches_iff '\x7b' _ (by decide), reaches_iff '\x7d' _ (by decide)]
  constructor
  · rintro ⟨⟨inner, rest, hbehind, hinner⟩, inner', back, hahead, hinner'⟩
    -- The text behind is kept from its end, so the run before the token is read backwards.
    refine ⟨rest.reverse, inner.reverse, inner', back, ?_, hahead, ?_, hinner'⟩
    · rw [hbehind, List.reverse_append, List.reverse_cons, List.append_assoc, List.singleton_append]
    · intro c hc
      exact hinner c (List.mem_reverse.mp hc)
  · rintro ⟨front, inner, inner', back, hbehind, hahead, hinner, hinner'⟩
    refine ⟨⟨inner.reverse, front.reverse, ?_, ?_⟩, inner', back, hahead, hinner'⟩
    · rw [← List.reverse_reverse o.behind, hbehind, List.reverse_append, List.reverse_cons,
        List.append_assoc, List.singleton_append]
    · intro c hc
      exact hinner c (List.mem_reverse.mp hc)

end Occurrence

namespace Argument

/-- What an identifier means: a custom type its target, and a native type that is no
    custom type itself. -/
def Means (types : Dict CustomType) (identifier target : String) : Prop :=
  (∃ type, types.get? identifier = some type ∧ type.target = target) ∨
    (types.get? identifier = none ∧ identifier ∈ nativeTypes ∧ identifier = target)

theorem exists_resolve_iff (types : Dict CustomType) (name identifier target : String) :
    (∃ a, resolve types name identifier = .ok a ∧ a.typeName = target) ↔
      Means types identifier target := by
  unfold resolve Means
  cases types.get? identifier with
  | some type => simp [ofCustomType]
  | none =>
      -- Only an identifier the table lacks is looked up among the native types.
      by_cases hnative : identifier ∈ nativeTypes
      · simp [hnative]
      · simp [hnative]

/-- An identifier that means nothing is unknown. -/
theorem resolve_eq_error_iff (types : Dict CustomType) (name identifier : String) (d : Defect) :
    resolve types name identifier = .error d ↔
      (∀ target, ¬ Means types identifier target) ∧ d = .unknownType identifier name := by
  unfold resolve Means
  cases types.get? identifier with
  | some type => simp
  | none =>
      by_cases hnative : identifier ∈ nativeTypes
      · simp [hnative]
      · simp [hnative, eq_comm]

end Argument

/-- A token can be read: it is not wrapped, and its type is known. -/
def Occurrence.Readable (types : Dict CustomType) (o : Occurrence) : Prop :=
  ¬ o.Wrapped ∧ ∃ target, Argument.Means types o.token.typeIdentifier target

/-- A token as a text. -/
def Occurrence.spelled (o : Occurrence) : String := String.ofList o.token.spelling

/-- A text can be read: each of its tokens can, no two of them are spelled alike, and
    those of one variable mean one type. -/
structure Acceptable (types : Dict CustomType) (occurrences : List Occurrence) : Prop where
  readable : ∀ o ∈ occurrences, o.Readable types
  distinct : (occurrences.map Occurrence.spelled).Nodup
  agreeing : ∀ o ∈ occurrences, ∀ o' ∈ occurrences, o.token.name = o'.token.name →
    ∀ target target', Argument.Means types o.token.typeIdentifier target →
      Argument.Means types o'.token.typeIdentifier target' → target = target'

/-- What is wrong with a text, by the order of reporting: the first token that cannot
    be read, and that because it is wrapped or else because its type is unknown; or
    else that tokens are repeated; or else that a variable has two types. -/
inductive TextDefect (types : Dict CustomType) (text : String) (occurrences : List Occurrence) :
    Defect → Prop
  | wrapped (front back : List Occurrence) (o : Occurrence)
      (hsplit : occurrences = front ++ o :: back) (hfront : ∀ p ∈ front, p.Readable types)
      (hwrapped : o.Wrapped) : TextDefect types text occurrences (.placeholders text .wrapped)
  | unknown (front back : List Occurrence) (o : Occurrence)
      (hsplit : occurrences = front ++ o :: back) (hfront : ∀ p ∈ front, p.Readable types)
      (hwrapped : ¬ o.Wrapped)
      (hunknown : ∀ target, ¬ Argument.Means types o.token.typeIdentifier target) :
      TextDefect types text occurrences
        (.unknownType o.token.typeIdentifier (String.ofList o.token.name))
  | repeated (hreadable : ∀ o ∈ occurrences, o.Readable types)
      (hrepeated : ¬ (occurrences.map Occurrence.spelled).Nodup) :
      TextDefect types text occurrences (.placeholders text
        (.repeated (occurrences.map Occurrence.spelled).dedup.length occurrences.length))
  | conflicting (hreadable : ∀ o ∈ occurrences, o.Readable types)
      (hdistinct : (occurrences.map Occurrence.spelled).Nodup) (o o' : Occurrence)
      (ho : o ∈ occurrences) (ho' : o' ∈ occurrences) (hname : o.token.name = o'.token.name)
      (first second : String) (hfirst : Argument.Means types o.token.typeIdentifier first)
      (hsecond : Argument.Means types o'.token.typeIdentifier second) (hne : first ≠ second) :
      TextDefect types text occurrences
        (.placeholders text (.conflicting (String.ofList o.token.name) first second))

namespace Reading

variable (types : Dict CustomType) (text : String)

/-- A token that can be read has an argument, with the name of its variable and a type
    that its identifier means. -/
theorem argumentOf_eq_ok_iff (o : Occurrence) (a : Argument) :
    argumentOf types text o = .ok a ↔ ¬ o.Wrapped ∧
      Argument.resolve types (String.ofList o.token.name) o.token.typeIdentifier = .ok a := by
  unfold argumentOf
  by_cases hwrapped : o.isWrapped = true
  · rw [if_pos hwrapped]
    simp [(Occurrence.isWrapped_iff o).mp hwrapped]
  · rw [if_neg hwrapped]
    rw [Occurrence.isWrapped_iff] at hwrapped
    rw [and_iff_right hwrapped]
    rfl

theorem exists_argumentOf_iff (o : Occurrence) :
    (∃ a, argumentOf types text o = .ok a) ↔ o.Readable types := by
  simp only [argumentOf_eq_ok_iff, exists_and_left, Occurrence.Readable]
  refine and_congr_right (fun _ => ?_)
  simp only [← Argument.exists_resolve_iff types (String.ofList o.token.name)]
  constructor
  · rintro ⟨a, ha⟩
    exact ⟨a.typeName, a, ha, rfl⟩
  · rintro ⟨-, a, ha, -⟩
    exact ⟨a, ha⟩

theorem argumentOf_eq_error_iff (o : Occurrence) (d : Defect) :
    argumentOf types text o = .error d ↔ (o.Wrapped ∧ d = .placeholders text .wrapped) ∨
      (¬ o.Wrapped ∧ (∀ target, ¬ Argument.Means types o.token.typeIdentifier target) ∧
        d = .unknownType o.token.typeIdentifier (String.ofList o.token.name)) := by
  unfold argumentOf
  by_cases hwrapped : o.isWrapped = true
  · rw [if_pos hwrapped]
    simp [(Occurrence.isWrapped_iff o).mp hwrapped, eq_comm]
  · rw [if_neg hwrapped]
    rw [Occurrence.isWrapped_iff] at hwrapped
    simp only [hwrapped, false_and, false_or, not_false_eq_true, true_and]
    exact Argument.resolve_eq_error_iff types _ _ d

/-- A conflict is one of a variable that has two types, if none was known before. -/
theorem conflict?_eq_some (known : Dict String) (arguments : List Argument)
    (name first second : String) (h : conflict? known arguments = some (name, first, second)) :
    first ≠ second ∧ (∃ a ∈ arguments, a.variableName = name ∧ a.typeName = second) ∧
      (known.get? name = some first ∨
        ∃ a ∈ arguments, a.variableName = name ∧ a.typeName = first) := by
  induction arguments generalizing known with
  | nil => cases h
  | cons argument arguments ih =>
      rw [conflict?] at h
      cases hknown : known.get? argument.variableName with
      | none =>
          rw [hknown] at h
          rcases ih _ h with ⟨hne, ⟨a, ha, hsecond⟩, hfirst⟩
          refine ⟨hne, ⟨a, List.mem_cons_of_mem _ ha, hsecond⟩, ?_⟩
          rcases hfirst with hget | ⟨b, hb, hfirst⟩
          · rw [Dict.get?_insert] at hget
            -- The first type was either known before or entered by this argument.
            by_cases hname : name = argument.variableName
            · rw [if_pos hname, Option.some.injEq] at hget
              exact Or.inr ⟨argument, List.mem_cons_self, hname.symm, hget⟩
            · rw [if_neg hname] at hget
              exact Or.inl hget
          · exact Or.inr ⟨b, List.mem_cons_of_mem _ hb, hfirst⟩
      | some type =>
          simp only [hknown] at h
          by_cases htype : type = argument.typeName
          · rw [if_pos htype] at h
            rcases ih _ h with ⟨hne, ⟨a, ha, hsecond⟩, hfirst⟩
            refine ⟨hne, ⟨a, List.mem_cons_of_mem _ ha, hsecond⟩, hfirst.imp_right ?_⟩
            rintro ⟨b, hb, hfirst⟩
            exact ⟨b, List.mem_cons_of_mem _ hb, hfirst⟩
          · rw [if_neg htype] at h
            -- The two types differ here, so the search ends with them.
            cases h
            exact ⟨htype, ⟨argument, List.mem_cons_self, rfl, rfl⟩, Or.inl hknown⟩

/-- The table of the arguments of some tokens, by their spellings. -/
def entered (occurrences : List Occurrence) (arguments : List Argument) : Dict Argument :=
  Dict.ofList ((occurrences.map Occurrence.spelled).zip arguments)

section Table

variable {types text} {occurrences : List Occurrence} {arguments : List Argument}
  (h : occurrences.mapM (argumentOf types text) = .ok arguments)

include h

theorem length_spellings : (occurrences.map Occurrence.spelled).length = arguments.length := by
  rw [List.length_map]
  exact ((Fallible.mapM_eq_ok_iff _ _ _).mp h).length_eq

/-- The table of the arguments has a place for every different spelling. -/
theorem size_entered : (entered occurrences arguments).size =
    (occurrences.map Occurrence.spelled).dedup.length := by
  rw [entered, Dict.size_ofList, List.map_fst_zip (Nat.le_of_eq (length_spellings h))]

/-- The table is as large as the list of tokens if no two are spelled alike. -/
theorem size_entered_eq_iff :
    (entered occurrences arguments).size = arguments.length ↔
      (occurrences.map Occurrence.spelled).Nodup := by
  rw [size_entered h, ← length_spellings h, ← List.dedup_eq_self]
  constructor
  · intro hlength
    exact (List.dedup_sublist _).eq_of_length hlength
  · intro hself
    rw [hself]

/-- If no two tokens are spelled alike, the table has the arguments of all. -/
theorem perm_values_entered (hdistinct : (occurrences.map Occurrence.spelled).Nodup) :
    (entered occurrences arguments).values.Perm arguments := by
  have hlength := length_spellings h
  have hzip : ((occurrences.map Occurrence.spelled).zip arguments).length = arguments.length := by
    rw [List.length_zip, hlength, Nat.min_self]
  -- A table as large as the list it was made of lost nothing to a repeated key.
  have hperm := Dict.perm_pairs_of_size_ofList _
    (((size_entered_eq_iff h).mpr hdistinct).trans hzip.symm)
  have hvalues := hperm.map Prod.snd
  rw [List.map_snd_zip (Nat.le_of_eq hlength.symm)] at hvalues
  exact hvalues

/-- An argument is that of a token, with the name of its variable and a type that its
    identifier means. -/
theorem exists_occurrence_of_mem (a : Argument) (ha : a ∈ arguments) :
    ∃ o ∈ occurrences, String.ofList o.token.name = a.variableName ∧
      Argument.Means types o.token.typeIdentifier a.typeName := by
  rcases Fallible.exists_of_mem_mapM _ _ _ h a ha with ⟨o, ho, hargument⟩
  have hresolve := ((argumentOf_eq_ok_iff types text o a).mp hargument).2
  exact ⟨o, ho, (Argument.variableName_of_resolve types _ _ a hresolve).symm,
    (Argument.exists_resolve_iff types _ _ _).mp ⟨a, hresolve, rfl⟩⟩

/-- A token has an argument, with the name of its variable and the type that its
    identifier means. -/
theorem exists_argument_of_mem (o : Occurrence) (ho : o ∈ occurrences) :
    ∃ a ∈ arguments, a.variableName = String.ofList o.token.name ∧
      ∀ target, Argument.Means types o.token.typeIdentifier target → target = a.typeName := by
  rcases (Fallible.exists_mapM_iff _ _).mp ⟨arguments, h⟩ o ho with ⟨a, hargument⟩
  have hresolve := ((argumentOf_eq_ok_iff types text o a).mp hargument).2
  refine ⟨a, Fallible.mem_of_mapM _ _ _ h o ho a hargument,
    Argument.variableName_of_resolve types _ _ a hresolve, fun target hmeans => ?_⟩
  rcases (Argument.exists_resolve_iff types (String.ofList o.token.name) _ target).mpr hmeans with
    ⟨a', hresolve', rfl⟩
  rw [hresolve] at hresolve'
  -- The identifier resolves to one argument, so both mean the same type.
  cases hresolve'
  rfl

/-- A conflict in the table is one of two tokens with one variable. -/
theorem exists_of_conflict? (hdistinct : (occurrences.map Occurrence.spelled).Nodup)
    (name first second : String)
    (hconflict : conflict? .empty (entered occurrences arguments).values =
      some (name, first, second)) :
    ∃ o ∈ occurrences, ∃ o' ∈ occurrences, o.token.name = o'.token.name ∧
      String.ofList o.token.name = name ∧
      Argument.Means types o.token.typeIdentifier first ∧
      Argument.Means types o'.token.typeIdentifier second ∧ first ≠ second := by
  have hvalues := perm_values_entered h hdistinct
  rcases conflict?_eq_some _ _ name first second hconflict with
    ⟨hne, ⟨b, hb, hvariable, rfl⟩, hknown | ⟨a, ha, rfl, rfl⟩⟩
  -- Nothing is known before the first argument.
  · cases hknown
  · rcases exists_occurrence_of_mem h a (hvalues.mem_iff.mp ha) with ⟨o, ho, hname, hfirst⟩
    rcases exists_occurrence_of_mem h b (hvalues.mem_iff.mp hb) with ⟨o', ho', hname', hsecond⟩
    refine ⟨o, ho, o', ho', ?_, hname, hfirst, hsecond, hne⟩
    exact String.ofList_injective (hname.trans (hvariable.symm.trans hname'.symm))

end Table

theorem entered_occurrences (c : Cutting) (arguments : List Argument) :
    Dict.ofList ((c.cuts.map (fun cut => String.ofList cut.2.spelling)).zip arguments) =
      entered c.occurrences arguments := by
  have htokens := congrArg (List.map (fun t : Token => String.ofList t.spelling))
    c.tokens_occurrences
  rw [List.map_map, List.map_map] at htokens
  exact congrArg (fun spellings => Dict.ofList (spellings.zip arguments)) htokens.symm

/-- A text that can be read has nothing wrong with its tokens. -/
theorem acceptable_of_ofText (r : Reading) (h : ofText types text = .ok r) :
    Acceptable types (Cutting.ofChars text.toList).occurrences := by
  rcases (ofText_eq_ok_iff types text r).mp h with
    ⟨arguments, harguments, htable, hsize, hconflict, -⟩
  rw [entered_occurrences] at htable
  rw [htable] at hsize hconflict
  -- The table has an argument for each token, so no token is spelled twice.
  have hdistinct := (size_entered_eq_iff harguments).mp hsize
  refine ⟨fun o ho => ?_, hdistinct, ?_⟩
  · exact (exists_argumentOf_iff types text o).mp
      ((Fallible.exists_mapM_iff _ _).mp ⟨arguments, harguments⟩ o ho)
  · intro o ho o' ho' hname target target' htarget htarget'
    rcases exists_argument_of_mem harguments o ho with ⟨a, ha, hvariable, hmeans⟩
    rcases exists_argument_of_mem harguments o' ho' with ⟨a', ha', hvariable', hmeans'⟩
    have hvalues := perm_values_entered harguments hdistinct
    rw [hmeans target htarget, hmeans' target' htarget']
    -- Without a conflict, two tokens of one name have arguments of one type.
    refine (conflict?_eq_none _ _ hconflict).2 a (hvalues.mem_iff.mpr ha) a'
      (hvalues.mem_iff.mpr ha') ?_
    rw [hvariable, hvariable', hname]

/-- If a text cannot be read, the first thing that is wrong with its tokens is told. -/
theorem defect_of_ofText (d : Defect) (h : ofText types text = .error d) :
    TextDefect types text (Cutting.ofChars text.toList).occurrences d := by
  unfold ofText at h
  rcases (Fallible.bind_eq_error_iff _ _ _).mp h with htoken | ⟨arguments, harguments, h⟩
  · rcases (Fallible.mapM_eq_error_iff _ _ _).mp htoken with ⟨front, o, back, hsplit, hfront, ho⟩
    have hreadable : ∀ p ∈ front, p.Readable types :=
      fun p hp => (exists_argumentOf_iff types text p).mp (hfront p hp)
    rcases (argumentOf_eq_error_iff types text o d).mp ho with
      ⟨hwrapped, rfl⟩ | ⟨hwrapped, hunknown, rfl⟩
    · exact .wrapped front back o hsplit hreadable hwrapped
    · exact .unknown front back o hsplit hreadable hwrapped hunknown
  · have hreadable : ∀ o ∈ (Cutting.ofChars text.toList).occurrences, o.Readable types :=
      fun o ho => (exists_argumentOf_iff types text o).mp
        ((Fallible.exists_mapM_iff _ _).mp ⟨arguments, harguments⟩ o ho)
    have htable := entered_occurrences (Cutting.ofChars text.toList) arguments
    simp only [htable] at h
    by_cases hsize : (entered (Cutting.ofChars text.toList).occurrences arguments).size =
        arguments.length
    · -- All tokens are in the table, so what is left is a conflict in it.
      have hdistinct := (size_entered_eq_iff harguments).mp hsize
      rw [if_neg (not_not_intro hsize)] at h
      split at h
      · next name first second hconflict =>
          cases h
          rcases exists_of_conflict? harguments hdistinct name first second hconflict with
            ⟨o, ho, o', ho', hname, rfl, hfirst, hsecond, hne⟩
          exact .conflicting hreadable hdistinct o o' ho ho' hname first second hfirst hsecond hne
      · cases h
    · rw [if_pos hsize] at h
      cases h
      rw [size_entered harguments, ← length_spellings harguments, List.length_map]
      exact .repeated hreadable (fun hdistinct =>
        hsize ((size_entered_eq_iff harguments).mpr hdistinct))

/-- A text can be read exactly if each of its tokens can, no two are spelled alike and
    those of one variable mean one type. Otherwise the first token that cannot be read
    is told, if there is one, or else that tokens are repeated, or else a variable with
    two types. The tokens are those of the only way to cut the text. -/
theorem ofText_outcome :
    ∃ c : Cutting, (∀ c' : Cutting, c'.Decomposes text.toList ↔ c' = c) ∧
      ((∃ r, ofText types text = .ok r) ↔ Acceptable types c.occurrences) ∧
      ∀ d, ofText types text = .error d → TextDefect types text c.occurrences d := by
  refine ⟨Cutting.ofChars text.toList, Cutting.decomposes_iff text.toList, ?_,
    defect_of_ofText types text⟩
  constructor
  · rintro ⟨r, hr⟩
    exact acceptable_of_ofText types text r hr
  · intro haccept
    refine (Fallible.ne_error_iff _).mp (fun d hd => ?_)
    -- Whatever could be wrong is excluded.
    cases defect_of_ofText types text d hd with
    | wrapped front back o hsplit hfront hwrapped =>
        have ho : o ∈ (Cutting.ofChars text.toList).occurrences :=
          hsplit ▸ List.mem_append_right front List.mem_cons_self
        exact (haccept.readable o ho).1 hwrapped
    | unknown front back o hsplit hfront hwrapped hunknown =>
        have ho : o ∈ (Cutting.ofChars text.toList).occurrences :=
          hsplit ▸ List.mem_append_right front List.mem_cons_self
        rcases (haccept.readable o ho).2 with ⟨target, hmeans⟩
        exact hunknown target hmeans
    | repeated hreadable hrepeated => exact hrepeated haccept.distinct
    | conflicting hreadable hdistinct o o' ho ho' hname first second hfirst hsecond hne =>
        exact hne (haccept.agreeing o ho o' ho' hname first second hfirst hsecond)

/-- An unknown type comes before tokens that are repeated, wherever they stand. -/
example : ofText .empty "\x7ba\x7d \x7ba\x7d \x7bb:Date\x7d" = .error (.unknownType "Date" "b") := by
  decide +kernel

end Reading

end Phrasebook
