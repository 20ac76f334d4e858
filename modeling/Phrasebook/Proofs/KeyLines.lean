import Phrasebook.Proofs.KeySpan

/-!
# Keys on Their Lines

What a span says of a text is a line and two columns, counted in bytes. That the bytes
between them are a name with its quotes is not seen from how positions are computed,
which look at the text in front of the name and not at its lines. Both readings of a
position agree (`exists_splitOn`): as many lines end in front of it as its number says,
and of the line that it is in as many bytes as its column says. A string holds no line
feed, since it would have to be escaped, so a name starts and ends on one line.

So each span that is recorded for a document is exact, whatever is written in it
(`spans_exact`). All that is asked is that the text is that of the tree, which holds of
every document that is read (`outlines_of_parse`), but also of those that nest too deep
for the reader. The keys are those of the members that can be reached through objects.
The span of a key covers the name of a member with that key, from quote to quote, and
no member with that key stands further behind.

## Main definitions

* `Name.quoted`: A name as it is spelled, with its quotes.
* `Span.Covers`: The bytes between the ends of a span.

## Theorems

* `Position.advanceText_of_not_mem`: Positions on one line.
* `Position.exists_splitOn`, `Position.exists_line`: The line of a position.
* `Spelling.not_mem`: A string has no line feed.
* `Name.covers_spanBehind`: The span of a name covers it.
* `Locale.spans_exact`: The spans of a document cover the last names with their keys.
-/

namespace Phrasebook

/-- A span starts and ends on one line of a text, and the bytes of the line between its
    columns are those of a token. -/
structure Span.Covers (span : Span) (text token : String) : Prop where
  sameLine : span.start.line = span.stop.line
  bytes : ∃ line, (text.toList.splitOn '\n')[span.start.line]? = some line ∧
    span.stop.column ≤ (String.ofList line).utf8ByteSize ∧
    (String.ofList line).toByteArray.extract span.start.column span.stop.column =
      token.toByteArray

namespace Position

/-- Behind a text without line feeds the position is on the same line. -/
theorem advanceText_of_not_mem (p : Position) (s : List Char) (h : '\n' ∉ s) :
    p.advanceText s = ⟨p.line, p.column + (String.ofList s).utf8ByteSize⟩ := by
  induction s generalizing p with
  | nil => rfl
  | cons c s ih =>
      rcases not_or.mp (fun hmem => h (List.mem_cons.mpr hmem)) with ⟨hc, hs⟩
      have hstep : p.advanceText (c :: s) = (p.advance c).advanceText s := rfl
      rw [hstep, ih (p.advance c) hs, advance, if_neg (fun heq => hc heq.symm), String.ofList_cons,
        String.utf8ByteSize_append, String.utf8ByteSize_singleton, Nat.add_assoc]

/-- The lines of a text in two parts: those that end in the first part are counted by
    the position between the two, and the bytes of the line that goes on by its column. -/
theorem exists_splitOn (front rest line : List Char) (lines : List (List Char))
    (h : rest.splitOn '\n' = line :: lines) : ∃ earlier before,
      (front ++ rest).splitOn '\n' = earlier ++ (before ++ line) :: lines ∧
      earlier.length = (after front).line ∧
      (String.ofList before).utf8ByteSize = (after front).column := by
  -- The induction is from the end of the first part, as positions are computed.
  induction front using List.reverseRecOn generalizing rest line lines with
  | nil => exact ⟨[], [], h, rfl, rfl⟩
  | append_singleton front c ih =>
      have hafter : after (front ++ [c]) = (after front).advance c := after_append
      rw [hafter, advance, List.append_assoc, List.singleton_append]
      by_cases hc : c = '\n'
      · have hrest : (c :: rest).splitOn '\n' = [] :: line :: lines := by
          rw [hc, List.splitOn, List.splitOnP_cons_eq_if_modifyHead, if_pos (by decide), ← h,
            List.splitOn]
        rcases ih (c :: rest) [] (line :: lines) hrest with ⟨earlier, before, hsplit, hline, -⟩
        rw [if_pos hc, ← hline]
        refine ⟨earlier ++ [before], [], ?_, List.length_append, rfl⟩
        rw [hsplit, List.append_nil, List.append_assoc, List.singleton_append, List.nil_append]
      · have hrest : (c :: rest).splitOn '\n' = (c :: line) :: lines := by
          rw [List.splitOn, List.splitOnP_cons_eq_if_modifyHead,
            if_neg (fun heq => hc (beq_iff_eq.mp heq)), ← List.splitOn, h, List.modifyHead_cons]
        rcases ih (c :: rest) (c :: line) lines hrest with
          ⟨earlier, before, hsplit, hline, hcolumn⟩
        rw [if_neg hc, ← hline, ← hcolumn]
        refine ⟨earlier, before ++ [c], ?_, rfl, ?_⟩
        · rw [hsplit, List.append_assoc, List.singleton_append]
        · rw [String.ofList_append, String.utf8ByteSize_append, ← String.singleton_eq_ofList,
            String.utf8ByteSize_singleton]

/-- A part of a text without line feeds is inside the line where it starts. -/
theorem exists_line (front token back : List Char) (h : '\n' ∉ token) : ∃ before behind,
    ((front ++ (token ++ back)).splitOn '\n')[(after front).line]? =
      some (before ++ (token ++ behind)) ∧
    (String.ofList before).utf8ByteSize = (after front).column := by
  -- The token goes on the line that it starts on.
  have htoken : ∃ behind lines, (token ++ back).splitOn '\n' = (token ++ behind) :: lines := by
    induction token with
    | nil =>
        rcases List.exists_cons_of_ne_nil (List.splitOn_ne_nil '\n' back) with
          ⟨line, lines, hback⟩
        exact ⟨line, lines, hback⟩
    | cons c token ih =>
        rcases not_or.mp (fun hmem => h (List.mem_cons.mpr hmem)) with ⟨hc, htoken⟩
        rcases ih htoken with ⟨behind, lines, hsplit⟩
        refine ⟨behind, lines, ?_⟩
        rw [List.cons_append, List.splitOn, List.splitOnP_cons_eq_if_modifyHead,
          if_neg (fun heq => hc (beq_iff_eq.mp heq).symm), ← List.splitOn, hsplit,
          List.modifyHead_cons, List.cons_append]
  rcases htoken with ⟨behind, lines, htoken⟩
  rcases exists_splitOn front _ _ lines htoken with ⟨earlier, before, hsplit, hline, hcolumn⟩
  refine ⟨before, behind, ?_, hcolumn⟩
  rw [hsplit, ← hline, List.getElem?_append_right (Nat.le_refl _), Nat.sub_self,
    List.getElem?_cons_zero]

end Position

/-- The bytes of a part of a text. -/
theorem extract_append_append (front token back : String) :
    (front ++ token ++ back).toByteArray.extract front.utf8ByteSize
      (front.utf8ByteSize + token.utf8ByteSize) = token.toByteArray := by
  have hsize : front.utf8ByteSize + token.utf8ByteSize = (front ++ token).toByteArray.size :=
    String.utf8ByteSize_append.symm
  rw [String.toByteArray_append, hsize, ByteArray.extract_append_size_left,
    String.toByteArray_append]
  exact ByteArray.extract_append_eq_right rfl ByteArray.size_append

namespace Json

/-- No digit of a numeric escape is a line feed. -/
theorem not_mem_of_hexValue? (a b c d : Char) (n : Nat) (h : hexValue? a b c d = some n) :
    '\n' ∉ [a, b, c, d] := by
  rcases Option.bind_eq_some_iff.mp h with ⟨_, ha, h⟩
  rcases Option.bind_eq_some_iff.mp h with ⟨_, hb, h⟩
  rcases Option.bind_eq_some_iff.mp h with ⟨_, hc, h⟩
  rcases Option.bind_eq_some_iff.mp h with ⟨_, hd, -⟩
  have hfeed : ∀ c n, hexDigit? c = some n → '\n' ≠ c := by
    rintro _ n hdigit rfl
    cases hdigit
  simp only [List.mem_cons, List.not_mem_nil, or_false, not_or]
  exact ⟨hfeed a _ ha, hfeed b _ hb, hfeed c _ hc, hfeed d _ hd⟩

/-- A line feed in a string has to be escaped. -/
theorem Spelling.not_mem {s : List Char} (h : Spelling s) : '\n' ∉ s := by
  -- A line break is a control character, and no escape has one in it.
  induction h with
  | nil => exact List.not_mem_nil
  | plain _ _ hcontrol _ ih =>
      intro hmem
      rcases List.mem_cons.mp hmem with rfl | hmem
      · exact hcontrol (by decide)
      · exact ih hmem
  | @letter e c s hletter _ ih =>
      have he : '\n' ≠ e := by
        rintro rfl
        cases hletter
      rw [List.mem_cons, List.mem_cons]
      exact not_or.mpr ⟨by decide, not_or.mpr ⟨he, ih⟩⟩
  | @unit a b c d n s hvalue _ ih =>
      have hdigits := not_mem_of_hexValue? a b c d n hvalue
      rw [List.mem_cons, List.mem_cons]
      refine not_or.mpr ⟨by decide, not_or.mpr ⟨by decide, fun hmem => ?_⟩⟩
      exact (List.mem_append.mp hmem : '\n' ∈ [a, b, c, d] ∨ '\n' ∈ s).elim hdigits ih

namespace Name

/-- A name as it is spelled, with its quotes. -/
def quoted (n : Name) : String := "\"" ++ n.spelling ++ "\""

theorem toList_quoted (n : Name) : n.quoted.toList = '"' :: (n.spelling.toList ++ ['"']) := by
  rw [quoted, String.toList_append, String.toList_append]
  rfl

/-- The span of a name covers it from quote to quote. -/
theorem covers_spanBehind (n : Name) (text : String) (front back : List Char)
    (hplaced : n.Placed text.toList front back) (hspelled : n.WellSpelled) :
    (n.spanBehind front).Covers text n.quoted := by
  have htoken : '\n' ∉ n.quoted.toList := by
    rw [toList_quoted, List.mem_cons, List.mem_append]
    rintro (heq | hmem | hmem)
    · cases heq
    · exact hspelled.not_mem hmem
    · cases List.mem_singleton.mp hmem
  have htext : text.toList = front ++ (n.quoted.toList ++ back) := by
    rw [hplaced.split, toList_quoted, List.cons_append, List.append_assoc, List.singleton_append]
  -- Both ends are on one line, and the columns differ by the bytes of the token.
  have hstop : (n.spanBehind front).stop =
      ⟨(Position.after front).line, (Position.after front).column + n.quoted.utf8ByteSize⟩ := by
    rw [spanBehind, ← toList_quoted, Position.after_append,
      Position.advanceText_of_not_mem _ _ htoken, String.ofList_toList]
  rcases Position.exists_line front n.quoted.toList back htoken with
    ⟨before, behind, hline, hcolumn⟩
  have hbytes : String.ofList (before ++ (n.quoted.toList ++ behind)) =
      String.ofList before ++ n.quoted ++ String.ofList behind := by
    rw [String.ofList_append, String.ofList_append, String.ofList_toList, String.append_assoc]
  refine ⟨by rw [hstop]; rfl, _, by rw [htext]; exact hline, ?_, ?_⟩
  · rw [hstop, hbytes, String.utf8ByteSize_append, String.utf8ByteSize_append, hcolumn]
    exact Nat.le_add_right _ _
  · have hstart : (n.spanBehind front).start = Position.after front := rfl
    rw [hbytes, hstop, hstart, ← hcolumn]
    exact extract_append_append _ _ _

end Name

end Json

namespace Locale

open Json (Tree Name Route Outlines)

/-- The keys of a document whose places are recorded are those of the members that can
    be reached, as they are spelled. The span of a key is that of a name in the text, and
    covers it on its line from quote to quote; the name is that of the last member in the
    source with that key. -/
theorem spans_exact (text : String) (tree : Tree) (h : Outlines Name.WellSpelled tree text) :
    (∀ key, key ∈ (spans text tree).keys ↔ ∃ r ∈ tree.routes, r.spelledKey = key) ∧
    ∀ key span, (spans text tree).get? key = some span → ∃ r ∈ tree.routes,
      r.spelledKey = key ∧
      (∀ other ∈ tree.routes, other.spelledKey = key → r.name.distance ≤ other.name.distance) ∧
      r.name.WellSpelled ∧
      (∃ front back, r.name.Placed text.toList front back ∧ span = r.name.spanBehind front) ∧
      span.Covers text r.name.quoted := by
  rcases h.stands with ⟨rest, hstands⟩
  rw [spans_eq]
  refine ⟨fun key => ?_, fun key span hspan => ?_⟩
  · rw [Dict.mem_keys_ofList, List.map_map, List.mem_map]
    rfl
  · rcases (Dict.get?_ofList_map_iff _ _ _ _).mp hspan with
      ⟨earlier, r, later, hroutes, hr, hlater⟩
    rcases Prod.mk.inj hr with ⟨hkey, rfl⟩
    have hmem : r ∈ tree.routes := by
      rw [hroutes]
      exact List.mem_append_right earlier List.mem_cons_self
    rcases hstands.exists_placed r.name (List.mem_map_of_mem hmem) with
      ⟨hspelled, front, back, hplaced⟩
    -- The span that was recorded is that of the name where it stands.
    have hspan := nameSpan_of_placed r.name text.toList front back hplaced
    refine ⟨r, hmem, hkey, fun other hother hsame => ?_, hspelled,
      ⟨front, back, hplaced, hspan⟩, ?_⟩
    · -- What stands further behind has another key.
      have hdistance := hstands.pairwise_distance
      rw [Tree.names, List.pairwise_map, hroutes, List.pairwise_append] at hdistance
      rw [hroutes] at hother
      rcases List.mem_append.mp hother with hearlier | hother
      · exact Nat.le_of_lt (hdistance.2.2 other hearlier r List.mem_cons_self)
      · rcases List.mem_cons.mp hother with rfl | hbehind
        · exact Nat.le_refl _
        · exact absurd hsame (hlater other hbehind)
    · rw [hspan]
      exact r.name.covers_spanBehind text front back hplaced hspelled

/-- Two objects whose names become one segment, each with a member of the same name: the
    second is found, on the second line and behind a letter of two bytes. -/
theorem spans_exact_twice : ∃ text tree,
    text = "\x7b\"ü\": \x7b\"a\": [\x7b\"k\": 1\x7d]\x7d,\n \"ü.\": \x7b\"a\": 2\x7d\x7d" ∧
    Json.parse text = .ok tree ∧ (spans text tree).keys = ["ü", "ü.a"] ∧
    ∃ r ∈ tree.routes, r.spelledKey = "ü.a" ∧
      Span.Covers ⟨⟨1, 9⟩, ⟨1, 12⟩⟩ text r.name.quoted := by
  have hspans : ∀ text,
      text = "\x7b\"ü\": \x7b\"a\": [\x7b\"k\": 1\x7d]\x7d,\n \"ü.\": \x7b\"a\": 2\x7d\x7d" →
      (Json.parse text).toOption.map
        (fun tree => ((spans text tree).keys, (spans text tree).get? "ü.a")) =
          some (["ü", "ü.a"], some ⟨⟨1, 9⟩, ⟨1, 12⟩⟩) := by
    rintro _ rfl
    decide +kernel
  have hfound := hspans _ rfl
  cases h : Json.parse
      "\x7b\"ü\": \x7b\"a\": [\x7b\"k\": 1\x7d]\x7d,\n \"ü.\": \x7b\"a\": 2\x7d\x7d" with
  | error cause =>
      rw [h] at hfound
      cases hfound
  | ok tree =>
      rw [h] at hfound
      rcases Prod.mk.inj (Option.some.inj hfound) with ⟨hkeys, hspan⟩
      have houtlines := (Json.outlines_of_parse _ tree h).imp (fun n => Name.Reads.wellSpelled)
      rcases (spans_exact _ tree houtlines).2 _ _ hspan with ⟨r, hr, hkey, -, -, -, hcovers⟩
      exact ⟨_, tree, rfl, h, hkeys, r, hr, hkey, hcovers⟩

end Locale

end Phrasebook
