import Mathlib.Data.List.Forall2
import Phrasebook.Proofs.Filling
import Phrasebook.Proofs.Reading

/-!
# Substitution by Place and by Spelling

A phrase has the values of its arguments put where the tokens of its text were
found. The plain way to say what a message shows does not speak of places: take the
text, and for one token after another, in the order of their spellings, replace the
token wherever it stands by what its argument shows.

`render_eq_substitute_iff` says when both give the same. A token must stand at one
place when its turn comes, in the text where those before it have been replaced.
The check for wrapped tokens does not ensure that. It looks from a token to the
next character on either side that is no word character, and does not see braces
behind a colon or behind another token. In `{x:{a}} {x:Int}` the value `Int` of the
first token completes a second `{x:Int}`. If no braces enclose tokens in this way,
both give the same for all values.

## Main definitions

* `Template.BraceFree`, `BraceFreeTypes`: Around a value there are no braces.
* `Argument.image`, `Reading.image`: What is put for an argument or a token.
* `Reading.substitute`: Replacing each token of a text by its spelling.
* `Reading.replacedBefore`: The text in which a token is replaced.

## Theorems

* `Reading.toList_render`: What a phrase shows is its text with all tokens filled.
* `Reading.braceFree_image`: Nothing that is put for a token has braces.
* `Reading.exists_sorted_tokens`: The table goes through the tokens by spelling.
* `Reading.filled_eq_replacedBefore`: The text when a token has its turn.
* `Reading.render_eq_substitute_iff`: When both ways of substitution agree.
-/

namespace Phrasebook

open Text (BraceFree OccursOnce replace)

/-- Around a value a template has no braces. -/
def Template.BraceFree (t : Template) : Prop :=
  Text.BraceFree t.lead.toList ∧ Text.BraceFree t.trail.toList

instance (t : Template) : Decidable t.BraceFree :=
  inferInstanceAs (Decidable (Text.BraceFree t.lead.toList ∧ Text.BraceFree t.trail.toList))

/-- The templates of custom types have no braces around the value. -/
def BraceFreeTypes (types : Dict CustomType) : Prop :=
  ∀ id type, types.get? id = some type →
    ∀ template, Template.ofString? type.template = some template → template.BraceFree

theorem Template.braceFree_bare : bare.BraceFree := by decide

/-- The templates of a new project have no braces around the value. -/
theorem braceFreeTypes_default : BraceFreeTypes Config.default.customTypes := by
  intro id type htype template htemplate
  -- There is one custom type by default.
  have hmention : type = ⟨"Long", "<@\x7bvar\x7d>"⟩ := by
    unfold Config.default at htype
    rw [Dict.get?_insert] at htype
    by_cases hid : id = "Mention"
    · rw [if_pos hid, Option.some.injEq] at htype
      exact htype.symm
    · rw [if_neg hid, Dict.get?_empty] at htype
      cases htype
  have hwritten : Template.ofString? "<@\x7bvar\x7d>" = some ⟨"<@", ">"⟩ := by decide +kernel
  rw [hmention, hwritten, Option.some.injEq] at htemplate
  rw [← htemplate]
  decide

/-- What an argument shows: the value of its variable in its template. -/
def Argument.image (a : Argument) (valueOf : String → String) : List Char :=
  (a.template.fill (valueOf a.variableName)).toList

theorem Argument.braceFree_image (a : Argument) (valueOf : String → String)
    (htemplate : a.template.BraceFree) (hvalues : ∀ name, BraceFree (valueOf name).toList) :
    BraceFree (a.image valueOf) := by
  unfold image Template.fill
  rw [String.toList_append, String.toList_append]
  exact (htemplate.1.append (hvalues a.variableName)).append htemplate.2

theorem Argument.braceFree_template (types : Dict CustomType) (htypes : BraceFreeTypes types)
    (name identifier : String) (a : Argument) (h : resolve types name identifier = .ok a) :
    a.template.BraceFree := by
  unfold resolve at h
  cases hcustom : types.get? identifier with
  | some type =>
      rw [hcustom] at h
      cases h
      -- A template that is not well written is the bare one.
      unfold ofCustomType
      cases htemplate : Template.ofString? type.template with
      | none => exact Template.braceFree_bare
      | some template => exact htypes identifier type hcustom template htemplate
  | none =>
      rw [hcustom] at h
      by_cases hnative : identifier ∈ nativeTypes
      · simp only [if_pos hnative] at h
        cases h
        exact Template.braceFree_bare
      · simp only [if_neg hnative] at h
        cases h

namespace Reading

/-- What is put for a token: what its argument shows. -/
def image (r : Reading) (valueOf : String → String) (t : Token) : List Char :=
  match r.arguments.get? (String.ofList t.spelling) with
  | some a => a.image valueOf
  | none => t.spelling

/-- A text in which, for one argument after another, the token is replaced by what
    the argument shows, wherever it stands. -/
def substitute (r : Reading) (valueOf : String → String) (text : String) : String :=
  String.ofList (r.arguments.pairs.foldl
    (fun s (spelling, a) => replace spelling.toList (a.image valueOf) s) text.toList)

/-- A text in which the tokens with a lesser spelling than `t` are filled. -/
def replacedBefore (r : Reading) (valueOf : String → String) (text : String) (t : Token) :
    List Char :=
  (Cutting.ofChars text.toList).filled (r.image valueOf)
    (fun u => decide (String.ofList u.spelling < String.ofList t.spelling))

section Parts

variable (r : Reading) (valueOf : String → String) (parts : List Part)

theorem image_of_part (htable : r.arguments = tableOf parts)
    (hsize : r.arguments.size = parts.length) (p : Part) (hp : p ∈ parts) :
    r.image valueOf p.token = p.argument.image valueOf := by
  have hget : r.arguments.get? (String.ofList p.token.spelling) = some p.argument := by
    rw [htable]
    exact (get?_tableOf parts (htable ▸ hsize) _ _).mpr ⟨p, hp, rfl, rfl⟩
  unfold image
  rw [hget]

theorem render_ofGap (gap : List Char) :
    ((Piece.ofGap gap).map (Piece.render valueOf)).flatMap String.toList = gap := by
  unfold Piece.ofGap
  by_cases hgap : gap = []
  · rw [if_pos hgap, hgap]
    rfl
  · rw [if_neg hgap, List.map_singleton, List.flatMap_singleton]
    exact String.toList_ofList

/-- A part shows its gap, and what its argument shows. -/
theorem render_pieces (types : Dict CustomType) (p : Part)
    (hnames : Part.Names types p.token p.argument) :
    (p.pieces.map (Piece.render valueOf)).flatMap String.toList =
      p.gap ++ p.argument.image valueOf := by
  have hvariable := Argument.variableName_of_resolve types _ _ p.argument hnames
  unfold Part.pieces
  rw [List.map_append, List.flatMap_append, render_ofGap, List.map_singleton,
    List.flatMap_singleton, ← hvariable]
  rfl

end Parts

section Read

variable (types : Dict CustomType) (text : String) (r : Reading) (valueOf : String → String)
  (h : ofText types text = .ok r)

include h

/-- What a phrase shows is its text with all tokens filled. -/
theorem toList_render : (r.phrase.render valueOf).toList =
    (Cutting.ofChars text.toList).filled (r.image valueOf) (fun _ => true) := by
  rcases parts_of_ofText types text r h with
    ⟨parts, tail, hcutting, hnames, hpieces, htable, hsize, -⟩
  unfold Phrase.render Cutting.filled
  rw [String.toList_join, hpieces, hcutting, List.map_append, List.flatMap_append, render_ofGap,
    List.map_flatMap, List.flatMap_assoc, List.flatMap_map]
  refine congrArg (· ++ tail) (List.flatMap_congr (fun p hp => ?_))
  rw [render_pieces valueOf types p (hnames p hp),
    ← image_of_part r valueOf parts htable hsize p hp]
  rfl

/-- If templates and values have no braces, nothing that is put for a token has. -/
theorem braceFree_image (htypes : BraceFreeTypes types)
    (hvalues : ∀ name, BraceFree (valueOf name).toList) (t : Token) (ht : t ∈ tokensOf text) :
    BraceFree (r.image valueOf t) := by
  rcases parts_of_ofText types text r h with ⟨parts, tail, hcutting, hnames, -, htable, hsize, -⟩
  rw [tokensOf_eq text parts tail hcutting] at ht
  rcases List.mem_map.mp ht with ⟨p, hp, rfl⟩
  rw [image_of_part r valueOf parts htable hsize p hp]
  refine Argument.braceFree_image p.argument valueOf ?_ hvalues
  exact Argument.braceFree_template types htypes _ _ p.argument (hnames p hp)

/-- The table of arguments has the tokens of the text in the order of their
    spellings, and substitution goes through them in that order. -/
theorem exists_sorted_tokens : ∃ ts : List Token, ts.Perm (tokensOf text) ∧
    ts.Pairwise (fun t u => String.ofList t.spelling < String.ofList u.spelling) ∧
    (r.substitute valueOf text).toList =
      ts.foldl (fun s t => replace t.spelling (r.image valueOf t) s) text.toList := by
  rcases parts_of_ofText types text r h with ⟨parts, tail, hcutting, -, -, htable, hsize, -⟩
  have hperm : r.arguments.pairs.Perm
      (parts.map (fun p => (String.ofList p.token.spelling, p.argument))) := by
    rw [htable]
    refine Dict.perm_pairs_of_size_ofList _ ?_
    rw [List.length_map, ← hsize, htable]
    rfl
  -- The parts are brought into the order of the table.
  have hparts : ∃ ps : List Part, ps.Perm parts ∧
      r.arguments.pairs = ps.map (fun p => (String.ofList p.token.spelling, p.argument)) := by
    have hmade : List.Forall₂ (fun pair p => pair = (String.ofList p.token.spelling, p.argument))
        (parts.map (fun p => (String.ofList p.token.spelling, p.argument))) parts :=
      List.forall₂_map_left_iff.mpr (List.forall₂_same.mpr (fun p _ => rfl))
    rcases List.perm_comp_forall₂ hperm hmade with ⟨ps, hps, hpermuted⟩
    refine ⟨ps, hpermuted, ?_⟩
    rw [← List.forall₂_eq_eq_eq, List.forall₂_map_right_iff]
    exact hps
  rcases hparts with ⟨ps, hps, hpairs⟩
  refine ⟨ps.map Part.token, ?_, ?_, ?_⟩
  · rw [tokensOf_eq text parts tail hcutting]
    exact hps.map Part.token
  · have hordered := r.arguments.ordered
    rw [hpairs, Assoc.Ordered, List.pairwise_map] at hordered
    exact List.pairwise_map.mpr hordered
  · unfold substitute
    rw [String.toList_ofList, hpairs, List.foldl_map, List.foldl_map]
    refine List.foldl_ext _ _ _ (fun s p hp => ?_)
    rw [image_of_part r valueOf parts htable hsize p (hps.mem_iff.mp hp)]
    exact congrArg (replace · (p.argument.image valueOf) s) String.toList_ofList

omit h in
/-- When a token has its turn, exactly those with a lesser spelling have had theirs. -/
theorem filled_eq_replacedBefore (ts front back : List Token) (t : Token)
    (hperm : ts.Perm (tokensOf text))
    (hsorted : ts.Pairwise (fun t u => String.ofList t.spelling < String.ofList u.spelling))
    (hsplit : ts = front ++ t :: back) :
    (Cutting.ofChars text.toList).filled (r.image valueOf) (fun u => false || decide (u ∈ front)) =
      r.replacedBefore valueOf text t := by
  refine Cutting.filled_congr _ _ _ _ (fun u hu => ?_)
  rw [Bool.false_or, decide_eq_decide]
  have hu : u ∈ ts := hperm.mem_iff.mpr hu
  rw [hsplit] at hu hsorted
  rw [List.pairwise_append, List.pairwise_cons] at hsorted
  -- The tokens in front are the smaller ones, as the list ascends.
  constructor
  · intro hfront
    exact hsorted.2.2 u hfront t List.mem_cons_self
  · intro hlt
    rcases List.mem_append.mp hu with hfront | hrest
    · exact hfront
    · exfalso
      rcases List.mem_cons.mp hrest with rfl | hback
      · exact String.lt_irrefl _ hlt
      · exact String.lt_asymm hlt (hsorted.2.1.1 u hback)

/-- Let neither templates nor values have braces. Then putting values where the
    tokens of a text stand shows the same as replacing one token after another
    wherever it stands, exactly if each token stands at one place when its turn
    comes. It does, whatever the values are, if braces nowhere enclose tokens and
    apart from these only characters that may stand in a token. -/
theorem render_eq_substitute_iff (htypes : BraceFreeTypes types)
    (hvalues : ∀ name, BraceFree (valueOf name).toList) :
    (r.phrase.render valueOf = r.substitute valueOf text ↔
      ∀ t ∈ tokensOf text, OccursOnce t.spelling (r.replacedBefore valueOf text t)) ∧
    (¬Encloses text.toList → r.phrase.render valueOf = r.substitute valueOf text) := by
  have hdecomposes := Cutting.decomposes_ofChars text.toList
  have himage := braceFree_image types text r valueOf h htypes hvalues
  have hwell : ∀ t ∈ tokensOf text, t.WellFormed := by
    intro t ht
    rcases List.mem_map.mp ht with ⟨cut, hcut, rfl⟩
    exact hdecomposes.tokens cut hcut
  rcases exists_sorted_tokens types text r valueOf h with ⟨ts, hperm, hsorted, hsubstitute⟩
  have hts : ts.Nodup := by
    refine hsorted.imp (fun hlt heq => ?_)
    rw [heq] at hlt
    exact String.lt_irrefl _ hlt
  have hnodup : (tokensOf text).Nodup := hperm.nodup_iff.mp hts
  have hiff : r.phrase.render valueOf = r.substitute valueOf text ↔
      ∀ t ∈ tokensOf text, OccursOnce t.spelling (r.replacedBefore valueOf text t) := by
    have hfill := Cutting.foldl_replace_eq_iff (r.image valueOf) (Cutting.ofChars text.toList)
      hnodup himage hwell ts (fun _ => false) hts (fun t ht => hperm.mem_iff.mp ht)
      (fun _ _ => rfl)
    -- Once all tokens are filled, the text is what rendering shows.
    have hall : (Cutting.ofChars text.toList).filled (r.image valueOf)
        (fun u => false || decide (u ∈ ts)) = (r.phrase.render valueOf).toList := by
      rw [toList_render types text r valueOf h]
      refine Cutting.filled_congr _ _ _ _ (fun u hu => ?_)
      rw [Bool.false_or, decide_eq_true (hperm.mem_iff.mpr hu)]
    rw [hall, Cutting.filled_of_forall_false _ _ _ (fun _ => rfl), Cutting.chars_ofChars,
      ← hsubstitute, String.toList_inj] at hfill
    rw [eq_comm, hfill]
    -- Asking at every token of the list is asking at every token of the text.
    constructor
    · intro honce t ht
      rcases List.append_of_mem (hperm.mem_iff.mpr ht) with ⟨front, back, hsplit⟩
      rw [← filled_eq_replacedBefore text r valueOf ts front back t hperm hsorted hsplit]
      exact honce front t back hsplit
    · intro honce front t back hsplit
      rw [filled_eq_replacedBefore text r valueOf ts front back t hperm hsorted hsplit]
      refine honce t (hperm.mem_iff.mp ?_)
      rw [hsplit]
      exact List.mem_append_right front List.mem_cons_self
  refine ⟨hiff, fun hencloses => hiff.mpr (fun t ht => ?_)⟩
  refine Cutting.occursOnce_of_not_encloses _ _ _ text.toList t hdecomposes himage hnodup ht ?_
    hencloses
  exact decide_eq_false (String.lt_irrefl _)

end Read

/-- A template, and braces that belong to no token. -/
theorem render_eq_substitute_greeting : ∃ (r : Reading) (valueOf : String → String),
    ofText Config.default.customTypes "\x7b \x7buser:Mention\x7d: \x7bn\x7d\x7d" = .ok r ∧
    r.phrase.render valueOf = "\x7b <@7>: 7\x7d" ∧
    ∀ t ∈ tokensOf "\x7b \x7buser:Mention\x7d: \x7bn\x7d\x7d", OccursOnce t.spelling
      (r.replacedBefore valueOf "\x7b \x7buser:Mention\x7d: \x7bn\x7d\x7d" t) := by
  have hvalue : BraceFree "7".toList := by decide
  have hshown : (ofText Config.default.customTypes
      "\x7b \x7buser:Mention\x7d: \x7bn\x7d\x7d").toOption.map (fun r =>
        (r.phrase.render (fun _ => "7"), r.substitute (fun _ => "7")
          "\x7b \x7buser:Mention\x7d: \x7bn\x7d\x7d")) =
      some ("\x7b <@7>: 7\x7d", "\x7b <@7>: 7\x7d") := by decide +kernel
  cases h : ofText Config.default.customTypes "\x7b \x7buser:Mention\x7d: \x7bn\x7d\x7d" with
  | error defect =>
      rw [h] at hshown
      cases hshown
  | ok r =>
      rw [h] at hshown
      rcases Prod.mk.inj (Option.some.inj hshown) with ⟨hrender, hsubstitute⟩
      refine ⟨r, fun _ => "7", rfl, hrender, ?_⟩
      exact (render_eq_substitute_iff Config.default.customTypes _ r (fun _ => "7") h
        braceFreeTypes_default (fun _ => hvalue)).1.mp (hrender.trans hsubstitute.symm)

/-- A value completes a token in braces that belong to no token. -/
theorem render_ne_substitute_of_completed : ∃ (r : Reading) (valueOf : String → String),
    BraceFreeTypes Config.default.customTypes ∧ (∀ name, BraceFree (valueOf name).toList) ∧
    ofText Config.default.customTypes "\x7bx:\x7ba\x7d\x7d \x7bx:Int\x7d" = .ok r ∧
    r.phrase.render valueOf = "\x7bx:Int\x7d 5" ∧
    r.substitute valueOf "\x7bx:\x7ba\x7d\x7d \x7bx:Int\x7d" = "5 5" ∧
    r.phrase.render valueOf ≠ r.substitute valueOf "\x7bx:\x7ba\x7d\x7d \x7bx:Int\x7d" := by
  let valueOf : String → String := fun name => if name = "a" then "Int" else "5"
  have hvalues : ∀ name, BraceFree (valueOf name).toList := by
    intro name
    by_cases hname : name = "a"
    · simp only [valueOf, if_pos hname]
      decide
    · simp only [valueOf, if_neg hname]
      decide
  -- Replacing the inner token completes an outer one, which is then replaced as well.
  have hshown : (ofText Config.default.customTypes
      "\x7bx:\x7ba\x7d\x7d \x7bx:Int\x7d").toOption.map (fun r =>
        (r.phrase.render valueOf, r.substitute valueOf "\x7bx:\x7ba\x7d\x7d \x7bx:Int\x7d")) =
      some ("\x7bx:Int\x7d 5", "5 5") := by decide +kernel
  cases h : ofText Config.default.customTypes "\x7bx:\x7ba\x7d\x7d \x7bx:Int\x7d" with
  | error defect =>
      rw [h] at hshown
      cases hshown
  | ok r =>
      rw [h] at hshown
      rcases Prod.mk.inj (Option.some.inj hshown) with ⟨hrender, hsubstitute⟩
      refine ⟨r, valueOf, braceFreeTypes_default, hvalues, rfl, hrender, hsubstitute, ?_⟩
      rw [hrender, hsubstitute]
      decide

end Reading

end Phrasebook
