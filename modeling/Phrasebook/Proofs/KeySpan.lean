import Phrasebook.Locale.Document
import Phrasebook.Proofs.Leaves

/-!
# Where the Keys of Messages Stand

A document records where the names of its members stand, to say for a message where
it comes from. Two readings of one text have to agree for that. Messages come from
names as they are meant, and of members with one name the last counts; spans come
from names as they are spelled, and every member counts, but of equal keys only the
last in the source has its span recorded. The span of a message is therefore the
right one exactly if its member has the key of the message also as it is spelled,
and no member further behind in the text is spelled with that key
(`parse_locates`). A name with an escape is spelled with another key; a text and an
object that have one key, or a member that does not count, may stand further behind.

None of that happens in a document whose names have no escapes, if the members of
each object have different segments wherever they have different names.

## Main definitions

* `Route.spelledKey`: The key under which the place of a member is recorded.
* `Name.spanBehind`: The span of a name behind a text.
* `LastSpelled`: The last member in the source that is spelled with a key.
* `Separate`, `Plain`: Documents in which messages and spans have the same keys.

## Theorems

* `Position.eq_of_after_eq`: Different places of a text have different positions.
* `nameSpan_of_placed`, `nameSpan_of_at`: The span of a name that stands in a text.
* `spans_eq`: The spans are those of all members, the last of a key counting.
* `eq_of_nameSpan_eq`: A member is known by the span of its name.
* `get?_spans_iff`: When the place of a member is the one that is recorded.
* `exists_last_of_keeps`: Where segments are separate, no later member has those of
  one that counts.
* `spelledKey_of_plain`, `lastSpelled_of_plain`: What holds in plain documents.
* `Document.parse_locates`: When the place of a message is found.
-/

namespace Phrasebook

namespace Position

/-- Behind a character the position is in a later line, or further behind in the
    same one. -/
theorem lt_advance (p : Position) (c : Char) : p.line < (p.advance c).line ∨
    p.line = (p.advance c).line ∧ p.column < (p.advance c).column := by
  unfold advance
  by_cases hc : c = '\n'
  · rw [if_pos hc]
    exact Or.inl (Nat.lt_succ_self p.line)
  · rw [if_neg hc]
    exact Or.inr ⟨rfl, Nat.lt_add_of_pos_right (Char.utf8Size_pos c)⟩

/-- The same behind a text that is not empty. -/
theorem lt_advanceText (p : Position) (c : Char) (s : List Char) :
    p.line < (p.advanceText (c :: s)).line ∨
      p.line = (p.advanceText (c :: s)).line ∧ p.column < (p.advanceText (c :: s)).column := by
  induction s generalizing p c with
  | nil => exact lt_advance p c
  | cons d s ih =>
      have hfirst := lt_advance p c
      have hrest := ih (p.advance c) d
      have hstep : p.advanceText (c :: d :: s) = (p.advance c).advanceText (d :: s) := rfl
      rw [hstep]
      omega

/-- Different places of a text have different positions. -/
theorem eq_of_after_eq (front front' back back' : List Char)
    (h : front ++ back = front' ++ back') (hafter : after front = after front') :
    front = front' := by
  -- Any more text would lead further on.
  have hnothing : ∀ s t : List Char, after s = after (s ++ t) → t = [] := by
    intro s t heq
    cases t with
    | nil => rfl
    | cons c t =>
        exfalso
        have hlt := lt_advanceText (after s) c t
        rw [← after_append, ← heq] at hlt
        omega
  rcases List.append_eq_append_iff.mp h with ⟨x, hx, -⟩ | ⟨x, hx, -⟩
  · rw [hx, hnothing front x (by rw [← hx, hafter]), List.append_nil]
  · rw [hx, hnothing front' x (by rw [← hx, hafter]), List.append_nil]

end Position

namespace Json

namespace Route

/-- The segments that names become as they are spelled. -/
def spelledSegments (r : Route) : List String :=
  r.names.map (fun name => Key.normalize (Locale.spelledName name))

/-- The key under which the place of a member is recorded. -/
def spelledKey (r : Route) : String := Key.join r.spelledSegments

end Route

/-- The span of a name, its quotes included, behind a text. -/
def Name.spanBehind (n : Name) (front : List Char) : Span :=
  ⟨.after front, .after (front ++ '"' :: (n.spelling.toList ++ ['"']))⟩

/-- The last member in the source that is spelled with a key. -/
def LastSpelled (routes : List Route) (key : String) (r : Route) : Prop :=
  r.spelledKey = key ∧ ∃ earlier later, routes = earlier ++ r :: later ∧
    ∀ other ∈ later, other.spelledKey ≠ key

/-- Members of one object that have the same segment have the same name. -/
def Separate (members : List (Name × Tree)) : Prop :=
  ∀ r ∈ Tree.routesOfMembers members, ∀ r' ∈ Tree.routesOfMembers members, r.above = r'.above →
    Key.normalize r.name.text = Key.normalize r'.name.text → r.name.text = r'.name.text

/-- A document whose names are spelled without escapes, and have different segments
    in one object if they are different. -/
structure Plain (members : List (Name × Tree)) : Prop where
  unescaped : ∀ r ∈ Tree.routesOfMembers members, '\\' ∉ r.name.spelling.toList
  separate : Separate members

theorem Separate.inner {members inner : List (Name × Tree)} {name : Name} (h : Separate members)
    (hmem : (name, Tree.object inner) ∈ members) : Separate inner := by
  intro r hr r' hr' habove hsegment
  have hbelow : ∀ r ∈ Tree.routesOfMembers inner, r.below name ∈ Tree.routesOfMembers members := by
    intro r hr
    refine (Tree.mem_routesOfMembers_iff members _).mpr ⟨name, .object inner, hmem, Or.inr ?_⟩
    exact ⟨r, by rwa [Tree.routes], rfl⟩
  exact h (r.below name) (hbelow r hr) (r'.below name) (hbelow r' hr')
    (congrArg (name :: ·) habove) hsegment

/-- If different names of an object have different segments, what stands behind a
    member that counts, and is not inside it, differs from it in the first segment. -/
theorem Separate.head?_segments_ne {members : List (Name × Tree)} (hseparate : Separate members)
    (front back : List (Name × Tree)) (name : Name) (tree : Tree)
    (hmembers : members = front ++ (name, tree) :: back)
    (hback : ∀ m ∈ back, m.1.text ≠ name.text) (r : Route) (hr : r ∈ Tree.routesOfMembers back) :
    r.segments.head? ≠ some (Key.normalize name.text) := by
  intro heq
  rcases (Tree.mem_routesOfMembers_iff back r).mp hr with ⟨other, inner, hmem, hroute⟩
  -- The first segment of a route is that of the member of the object itself.
  have hfirst : Key.normalize other.text = Key.normalize name.text := by
    rcases hroute with rfl | ⟨r', -, rfl⟩
    · exact Option.some.inj heq
    · exact Option.some.inj heq
  -- Both members are in one object, where equal segments mean equal names.
  have hin : ∀ m ∈ (name, tree) :: back, (⟨[], m.1⟩ : Route) ∈ Tree.routesOfMembers members := by
    intro m hm
    refine (Tree.mem_routesOfMembers_iff members _).mpr ⟨m.1, m.2, ?_, Or.inl rfl⟩
    rw [hmembers]
    exact List.mem_append_right front hm
  exact hback _ hmem (hseparate _ (hin _ (List.mem_cons_of_mem _ hmem)) _
    (hin _ List.mem_cons_self) rfl hfirst)

/-- If different names of an object have different segments, no member behind one
    that the document keeps has its segments. -/
theorem exists_last_of_keeps (members : List (Name × Tree)) (route : Route) (tree : Tree)
    (h : Keeps members route tree) (hseparate : Separate members) :
    ∃ earlier later, Tree.routesOfMembers members = earlier ++ route :: later ∧
      ∀ r ∈ later, r.segments ≠ route.segments := by
  induction h with
  | @here members name tree hlast =>
      rcases hlast with ⟨front, back, hmembers, hback⟩
      refine ⟨Tree.routesOfMembers front, tree.routes.map (Route.below name) ++
        Tree.routesOfMembers back, ?_, ?_⟩
      · rw [hmembers, Tree.routesOfMembers_append, Tree.routesOfMembers]
      · -- Members inside this one have more segments.
        intro r hr heq
        rcases List.mem_append.mp hr with hinside | hbehind
        · rcases List.mem_map.mp hinside with ⟨r', -, rfl⟩
          exact r'.texts_ne_nil (List.map_eq_nil_iff.mp (List.cons.inj heq).2)
        · exact hseparate.head?_segments_ne front back name tree hmembers hback r hbehind
            (by rw [heq]; rfl)
  | @inside members inner name route tree hlast _ ih =>
      rcases ih (hseparate.inner hlast.mem) with ⟨earlier, later, hroutes, hlater⟩
      rcases hlast with ⟨front, back, hmembers, hback⟩
      refine ⟨Tree.routesOfMembers front ++ ⟨[], name⟩ :: earlier.map (Route.below name),
        later.map (Route.below name) ++ Tree.routesOfMembers back, ?_, ?_⟩
      · rw [hmembers, Tree.routesOfMembers_append, Tree.routesOfMembers, Tree.routes, hroutes,
          List.map_append, List.map_cons, List.append_assoc, List.append_assoc, List.cons_append,
          List.cons_append]
      · intro r hr heq
        rcases List.mem_append.mp hr with hinside | hbehind
        · rcases List.mem_map.mp hinside with ⟨r', hr', rfl⟩
          exact hlater r' hr' (List.cons.inj heq).2
        · exact hseparate.head?_segments_ne front back name (.object inner) hmembers hback r hbehind
            (by rw [heq]; rfl)

end Json

namespace Locale

open Json (Tree Name Route Keeps LastSpelled Plain)

/-- The span of a name that stands in a text. -/
theorem nameSpan_of_placed (name : Name) (text front back : List Char)
    (h : name.Placed text front back) : nameSpan text name = name.spanBehind front := by
  have hfront : text.take (text.length - name.distance) = front := by
    have hlength : text.length - name.distance = front.length := by
      have hdistance := h.distance
      omega
    rw [hlength, h.split, List.take_left]
  unfold nameSpan Name.spanBehind
  rw [hfront, Position.after_append]
  rfl

theorem nameSpan_of_at (name : Name) (text front back : List Char)
    (h : name.At text front back) : nameSpan text name = name.spanBehind front :=
  nameSpan_of_placed name text front back h.placed

section Spans

variable (text : List Char)

/-- Record the place of a member of the object with the given segments. -/
def record (segments : List String) (known : Dict Span) (r : Route) : Dict Span :=
  known.insert (Key.join (segments ++ r.spelledSegments)) (nameSpan text r.name)

mutual

theorem spansInValue_eq (segments : List String) (known : Dict Span) (tree : Tree) :
    spansInValue text (Key.parentOf segments) known tree =
      tree.routes.foldl (record text segments) known := by
  cases tree with
  | object members =>
      rw [spansInValue, Tree.routes]
      exact spansInMembers_eq segments known members
  | null => rfl
  | boolean _ => rfl
  | number _ => rfl
  | string _ => rfl
  | array _ => rfl
termination_by structural tree

/-- The spans that are recorded for an object are those of its members, in the
    order of the source. -/
theorem spansInMembers_eq (segments : List String) (known : Dict Span)
    (members : List (Name × Tree)) :
    spansInMembers text (Key.parentOf segments) known members =
      (Tree.routesOfMembers members).foldl (record text segments) known := by
  cases members with
  | nil => rfl
  | cons member members =>
      rcases member with ⟨name, tree⟩
      have hparent : some (Key.join (segments ++ [Key.normalize (spelledName name)])) =
          Key.parentOf (segments ++ [Key.normalize (spelledName name)]) :=
        (Key.parentOf_of_ne_nil _
          (List.append_ne_nil_of_right_ne_nil _ (List.cons_ne_nil _ _))).symm
      -- What is recorded inside a member is recorded with the segment of the member in front.
      have hbelow : ∀ known inner, record text segments known (Route.below name inner) =
          record text (segments ++ [Key.normalize (spelledName name)]) known inner := by
        intro known inner
        unfold record
        rw [List.append_assoc]
        rfl
      rw [spansInMembers, Key.extend_parentOf, hparent, spansInValue_eq, spansInMembers_eq,
        Tree.routesOfMembers, List.foldl_cons, List.foldl_append, List.foldl_map]
      simp only [hbelow]
      rfl
termination_by structural members

end

end Spans

/-- The spans of a document are those of all members that can be reached; of equal
    keys the last counts. -/
theorem spans_eq (text : String) (tree : Tree) : spans text tree =
    Dict.ofList (tree.routes.map (fun r => (r.spelledKey, nameSpan text.toList r.name))) := by
  rw [Dict.ofList, List.foldl_map]
  exact spansInValue_eq text.toList [] .empty tree

section Parsed

variable (text : String) (tree : Tree) (h : Json.parse text = .ok tree)

include h

/-- The name of each member that can be reached stands in the text. -/
theorem exists_at_of_mem_routes (r : Route) (hr : r ∈ tree.routes) :
    ∃ front back, r.name.At text.toList front back := by
  rcases Json.stands_of_parse text tree h with ⟨rest, hstands⟩
  rcases hstands.exists_placed r.name (List.mem_map_of_mem hr) with
    ⟨hreads, front, back, hplaced⟩
  exact ⟨front, back, hplaced.at_of_reads hreads⟩

/-- A member is known by the span of its name. -/
theorem eq_of_nameSpan_eq (r r' : Route) (hr : r ∈ tree.routes) (hr' : r' ∈ tree.routes)
    (hspan : nameSpan text.toList r.name = nameSpan text.toList r'.name) : r = r' := by
  rcases Json.stands_of_parse text tree h with ⟨rest, hstands⟩
  rcases exists_at_of_mem_routes text tree h r hr with ⟨front, back, hat⟩
  rcases exists_at_of_mem_routes text tree h r' hr' with ⟨front', back', hat'⟩
  rw [nameSpan_of_at _ _ _ _ hat, nameSpan_of_at _ _ _ _ hat', Name.spanBehind, Name.spanBehind,
    Span.mk.injEq] at hspan
  have hfront := Position.eq_of_after_eq _ _ _ _ (hat.split.symm.trans hat'.split) hspan.1
  have hdistance : r.name.distance = r'.name.distance := by
    have hfirst := hat.distance
    have hsecond := hat'.distance
    rw [hfront] at hfirst
    omega
  -- No two names have the same distance from the end.
  have hnodup : (tree.routes.map (fun r => r.name.distance)).Nodup := by
    have hpairwise := hstands.pairwise_distance
    rw [Tree.names, List.pairwise_map] at hpairwise
    exact List.pairwise_map.mpr (hpairwise.imp (fun hlt => Nat.ne_of_gt hlt))
  exact List.inj_on_of_nodup_map hnodup hr hr' hdistance

/-- The place of a member is the one that is recorded for a key exactly if it is the
    last that is spelled with it. -/
theorem get?_spans_iff (r : Route) (hr : r ∈ tree.routes) (key : String) :
    (spans text tree).get? key = some (nameSpan text.toList r.name) ↔
      LastSpelled tree.routes key r := by
  rw [spans_eq, Dict.get?_ofList_map_iff]
  constructor
  · rintro ⟨earlier, r', later, hroutes, heq, hlater⟩
    rcases Prod.mk.inj heq with ⟨hkey, hspan⟩
    have hr' : r' ∈ tree.routes := by
      rw [hroutes]
      exact List.mem_append_right earlier List.mem_cons_self
    -- The span was recorded for some member, which is this one since spans differ.
    have hsame := eq_of_nameSpan_eq text tree h r' r hr' hr hspan
    subst hsame
    exact ⟨hkey, earlier, later, hroutes, hlater⟩
  · rintro ⟨hkey, earlier, later, hroutes, hlater⟩
    exact ⟨earlier, r, later, hroutes, Prod.ext hkey rfl, hlater⟩

end Parsed

/-- A name without escapes is spelled as it is meant. -/
theorem spelledName_of_at (name : Name) (text front back : List Char)
    (h : name.At text front back) (hplain : '\\' ∉ name.spelling.toList) :
    spelledName name = name.text := by
  rcases Json.Quoted.eq_of_read_of_not_mem _ _ _ h.reads hplain with ⟨htext, hquote⟩
  have hdrop : ∀ s : List Char, '"' ∉ s → s.dropWhile (· == '"') = s := by
    intro s hs
    cases s with
    | nil => rfl
    | cons c cs =>
        refine List.dropWhile_cons_of_neg (fun hc => hs ?_)
        rw [← beq_iff_eq.mp hc]
        exact List.mem_cons_self
  -- Quotes are trimmed from the spelling, and without escapes there are none inside it.
  have htrim : Text.trimBy (· == '"') name.spelling.toList = name.spelling.toList := by
    rw [Text.trimBy, hdrop _ hquote, hdrop _ (fun hmem => hquote (List.mem_reverse.mp hmem)),
      List.reverse_reverse]
  rw [spelledName, htrim, ← htext, String.ofList_toList]

section Plain

variable (text : String) (members : List (Name × Tree))
  (h : Json.parse text = .ok (.object members)) (hplain : Plain members)

include h hplain

/-- In a plain document places are recorded for the keys that members are flattened
    to. -/
theorem spelledKey_of_plain (r : Route) (hr : r ∈ Tree.routesOfMembers members) :
    r.spelledKey = r.key := by
  unfold Route.spelledKey Route.key Route.spelledSegments Route.segments Route.texts
  rw [List.map_map]
  refine congrArg Key.join (List.map_congr_left (fun name hname => ?_))
  have hr : r ∈ (Tree.object members).routes := by rwa [Tree.routes]
  rcases Tree.exists_route_of_mem_names (.object members) r hr name hname with ⟨r', hr', rfl⟩
  rcases exists_at_of_mem_routes text (.object members) h r' hr' with ⟨front, back, hat⟩
  rw [Tree.routes] at hr'
  exact congrArg Key.normalize (spelledName_of_at r'.name _ _ _ hat (hplain.unescaped r' hr'))

/-- In a plain document every member that is kept is the last with its key. -/
theorem lastSpelled_of_plain (route : Route) (tree : Tree) (hkeeps : Keeps members route tree) :
    LastSpelled (Tree.routesOfMembers members) route.key route := by
  rcases Json.exists_last_of_keeps members route tree hkeeps hplain.separate with
    ⟨earlier, later, hroutes, hlater⟩
  have hin : ∀ r ∈ route :: later, r ∈ Tree.routesOfMembers members := by
    intro r hr
    rw [hroutes]
    exact List.mem_append_right earlier hr
  refine ⟨spelledKey_of_plain text members h hplain route (hin _ List.mem_cons_self), earlier,
    later, hroutes, fun r hr heq => ?_⟩
  rw [spelledKey_of_plain text members h hplain r (hin _ (List.mem_cons_of_mem _ hr))] at heq
  -- Joined segments are known by the key, as none has a separator.
  have hfree : ∀ r : Route, ∀ s ∈ r.segments, Key.separator ∉ s.toList := by
    intro r s hs
    rcases List.mem_map.mp hs with ⟨name, -, rfl⟩
    exact Key.separator_not_mem_normalize name
  have hne : ∀ r : Route, r.segments ≠ [] :=
    fun r hnil => r.texts_ne_nil (List.map_eq_nil_iff.mp hnil)
  refine hlater r hr ?_
  exact Key.eq_of_join_eq_of_ne_nil _ _ (hne r) (hne route) (hfree r) (hfree route) heq

end Plain

end Locale

namespace Document

open Json (Keeps LastSpelled Plain)

/-- A document has the messages and the spans of an object. -/
theorem exists_members_of_parse (locale path text : String) (d : Document)
    (h : parse locale path text = .ok d) : ∃ members, Json.parse text = .ok (.object members) ∧
      Locale.flatten (Json.Tree.object members).value = .ok d.messages ∧
      d.spans = Locale.spans text (.object members) ∧ d.path = path := by
  unfold parse at h
  cases htree : Json.parse text with
  | error cause =>
      rw [htree] at h
      cases h
  | ok tree =>
      rw [htree] at h
      dsimp only at h
      cases hflat : Locale.flatten tree.value with
      | error cause =>
          rw [hflat] at h
          cases h
      | ok messages =>
          rw [hflat] at h
          cases h
          cases tree with
          -- Flattening refuses everything but an object.
          | object members => exact ⟨members, rfl, hflat, rfl, rfl⟩
          | null => cases hflat
          | boolean _ => cases hflat
          | number _ => cases hflat
          | string _ => cases hflat
          | array _ => cases hflat

/-- Each message of a document is the text of one member that its source keeps, whose
    name stands in quotes in the text. That place is where the key of the message is
    found exactly if the member is the last in the source that is spelled with the
    key. In a plain document every message is found where it stands. -/
theorem parse_locates (locale path text : String) (d : Document)
    (h : parse locale path text = .ok d) :
    ∃ members, Json.parse text = .ok (.object members) ∧
      ∀ key value, d.messages.get? key = some value → ∃ route front back,
        (Keeps members route (.string value) ∧ route.key = key ∧
          ∀ other value', Keeps members other (.string value') → other.key = key → other = route) ∧
        route.name.At text.toList front back ∧
        (d.locate? key = some ⟨path, route.name.spanBehind front⟩ ↔
          LastSpelled (Json.Tree.routesOfMembers members) key route) ∧
        (Plain members → d.locate? key = some ⟨path, route.name.spanBehind front⟩) := by
  rcases exists_members_of_parse locale path text d h with
    ⟨members, htree, hflat, hspans, hpath⟩
  refine ⟨members, htree, fun key value hvalue => ?_⟩
  rcases (Locale.get?_flatten_iff members d.messages hflat key value).mp hvalue with
    ⟨route, hkeeps, hkey⟩
  have hroute : route ∈ (Json.Tree.object members).routes := by
    rw [Json.Tree.routes]
    exact hkeeps.mem_routes
  rcases Locale.exists_at_of_mem_routes text (.object members) htree route hroute with
    ⟨front, back, hat⟩
  -- The place that is found is the one that was recorded, in the document of the path.
  have hlocated : d.locate? key = some ⟨path, route.name.spanBehind front⟩ ↔
      LastSpelled (Json.Tree.routesOfMembers members) key route := by
    have hrecorded := Locale.get?_spans_iff text (.object members) htree route hroute key
    rw [Locale.nameSpan_of_at _ _ _ _ hat, Json.Tree.routes] at hrecorded
    rw [← hrecorded, locate?, hspans, hpath, Option.map_eq_some_iff]
    constructor
    · rintro ⟨span, hspan, heq⟩
      rw [hspan, (Location.mk.inj heq).2]
    · intro hspan
      exact ⟨_, hspan, rfl⟩
  refine ⟨route, front, back, ⟨hkeeps, hkey, ?_⟩, hat, hlocated, fun hplain => ?_⟩
  · intro other value' hother hsame
    exact Locale.eq_of_keeps_of_flatten members d.messages hflat other route value' value hother
      hkeeps (hsame.trans hkey.symm)
  · rw [hlocated, ← hkey]
    exact Locale.lastSpelled_of_plain text members htree hplain route (.string value) hkeeps

/-- A plain document in which a member of an inner object has a duplicate: the later one is
    found, on the second line and behind a letter of two bytes. -/
theorem parse_locates_greeting : ∃ text d members route front back,
    text = "\x7b\"menu\":\x7b\"open\":\"Hi\",\n" ++
      " \"ö\":\"x\",\"open\":\"Hello\"\x7d,\"a\":\x7b\"ö\":\"y\"\x7d\x7d" ∧
    parse "en" "en.json" text = .ok d ∧
    Json.parse text = .ok (.object members) ∧ Plain members ∧
    d.messages.pairs = [("a.ö", "y"), ("menu.open", "Hello"), ("menu.ö", "x")] ∧
    Keeps members route (.string "Hello") ∧ route.name.At text.toList front back ∧
    route.name.spanBehind front = ⟨⟨1, 10⟩, ⟨1, 16⟩⟩ ∧
    d.locate? "menu.open" = some ⟨"en.json", route.name.spanBehind front⟩ := by
  obtain ⟨text, htext⟩ : ∃ text, text = "\x7b\"menu\":\x7b\"open\":\"Hi\",\n" ++
      " \"ö\":\"x\",\"open\":\"Hello\"\x7d,\"a\":\x7b\"ö\":\"y\"\x7d\x7d" :=
    ⟨_, rfl⟩
  -- More than plainness asks for: the names of all objects are different once normalized.
  have hnames : (Json.parse text).toOption.map (fun tree => decide (∀ r ∈ tree.routes,
      '\\' ∉ r.name.spelling.toList ∧ ∀ r' ∈ tree.routes,
        Key.normalize r.name.text = Key.normalize r'.name.text → r.name.text = r'.name.text)) =
      some true := by
    rw [htext]
    decide +kernel
  have hseen : (parse "en" "en.json" text).toOption.map
      (fun d => (d.messages.pairs, d.messages.get? "menu.open", d.locate? "menu.open")) =
      some ([("a.ö", "y"), ("menu.open", "Hello"), ("menu.ö", "x")], some "Hello",
        some ⟨"en.json", ⟨1, 10⟩, ⟨1, 16⟩⟩) := by
    rw [htext]
    decide +kernel
  cases h : parse "en" "en.json" text with
  | error cause =>
      rw [h] at hseen
      cases hseen
  | ok d =>
      rw [h, Except.toOption, Option.map_some, Option.some.injEq, Prod.mk.injEq,
        Prod.mk.injEq] at hseen
      rcases hseen with ⟨hpairs, hmessage, hplace⟩
      rcases parse_locates _ _ _ d h with ⟨members, hparse, hall⟩
      rcases hall "menu.open" "Hello" hmessage with
        ⟨route, front, back, ⟨hkeeps, -⟩, hat, -, hlocated⟩
      rw [hparse, Except.toOption, Option.map_some, Option.some.injEq, decide_eq_true_eq,
        Json.Tree.routes] at hnames
      have hplain : Plain members :=
        ⟨fun r hr => (hnames r hr).1, fun r hr r' hr' _ hsame => (hnames r hr).2 r' hr' hsame⟩
      have hfound := hlocated hplain
      have hspan := (Location.mk.inj (Option.some.inj (hfound.symm.trans hplace))).2
      exact ⟨text, d, members, route, front, back, htext, h, hparse, hplain, hpairs, hkeeps, hat,
        hspan, hfound⟩

/-- A name with an escape is not found by the key of its message. -/
example : (parse "en" "en.json" "\x7b\"\\u0061\": \"x\"\x7d").toOption.map
    (fun d => (d.messages.pairs, d.locate? "a")) = some ([("a", "x")], none) := by
  decide +kernel

end Document

end Phrasebook
