import Mathlib.Data.List.Infix
import Phrasebook.Proofs.Outline

/-!
# Names in Their Source

A tree keeps for each name how it is spelled and how far it stands from the end of
the document. That these agree with the text is not said by the type of names, it
follows from how the document is written. Every rule of the grammar leaves an end of
the text that it starts from, so the distance of a name, which is the length of what
was left when its quote was reached, is counted to the end of the whole document.

`Stands` is what the rules keep: the names of some members follow one another in a
text, each in its quotes and each behind the one before. Of two texts that follow one
another the names do too, so `Stands` holds of a tree if it holds of the members of
each object in it (`stands_of_written`).

## Main definitions

* `Name.At`: A name stands at a place of a text, and reads as it should.
* `Name.Placed`: A name stands at a place of a text, however it reads.
* `Stands`: Names follow one another in a text.
* `Route`: A member that can be reached through objects, with the names above it.
* `Tree.routes`: The members that can be reached, in the order of the source.

## Theorems

* `Quoted.eq_of_read_of_not_mem`: A string without escapes reads as it is spelled.
* `Stands.append`: Names in two texts that follow one another.
* `Stands.pairwise_distance`, `Stands.exists_placed`: What it says of the names.
* `Tree.mem_routesOfMembers_iff`, `Tree.routesOfMembers_append`: The members that
  can be reached in an object.
* `stands_of_pair`, `stands_of_listed`: The names of members stand in their text.
* `stands_of_written`, `Outlines.stands`: Those of a value and of a document do.
* `stands_of_parse`: The names of a document that is read read as they should.
-/

namespace Phrasebook

namespace Json

namespace Quoted

/-- A string without escapes reads as it is spelled. -/
theorem eq_of_read_of_not_mem (spelled rest text : List Char)
    (h : read (spelled ++ '"' :: rest) = .ok (text, rest)) (hplain : '\\' ∉ spelled) :
    text = spelled ∧ '"' ∉ spelled := by
  unfold read at h
  induction spelled generalizing text with
  | nil =>
      rw [List.nil_append, readFrom, if_pos rfl] at h
      cases h
      exact ⟨rfl, List.not_mem_nil⟩
  | cons c cs ih =>
      rcases not_or.mp (fun hmem => hplain (List.mem_cons.mpr hmem)) with ⟨hescape, hcs⟩
      rw [List.cons_append, readFrom] at h
      by_cases hquote : c = '"'
      · -- The string would end here, and more be left than there is.
        exfalso
        rw [if_pos hquote] at h
        have hlength := congrArg List.length (Prod.mk.inj (Except.ok.inj h)).2
        rw [List.length_append, List.length_cons] at hlength
        omega
      · rw [if_neg hquote, if_neg (fun heq => hescape heq.symm)] at h
        by_cases hcontrol : c < ' '
        · rw [if_pos hcontrol] at h
          cases h
        · rw [if_neg hcontrol] at h
          rcases (Fallible.bind_eq_ok_iff _ _ _).mp h with ⟨⟨behind, left⟩, hread, h⟩
          cases h
          rcases ih behind hread hcs with ⟨rfl, hfree⟩
          refine ⟨rfl, fun hmem => ?_⟩
          rcases List.mem_cons.mp hmem with heq | hmem
          · exact hquote heq.symm
          · exact hfree hmem

end Quoted

/-- A name stands between two parts of a text, in its quotes, and what stands there
    reads as the text of the name. -/
structure Name.At (n : Name) (text front back : List Char) : Prop where
  split : text = front ++ '"' :: (n.spelling.toList ++ '"' :: back)
  reads : Quoted.read (n.spelling.toList ++ '"' :: back) = .ok (n.text.toList, back)
  distance : n.distance + front.length = text.length

/-- A name stands between two parts of a text, in its quotes, and knows its distance
    from the end. -/
structure Name.Placed (n : Name) (text front back : List Char) : Prop where
  split : text = front ++ '"' :: (n.spelling.toList ++ '"' :: back)
  distance : n.distance + front.length = text.length

theorem Name.At.placed {n : Name} {s front back : List Char} (h : n.At s front back) :
    n.Placed s front back := ⟨h.split, h.distance⟩

theorem Name.Leads.placed {n : Name} {s back : List Char} (h : n.Leads s back) :
    n.Placed s [] back := ⟨h.split, h.distance⟩

/-- Names follow one another in a text, and behind the last of them `rest` is left. -/
inductive Stands (named : Name → Prop) : List Char → List Name → List Char → Prop where
  | nil {s rest : List Char} : rest <:+ s → Stands named s [] rest
  | cons {s rest front back : List Char} {n : Name} {names : List Name} :
      n.Placed s front back → named n → Stands named back names rest →
      Stands named s (n :: names) rest

namespace Name.Placed

variable {n : Name} {s front back : List Char}

theorem of_suffix (h : n.Placed s front back) (t : List Char) (hs : s <:+ t) :
    ∃ front', n.Placed t front' back := by
  rcases hs with ⟨before, rfl⟩
  refine ⟨before ++ front, by rw [List.append_assoc, ← h.split], ?_⟩
  have hdistance := h.distance
  rw [List.length_append, List.length_append]
  omega

theorem suffix (h : n.Placed s front back) : back <:+ s :=
  ⟨front ++ '"' :: (n.spelling.toList ++ ['"']), by
    rw [h.split, List.append_assoc, List.cons_append, List.append_assoc, List.singleton_append]⟩

/-- Everything behind a name is nearer to the end than the name is. -/
theorem length_lt (h : n.Placed s front back) : back.length < n.distance := by
  have hlength := congrArg List.length h.split
  have hdistance := h.distance
  rw [List.length_append, List.length_cons, List.length_append, List.length_cons] at hlength
  omega

theorem distance_le (h : n.Placed s front back) : n.distance ≤ s.length := by
  have hdistance := h.distance
  omega

/-- A name that reads as it should does so where it stands. -/
theorem at_of_reads (h : n.Placed s front back) (hreads : n.Reads) : n.At s front back :=
  ⟨h.split, Quoted.read_of_spells _ _ _ (hreads back), h.distance⟩

end Name.Placed

namespace Stands

variable {named : Name → Prop} {s mid rest : List Char} {names more : List Name}

theorem of_suffix (h : Stands named s names rest) (t : List Char) (hs : s <:+ t) :
    Stands named t names rest := by
  cases h with
  | nil hrest => exact .nil (hrest.trans hs)
  | cons hplaced hname hnames =>
      rcases hplaced.of_suffix t hs with ⟨front', hplaced'⟩
      exact .cons hplaced' hname hnames

theorem suffix (h : Stands named s names rest) : rest <:+ s := by
  induction h with
  | nil hrest => exact hrest
  | cons hplaced _ _ ih => exact ih.trans hplaced.suffix

/-- Names in two texts that follow one another. -/
theorem append (h : Stands named s names mid) (hmore : Stands named mid more rest) :
    Stands named s (names ++ more) rest := by
  induction h with
  | nil hmid => exact hmore.of_suffix _ hmid
  | cons hplaced hname _ ih => exact .cons hplaced hname (ih hmore)

theorem distance_le (h : Stands named s names rest) : ∀ n ∈ names, n.distance ≤ s.length := by
  induction h with
  | nil _ => exact fun n hn => absurd hn List.not_mem_nil
  | cons hplaced _ _ ih =>
      refine List.forall_mem_cons.mpr ⟨hplaced.distance_le, fun n hn => ?_⟩
      exact (ih n hn).trans hplaced.suffix.length_le

/-- Each name is nearer to the end than those before it. -/
theorem pairwise_distance (h : Stands named s names rest) :
    names.Pairwise (fun n m => m.distance < n.distance) := by
  induction h with
  | nil _ => exact List.Pairwise.nil
  | cons hplaced _ hnames ih =>
      refine List.pairwise_cons.mpr ⟨fun m hm => ?_, ih⟩
      exact Nat.lt_of_le_of_lt (hnames.distance_le m hm) hplaced.length_lt

/-- Each name has its place in the text. -/
theorem exists_placed (h : Stands named s names rest) :
    ∀ n ∈ names, named n ∧ ∃ front back, n.Placed s front back := by
  induction h with
  | nil _ => exact fun n hn => absurd hn List.not_mem_nil
  | cons hplaced hname _ ih =>
      refine List.forall_mem_cons.mpr ⟨⟨hname, _, _, hplaced⟩, fun n hn => ?_⟩
      rcases ih n hn with ⟨hn, front, back, hplaced'⟩
      -- What is placed in a rest of the text is placed in the text.
      rcases hplaced'.of_suffix _ hplaced.suffix with ⟨front', hplaced'⟩
      exact ⟨hn, front', back, hplaced'⟩

end Stands

/-- A member that can be reached through objects: its name, and those of the members
    that it is in, the outermost first. -/
structure Route where
  above : List Name
  name : Name

/-- The names that lead to a member. -/
def Route.names (r : Route) : List Name := r.above ++ [r.name]

/-- The route of a member inside the member with the given name. -/
def Route.below (n : Name) (r : Route) : Route := ⟨n :: r.above, r.name⟩

mutual

/-- The members that can be reached in a value, in the order of the source. Those of
    objects in an array cannot. -/
def Tree.routes : Tree → List Route
  | .object members => Tree.routesOfMembers members
  | _ => []
termination_by structural tree => tree

/-- The members of an object, each followed by those that can be reached in it. -/
def Tree.routesOfMembers : List (Name × Tree) → List Route
  | [] => []
  | (name, tree) :: members =>
    ⟨[], name⟩ :: (tree.routes.map (Route.below name) ++ Tree.routesOfMembers members)
termination_by structural members => members

end

theorem Tree.mem_routesOfMembers_iff (members : List (Name × Tree)) (r : Route) :
    r ∈ Tree.routesOfMembers members ↔ ∃ name tree, (name, tree) ∈ members ∧
      (r = ⟨[], name⟩ ∨ ∃ inner ∈ tree.routes, inner.below name = r) := by
  induction members with
  | nil =>
      rw [routesOfMembers]
      constructor
      · intro h
        exact absurd h List.not_mem_nil
      · rintro ⟨_, _, h, -⟩
        exact absurd h List.not_mem_nil
  | cons member members ih =>
      rcases member with ⟨name, tree⟩
      rw [routesOfMembers, List.mem_cons, List.mem_append, ih, List.mem_map]
      constructor
      · rintro (hfirst | hinside | ⟨name', tree', hmem, hroute⟩)
        · exact ⟨name, tree, List.mem_cons_self, Or.inl hfirst⟩
        · exact ⟨name, tree, List.mem_cons_self, Or.inr hinside⟩
        · exact ⟨name', tree', List.mem_cons_of_mem _ hmem, hroute⟩
      · rintro ⟨name', tree', hmem, hroute⟩
        -- The member itself first, then the routes below it, then the other members.
        rcases List.mem_cons.mp hmem with heq | hmem
        · rcases Prod.mk.inj heq with ⟨rfl, rfl⟩
          exact hroute.imp id Or.inl
        · exact Or.inr (Or.inr ⟨name', tree', hmem, hroute⟩)

theorem Tree.routesOfMembers_append (front back : List (Name × Tree)) :
    Tree.routesOfMembers (front ++ back) =
      Tree.routesOfMembers front ++ Tree.routesOfMembers back := by
  induction front with
  | nil => rfl
  | cons member front ih =>
      rw [List.cons_append, routesOfMembers, ih, routesOfMembers, List.cons_append,
        List.append_assoc]

/-- A name above a member is that of a member itself. -/
theorem Tree.exists_route_of_mem_names (tree : Tree) (r : Route) (hr : r ∈ tree.routes) (n : Name)
    (hn : n ∈ r.names) : ∃ r' ∈ tree.routes, r'.name = n := by
  rcases r with ⟨above, name⟩
  -- The induction is on the names above, each of which leads one object further in.
  induction above generalizing tree with
  | nil => exact ⟨_, hr, (List.mem_singleton.mp hn).symm⟩
  | cons first above ih =>
      cases tree with
      | object members =>
          rw [routes] at hr ⊢
          rcases (mem_routesOfMembers_iff members _).mp hr with ⟨name', inner, hmem, hroute⟩
          rcases hroute with heq | ⟨r, hinner, heq⟩
          · cases heq
          · cases heq
            rcases List.mem_cons.mp hn with rfl | hn
            · exact ⟨⟨[], n⟩, (mem_routesOfMembers_iff members _).mpr
                ⟨n, inner, hmem, Or.inl rfl⟩, rfl⟩
            · rcases ih inner hinner hn with ⟨r', hr', rfl⟩
              exact ⟨r'.below first, (mem_routesOfMembers_iff members _).mpr
                ⟨first, inner, hmem, Or.inr ⟨r', hr', rfl⟩⟩, rfl⟩
      | null => exact absurd hr List.not_mem_nil
      | boolean _ => exact absurd hr List.not_mem_nil
      | number _ => exact absurd hr List.not_mem_nil
      | string _ => exact absurd hr List.not_mem_nil
      | array _ => exact absurd hr List.not_mem_nil

/-- The names of the members that can be reached in a value. -/
def Tree.names (tree : Tree) : List Name := tree.routes.map Route.name

theorem Tree.names_cons (name : Name) (tree : Tree) (members : List (Name × Tree)) :
    (Tree.object ((name, tree) :: members)).names =
      name :: (tree.names ++ (Tree.object members).names) := by
  unfold names
  rw [routes, routesOfMembers, List.map_cons, List.map_append, List.map_map, routes]
  rfl

theorem Blanks.suffix {s rest : List Char} (h : Blanks s rest) : rest <:+ s := by
  induction h with
  | none => exact List.suffix_rfl
  | cons _ _ ih => exact ih.trans (List.suffix_cons _ _)

theorem Listed.suffix {α : Type} {close : Char} {item : List Char → α → List Char → Prop}
    {first : Bool} {s rest : List Char} {xs : List α} (h : Listed close item first s xs rest)
    (hitem : ∀ s x rest, item s x rest → rest <:+ s) : rest <:+ s := by
  induction h with
  | close hblanks => exact (List.suffix_cons _ _).trans hblanks.suffix
  | first hblanks hx _ ih => exact (ih.trans (hitem _ _ _ hx)).trans hblanks.suffix
  | next hcomma hblanks hx _ ih =>
      exact ((ih.trans (hitem _ _ _ hx)).trans hblanks.suffix).trans
        ((List.suffix_cons _ _).trans hcomma.suffix)

theorem Scalar.names_eq_nil {s rest : List Char} {tree : Tree} (h : Scalar s tree rest) :
    tree.names = [] := by
  cases h <;> rfl

theorem Scalar.suffix {s rest : List Char} {tree : Tree} (h : Scalar s tree rest) : rest <:+ s := by
  cases h with
  | null => exact List.suffix_append ['n', 'u', 'l', 'l'] rest
  | yes => exact List.suffix_append ['t', 'r', 'u', 'e'] rest
  | no => exact List.suffix_append ['f', 'a', 'l', 's', 'e'] rest
  | number _ => exact List.suffix_append _ rest
  | @string spelled rest text _ =>
      exact ((List.suffix_cons '"' rest).trans (List.suffix_append spelled _)).trans
        (List.suffix_cons '"' _)

section Written

variable {named : Name → Prop} {written : List Char → Tree → List Char → Prop}
  (hwritten : ∀ s tree rest, written s tree rest → Stands named s tree.names rest)

include hwritten

/-- The names of a member stand in front of those of the members behind it. -/
theorem stands_of_pair (front behind rest : List Char) (x : Name × Tree)
    (members : List (Name × Tree)) (h : Pair named written front x behind)
    (hbehind : Stands named behind (Tree.object members).names rest) :
    Stands named front (Tree.object (x :: members)).names rest := by
  rcases h with ⟨behindName, behindColon, value, hleads, hname, hcolon, hblanks, hvalue⟩
  have hcolon' := (List.suffix_cons ':' _).trans hcolon.suffix
  -- The names inside the value stand behind the colon.
  have hinside := (hwritten value x.2 behind hvalue).of_suffix behindName
    (hblanks.suffix.trans hcolon')
  rw [Tree.names_cons]
  exact .cons hleads.placed hname (hinside.append hbehind)

/-- The names of the members of an object stand in its text. -/
theorem stands_of_listed (first : Bool) (s rest : List Char) (members : List (Name × Tree))
    (h : Listed '\x7d' (Pair named written) first s members rest) :
    Stands named s (Tree.object members).names rest := by
  induction h with
  | close hblanks => exact .nil ((List.suffix_cons _ _).trans hblanks.suffix)
  | first hblanks hx _ ih =>
      exact (stands_of_pair hwritten _ _ _ _ _ hx ih).of_suffix _ hblanks.suffix
  | next hcomma hblanks hx _ ih =>
      have hcomma' := (List.suffix_cons ',' _).trans hcomma.suffix
      exact (stands_of_pair hwritten _ _ _ _ _ hx ih).of_suffix _ (hblanks.suffix.trans hcomma')

end Written

/-- The names of a value stand in the text that writes it. -/
theorem stands_of_written (named : Name → Prop) (depth : Nat) (s : List Char) (tree : Tree)
    (rest : List Char) (h : Written named depth s tree rest) : Stands named s tree.names rest := by
  have hscalar : ∀ s tree rest, Scalar s tree rest → Stands named s tree.names rest := by
    intro s tree rest h
    rw [h.names_eq_nil]
    exact .nil h.suffix
  induction depth generalizing s tree rest with
  | zero => exact hscalar s tree rest h
  | succ depth ih =>
      rcases h with h | ⟨t, items, rfl, rfl, hitems⟩ | ⟨t, members, rfl, rfl, hmembers⟩
      · exact hscalar s tree rest h
      · -- The members of objects in an array cannot be reached.
        have hrest := hitems.suffix (fun s tree rest h => (ih s tree rest h).suffix)
        exact .nil (hrest.trans (List.suffix_cons '[' t))
      · exact (stands_of_listed ih true t rest members hmembers).of_suffix _ (List.suffix_cons _ t)

/-- The names of a document stand in its text. -/
theorem Outlines.stands {named : Name → Prop} {tree : Tree} {text : String}
    (h : Outlines named tree text) : ∃ rest, Stands named text.toList tree.names rest := by
  rcases h with ⟨depth, front, rest, hfront, hwritten, -⟩
  exact ⟨rest, (stands_of_written named depth front tree rest hwritten).of_suffix _ hfront.suffix⟩

/-- The names of a document that is read stand in its text. -/
theorem stands_of_parse (text : String) (tree : Tree) (h : parse text = .ok tree) :
    ∃ rest, Stands Name.Reads text.toList tree.names rest :=
  (outlines_of_parse text tree h).stands

end Json

end Phrasebook
