import Phrasebook.Proofs.Places

/-!
# Plain Paths

A path whose names are neither `.` nor `..`, and that does not start at the root of the
machine, leads to the place of its names or nowhere. Slashes that follow one another
mean nothing for that, and one at the end only asks for a directory.

Whether it leads anywhere depends on the text, which may be too long (`Path.Fits`), and
on the tree. What is found at a plain path is what is at its place
(`FileTree.find?_eq_some_iff`), so two trees that have the same there cannot be told
apart by it.

## Main definitions

* `Path.Plain`: A path that leads down from the working directory.
* `Path.Fits`: The system takes a path of that length.
* `FileTree.Writable`: A file can be written at a path.

## Theorems

* `Path.names_join`: The names of a path below another one.
* `Path.Fits.of_join`: A path is short enough if one below it is.
* `FileTree.locate?_eq_some_iff`: The place that a plain path leads to.
* `FileTree.find?_eq_some_iff`, `FileTree.content?_eq_some_iff`: What it leads to.
* `FileTree.writeFile_cases`, `FileTree.removeDirectories_of_directory`,
  `FileTree.grown_makeDirectories`: What actions do at a plain path.
* `FileTree.makeDirectories_eq_true_iff`: When a directory can be made.
-/

namespace Phrasebook

namespace Path

/-- A path that leads down from the working directory, name by name. -/
def Plain (path : String) : Prop := isAbsolute path = false ∧ AllPlain (names path)

instance (path : String) : Decidable (Plain path) := inferInstanceAs (Decidable (_ ∧ _))

/-- A path with a slash at the end. -/
def EndsInSlash (path : String) : Prop := path.toList.getLast? = some '/'

/-- A path that is short enough as a whole, and so are its names. -/
def Fits (path : String) : Prop :=
  isLocal path = true ∧ ∀ name ∈ names path, isShort name = true

/-- A text that can be the name of a file or directory: it is not empty, and has no
    slash. -/
def IsName (name : String) : Prop := name ≠ "" ∧ '/' ∉ name.toList

instance (name : String) : Decidable (IsName name) := inferInstanceAs (Decidable (_ ∧ _))

/-- What a name is put behind is still a name, unless it has a slash. -/
theorem isName_append (front back : String) (hfront : '/' ∉ front.toList)
    (hback : IsName back) : IsName (front ++ back) := by
  constructor
  · intro hempty
    have hlists := congrArg String.toList hempty
    rw [String.toList_append] at hlists
    exact hback.1 (String.toList_eq_nil_iff.mp (List.append_eq_nil_iff.mp hlists).2)
  · rw [String.toList_append]
    intro hmem
    exact (List.mem_append.mp hmem).elim hfront hback.2

theorem names_empty : names "" = [] := by decide

theorem names_of_isName (name : String) (h : IsName name) : names name = [name] := by
  have hslash : ∀ l ∈ [name.toList], '/' ∉ l := fun l hl => List.mem_singleton.mp hl ▸ h.2
  have hsplit := List.splitOn_intercalate '/' hslash (List.cons_ne_nil _ _)
  rw [List.intercalate_singleton] at hsplit
  have hempty : (!name.isEmpty) = true := by
    rw [Bool.not_eq_true', Bool.eq_false_iff, ne_eq, String.isEmpty_iff]
    exact h.1
  rw [names, hsplit, List.map_singleton, String.ofList_toList, List.filter_cons, if_pos hempty,
    List.filter_nil]

/-- The names on both sides of a slash. -/
theorem names_append (front back : String) :
    names (front ++ "/" ++ back) = names front ++ names back := by
  have hslash : "/".toList = ['/'] := rfl
  have htext : (front ++ "/" ++ back).toList = front.toList ++ '/' :: back.toList := by
    rw [String.toList_append, String.toList_append, hslash, List.append_assoc, List.singleton_append]
  rw [names, htext, List.splitOn_append_cons_self, List.map_append, List.filter_append]
  rfl

theorem exists_of_endsInSlash (path : String) (h : EndsInSlash path) :
    ∃ front, path = front ++ "/" := by
  rcases List.getLast?_eq_some_iff.mp h with ⟨front, hfront⟩
  refine ⟨String.ofList front, String.toList_inj.mp ?_⟩
  have hslash : "/".toList = ['/'] := rfl
  rw [String.toList_append, String.toList_ofList, hslash, hfront]

theorem isAbsolute_of_isName (name : String) (h : IsName name) : isAbsolute name = false := by
  rw [isAbsolute, beq_eq_false_iff_ne]
  intro hhead
  exact h.2 (List.mem_of_mem_head? hhead)

theorem join_of_open (base name : String) (hname : IsName name)
    (h : base = "" ∨ EndsInSlash base) : join base name = base ++ name := by
  have hopen : (base.isEmpty || base.toList.getLast? == some '/') = true := by
    rw [Bool.or_eq_true, String.isEmpty_iff, beq_iff_eq]
    exact h
  rw [join, isAbsolute_of_isName name hname, if_neg Bool.false_ne_true, if_pos hopen]

theorem join_of_not_open (base name : String) (hname : IsName name) (hempty : base ≠ "")
    (hslash : ¬ EndsInSlash base) : join base name = base ++ "/" ++ name := by
  have hopen : (base.isEmpty || base.toList.getLast? == some '/') = false := by
    rw [Bool.or_eq_false_iff, beq_eq_false_iff_ne, Bool.eq_false_iff, ne_eq, String.isEmpty_iff]
    exact ⟨hempty, hslash⟩
  rw [join, isAbsolute_of_isName name hname, hopen, if_neg Bool.false_ne_true,
    if_neg Bool.false_ne_true]

/-- A name below a path comes behind the names of the path. -/
theorem names_join (base name : String) (h : IsName name) :
    names (join base name) = names base ++ [name] := by
  by_cases hempty : base = ""
  · rw [join_of_open base name h (Or.inl hempty), hempty, String.empty_append, names_empty,
      names_of_isName name h, List.nil_append]
  · by_cases hslash : EndsInSlash base
    · rw [join_of_open base name h (Or.inr hslash)]
      rcases exists_of_endsInSlash base hslash with ⟨front, rfl⟩
      have hfront := names_append front ""
      rw [String.append_empty, names_empty, List.append_nil] at hfront
      rw [names_append, hfront, names_of_isName name h]
    · rw [join_of_not_open base name h hempty hslash, names_append, names_of_isName name h]

/-- What starts with a text that is not empty starts at the root if that text does. -/
theorem isAbsolute_append (front back : String) (h : front ≠ "") :
    isAbsolute (front ++ back) = isAbsolute front := by
  have hne : front.toList ≠ [] := fun hnil => h (String.toList_eq_nil_iff.mp hnil)
  rw [isAbsolute, isAbsolute, String.toList_append, List.head?_append_of_ne_nil _ hne]

/-- A path below another one starts at the root if that does. -/
theorem isAbsolute_join (base name : String) (h : IsName name) :
    isAbsolute (join base name) = isAbsolute base := by
  by_cases hempty : base = ""
  · rw [join_of_open base name h (Or.inl hempty), hempty, String.empty_append,
      isAbsolute_of_isName name h]
    rfl
  · by_cases hslash : EndsInSlash base
    · rw [join_of_open base name h (Or.inr hslash), isAbsolute_append base name hempty]
    · rw [join_of_not_open base name h hempty hslash, String.append_assoc,
        isAbsolute_append base _ hempty]

/-- Below a plain path there are plain paths. -/
theorem Plain.join {base name : String} (h : Plain base) (hname : IsName name)
    (hplain : name ≠ "." ∧ name ≠ "..") : Plain (Path.join base name) := by
  constructor
  · rw [isAbsolute_join base name hname]
    exact h.1
  · rw [names_join base name hname]
    intro other hother
    rcases List.mem_append.mp hother with hbase | hnew
    · exact h.2 other hbase
    · rw [List.mem_singleton.mp hnew]
      exact hplain

theorem Plain.endsInDot {path : String} (h : Plain path) : Path.endsInDot path = false := by
  rw [Path.endsInDot, beq_eq_false_iff_ne]
  intro hlast
  exact (h.2 "." (List.mem_of_mem_getLast? hlast)).1 rfl

/-- A path that is neither empty nor absolute has a name. -/
theorem names_ne_nil (path : String) (habsolute : isAbsolute path = false) (h : path ≠ "") :
    names path ≠ [] := by
  cases hlist : path.toList with
  | nil => exact absurd (String.toList_eq_nil_iff.mp hlist) h
  | cons c cs =>
      have hc : (c == '/') = false := by
        rw [isAbsolute, hlist, List.head?_cons, beq_eq_false_iff_ne] at habsolute
        exact beq_eq_false_iff_ne.mpr (fun hslash => habsolute (congrArg some hslash))
      rw [names, hlist, List.splitOn, List.splitOnP_cons_eq_if_modifyHead, if_neg (by rw [hc]; decide)]
      cases hsplit : cs.splitOnP (· == '/') with
      | nil => exact absurd hsplit (List.splitOnP_ne_nil _ _)
      | cons first rest =>
          -- The first character is no slash, so the first name has it.
          have hfirst : (!(String.ofList (c :: first)).isEmpty) = true := by
            rw [Bool.not_eq_true', Bool.eq_false_iff, ne_eq, String.isEmpty_iff]
            intro hnil
            have hlists := congrArg String.toList hnil
            rw [String.toList_ofList] at hlists
            exact List.cons_ne_nil _ _ hlists
          rw [List.modifyHead_cons, List.map_cons, List.filter_cons, if_pos hfirst]
          exact List.cons_ne_nil _ _

theorem Fits.names_ne_nil {path : String} (h : Fits path) : names path ≠ [] := by
  have hlocal := h.1
  simp only [isLocal, Bool.and_eq_true, Bool.not_eq_true'] at hlocal
  rcases hlocal with ⟨⟨⟨hempty, -⟩, -⟩, habsolute⟩
  refine Path.names_ne_nil path habsolute (fun hnil => ?_)
  rw [hnil] at hempty
  cases hempty

/-- A path is what a path below it starts with. -/
theorem exists_append_eq_join (base name : String) (h : IsName name) :
    ∃ rest, join base name = base ++ rest := by
  by_cases hempty : base = ""
  · exact ⟨name, join_of_open base name h (Or.inl hempty)⟩
  · by_cases hslash : EndsInSlash base
    · exact ⟨name, join_of_open base name h (Or.inr hslash)⟩
    · exact ⟨"/" ++ name, (join_of_not_open base name h hempty hslash).trans
        String.append_assoc⟩

/-- The system takes a path if it takes one below it. -/
theorem Fits.of_join {base name : String} (hname : IsName name) (hempty : base ≠ "")
    (h : Fits (join base name)) : Fits base := by
  rcases h with ⟨hlocal, hshort⟩
  rw [names_join base name hname] at hshort
  rcases exists_append_eq_join base name hname with ⟨rest, hrest⟩
  rw [hrest] at hlocal
  refine ⟨?_, fun n hn => hshort n (List.mem_append_left _ hn)⟩
  -- Every limit of the longer path is one of the shorter, but that it is not empty.
  simp only [isLocal, Bool.and_eq_true, Bool.not_eq_true', decide_eq_true_eq,
    List.contains_eq_mem, decide_eq_false_iff_not, String.utf8ByteSize_append, String.toList_append,
    List.mem_append, isAbsolute_append base rest hempty] at hlocal ⊢
  rcases hlocal with ⟨⟨⟨-, hsize⟩, hnul⟩, habsolute⟩
  refine ⟨⟨⟨?_, by omega⟩, fun hmem => hnul (Or.inl hmem)⟩, habsolute⟩
  rw [Bool.eq_false_iff, ne_eq, String.isEmpty_iff]
  exact hempty

end Path

namespace FileTree

variable (tree : FileTree)

section Locate

theorem walk?_cons (here names : List String) (name : String)
    (hname : name ≠ "." ∧ name ≠ "..") : tree.walk? here (name :: names) =
      if tree.hasDirectory here ∧ Path.isShort name then tree.walk? (here ++ [name]) names
      else none := by
  rw [walk?, if_neg hname.1, if_neg hname.2]
  cases tree.hasDirectory here <;> cases Path.isShort name <;> rfl

/-- Names lead down through directories. Nothing has to be at the last of them. -/
theorem walk?_eq_some_iff (here names place : List String) (hplain : Path.AllPlain names) :
    tree.walk? here names = some place ↔
      (∀ name ∈ names, Path.isShort name = true) ∧ place = here ++ names ∧
        (names ≠ [] → tree.node? (here ++ names.dropLast) = some .directory) := by
  -- The walk asks for a directory before each name. The last of these is enough, since what is
  -- around a directory is one.
  induction names generalizing here with
  | nil =>
      rw [walk?, Option.some.injEq, List.append_nil]
      constructor
      · intro h
        exact ⟨fun name hname => absurd hname List.not_mem_nil, h.symm, fun hnil => absurd rfl hnil⟩
      · rintro ⟨-, h, -⟩
        exact h.symm
  | cons name names ih =>
      have hrest : Path.AllPlain names := fun n hn => hplain n (List.mem_cons_of_mem _ hn)
      rw [walk?_cons tree here names name (hplain name List.mem_cons_self), List.forall_mem_cons]
      constructor
      · intro h
        by_cases hstep : tree.hasDirectory here ∧ Path.isShort name
        · rw [if_pos hstep, ih _ hrest] at h
          rcases h with ⟨hshorts, rfl, habove⟩
          refine ⟨⟨hstep.2, hshorts⟩, List.append_assoc _ _ _, fun _ => ?_⟩
          by_cases hnil : names = []
          · rw [hnil, List.dropLast_singleton, List.append_nil]
            exact (hasDirectory_iff tree here).mp hstep.1
          · rw [List.dropLast_cons_of_ne_nil hnil, List.append_cons]
            exact habove hnil
        · rw [if_neg hstep] at h
          cases h
      · rintro ⟨⟨hshort, hshorts⟩, rfl, habove⟩
        have habove := habove (List.cons_ne_nil _ _)
        have hhere := node?_above tree here _ (List.prefix_append _ _) habove
        rw [if_pos ⟨(hasDirectory_iff tree here).mpr hhere, hshort⟩, ih _ hrest]
        refine ⟨hshorts, List.append_cons _ _ _, fun hnil => ?_⟩
        rw [List.dropLast_cons_of_ne_nil hnil, List.append_cons] at habove
        exact habove

theorem walk?_append (here front back : List String) :
    tree.walk? here (front ++ back) =
      (tree.walk? here front).bind (fun place => tree.walk? place back) := by
  induction front generalizing here with
  | nil => rw [List.nil_append, walk?, Option.bind_some]
  | cons name front ih =>
      rw [List.cons_append, walk?, walk?]
      split_ifs
      · rfl
      · exact ih here
      · exact ih _
      · exact ih _
      · rfl

/-- A plain path leads to the place of its names, if it leads anywhere. -/
theorem locate?_eq_some_iff (path : String) (place : List String) (hplain : Path.Plain path) :
    tree.locate? path = some place ↔ Path.Fits path ∧ place = Path.names path ∧
      tree.node? (Path.names path).dropLast = some .directory ∧
        (Path.EndsInSlash path → tree.node? (Path.names path) = some .directory) := by
  unfold locate?
  by_cases hlocal : Path.isLocal path = true
  · rw [if_pos hlocal, Path.components]
    have hwalk := fun place => walk?_eq_some_iff tree [] (Path.names path) place hplain.2
    simp only [List.nil_append] at hwalk
    -- Behind a slash at the end the walk takes one more step, to the place itself.
    by_cases hslash : Path.EndsInSlash path
    · rw [if_pos (by rw [hslash, beq_self_eq_true]), walk?_append, Option.bind_eq_some_iff]
      constructor
      · rintro ⟨above, habove, hdot⟩
        rcases (hwalk above).mp habove with ⟨hshorts, rfl, haround⟩
        rw [walk?] at hdot
        by_cases hdirectory : tree.hasDirectory (Path.names path) = true
        · rw [hdirectory] at hdot
          cases hdot
          have hfits : Path.Fits path := ⟨hlocal, hshorts⟩
          exact ⟨hfits, rfl, haround hfits.names_ne_nil,
            fun _ => (hasDirectory_iff tree _).mp hdirectory⟩
        · rw [Bool.not_eq_true] at hdirectory
          rw [hdirectory] at hdot
          cases hdot
      · rintro ⟨hfits, rfl, haround, hdirectory⟩
        refine ⟨Path.names path, (hwalk _).mpr ⟨hfits.2, rfl, fun _ => haround⟩, ?_⟩
        rw [walk?, (hasDirectory_iff tree _).mpr (hdirectory hslash)]
        rfl
    · have hopen : (path.toList.getLast? == some '/') = false := beq_eq_false_iff_ne.mpr hslash
      rw [hopen, if_neg Bool.false_ne_true, hwalk]
      constructor
      · rintro ⟨hshorts, rfl, haround⟩
        have hfits : Path.Fits path := ⟨hlocal, hshorts⟩
        exact ⟨hfits, rfl, haround hfits.names_ne_nil, fun h => absurd h hslash⟩
      · rintro ⟨hfits, rfl, haround, -⟩
        exact ⟨hfits.2, rfl, fun _ => haround⟩
  · rw [if_neg hlocal]
    constructor
    · intro h
      cases h
    · rintro ⟨hfits, -⟩
      exact absurd hfits.1 hlocal

/-- What a plain path leads to is what is at the place of its names. -/
theorem find?_eq_some_iff (path : String) (inside : FileTree) (hplain : Path.Plain path) :
    tree.find? path = some inside ↔ Path.Fits path ∧ tree.get? (Path.names path) = some inside ∧
      (Path.EndsInSlash path → inside.node = .directory) := by
  unfold find?
  rw [Option.bind_eq_some_iff]
  constructor
  · rintro ⟨place, hplace, hinside⟩
    rcases (locate?_eq_some_iff tree path place hplain).mp hplace with ⟨hfits, rfl, -, hdirectory⟩
    refine ⟨hfits, hinside, fun hslash => ?_⟩
    have hnode := hdirectory hslash
    rw [node?, hinside, Option.map_some, Option.some.injEq] at hnode
    exact hnode
  · rintro ⟨hfits, hinside, hdirectory⟩
    refine ⟨_, (locate?_eq_some_iff tree path _ hplain).mpr ⟨hfits, rfl, ?_, fun hslash => ?_⟩,
      hinside⟩
    -- What is around something that is there is a directory.
    · refine node?_of_get?_append tree _ [(Path.names path).getLast hfits.names_ne_nil]
        (List.cons_ne_nil _ _) ?_
      rw [List.dropLast_concat_getLast, hinside]
      rfl
    · rw [node?, hinside, Option.map_some, hdirectory hslash]

/-- The content that a plain path leads to is that of a file at the place of its names. -/
theorem content?_eq_some_iff (path : String) (content : ByteArray) (hplain : Path.Plain path) :
    tree.content? path = some content ↔ Path.Fits path ∧
      tree.get? (Path.names path) = some (file content) ∧ ¬ Path.EndsInSlash path := by
  -- A directory is found, but has no content.
  have hfile : tree.content? path = some content ↔ tree.find? path = some (file content) := by
    unfold content?
    cases tree.find? path with
    | none => simp
    | some inside => cases inside <;> simp
  rw [hfile, find?_eq_some_iff tree path _ hplain]
  constructor
  · rintro ⟨hfits, hinside, hdirectory⟩
    refine ⟨hfits, hinside, fun hslash => ?_⟩
    cases hdirectory hslash
  · rintro ⟨hfits, hinside, hslash⟩
    exact ⟨hfits, hinside, fun h => absurd h hslash⟩

end Locate

section Actions

variable (path : String)

/-- A file can be written at a path: there is a directory around its place, and none at
    the place itself. -/
structure Writable : Prop where
  fits : Path.Fits path
  open_end : ¬ Path.EndsInSlash path
  around : tree.node? (Path.names path).dropLast = some .directory
  free : tree.node? (Path.names path) ≠ some .directory

/-- What could not be written changes nothing. -/
theorem writeFile_of_false (content : ByteArray) (after : FileTree)
    (h : tree.writeFile path content = (false, after)) : after = tree := by
  unfold writeFile at h
  cases hplace : tree.locate? path with
  | none =>
      rw [hplace] at h
      exact (Prod.mk.inj h).2.symm
  | some place =>
      rw [hplace] at h
      dsimp only at h
      -- The only case in which the tree is changed is told as done.
      by_cases hfree : tree.hasDirectory place = true
      · rw [if_pos hfree] at h
        exact (Prod.mk.inj h).2.symm
      · rw [if_neg hfree] at h
        cases (Prod.mk.inj h).1

/-- A file is written at the place of the path, or nothing happens. -/
theorem writeFile_cases (content : ByteArray) (hplain : Path.Plain path) :
    tree.writeFile path content = (false, tree) ∨ tree.Writable path ∧
      tree.writeFile path content = (true, tree.put (Path.names path) (file content)) := by
  unfold writeFile
  cases hplace : tree.locate? path with
  | none => exact Or.inl rfl
  | some place =>
      rcases (locate?_eq_some_iff tree path place hplain).mp hplace with
        ⟨hfits, rfl, haround, hdirectory⟩
      dsimp only
      -- A path with a slash at its end leads to a directory only, and over one no file is
      -- written.
      by_cases hfree : tree.hasDirectory (Path.names path) = true
      · rw [if_pos hfree]
        exact Or.inl rfl
      · rw [if_neg hfree]
        rw [hasDirectory_iff] at hfree
        exact Or.inr ⟨⟨hfits, fun hslash => hfree (hdirectory hslash), haround, hfree⟩, rfl⟩

/-- A file that was written below a path is in the directory of that path. -/
theorem writeFile_join (base name : String) (content : ByteArray) (after : FileTree)
    (hbase : Path.Plain base) (hname : Path.IsName name) (hplain : name ≠ "." ∧ name ≠ "..")
    (h : tree.writeFile (Path.join base name) content = (true, after)) :
    tree.Writable (Path.join base name) ∧ tree.node? (Path.names base) = some .directory ∧
      tree.node? (Path.names base ++ [name]) ≠ some .directory ∧
      after = tree.put (Path.names base ++ [name]) (file content) := by
  rcases writeFile_cases tree _ content (hbase.join hname hplain) with hfail | ⟨hwritable, hdone⟩
  · rw [hfail] at h
    cases (Prod.mk.inj h).1
  · have haround := hwritable.around
    have hfree := hwritable.free
    rw [hdone, Path.names_join base name hname, Prod.mk.injEq] at h
    rw [Path.names_join base name hname] at haround hfree
    rw [List.dropLast_concat] at haround
    exact ⟨hwritable, haround, hfree, h.2.symm⟩

/-- A file cannot be removed as a directory. -/
theorem removeDirectories_of_file (content : ByteArray)
    (h : tree.find? path = some (file content)) : tree.removeDirectories path = (false, tree) := by
  rcases Option.bind_eq_some_iff.mp h with ⟨place, hplace, hinside⟩
  have hdirectory : tree.hasDirectory place = false := by
    rw [hasDirectory, hinside]
    rfl
  rw [removeDirectories, hplace]
  dsimp only
  rw [hdirectory]
  rfl

/-- A directory is removed from the place of the path. -/
theorem removeDirectories_of_directory (members : List (String × FileTree))
    (hplain : Path.Plain path) (h : tree.find? path = some (directory members)) :
    tree.removeDirectories path = (true, tree.drop (Path.names path)) := by
  rcases Option.bind_eq_some_iff.mp h with ⟨place, hplace, hinside⟩
  rcases (locate?_eq_some_iff tree path place hplain).mp hplace with ⟨hfits, rfl, haround, -⟩
  have hlast := List.dropLast_concat_getLast hfits.names_ne_nil
  have hdirectory : tree.hasDirectory (Path.names path) = true := by
    rw [hasDirectory, hinside]
    rfl
  -- The emptied directory is still where the path leads to.
  have hemptied : (tree.put (Path.names path) empty).locate? path = some (Path.names path) := by
    refine (locate?_eq_some_iff _ path _ hplain).mpr ⟨hfits, rfl, ?_, fun _ => ?_⟩
    · have hbelow : ¬ (Path.names path).dropLast ++ [(Path.names path).getLast hfits.names_ne_nil] <+:
          (Path.names path).dropLast := by
        intro hprefix
        have hlength := hprefix.length_le
        rw [List.length_append, List.length_singleton] at hlength
        omega
      have hsame := node?_put tree empty _ _ haround _ hbelow
      rw [hlast] at hsame
      rw [hsame, haround]
    · exact node?_of_get? (get?_put_self _ _ _)
  have hends : Path.endsInName path = true := by
    have hname := hplain.2 _ (List.getLast_mem hfits.names_ne_nil)
    rw [Path.endsInName, List.getLast?_eq_some_getLast hfits.names_ne_nil, Option.any_some,
      Bool.and_eq_true, bne_iff_ne, bne_iff_ne]
    exact hname
  rw [removeDirectories, hplace]
  dsimp only
  rw [hdirectory, hemptied, hends]
  rfl

/-- Directories are made on the way that a plain path leads. -/
theorem grown_makeDirectories (hplain : Path.Plain path)
    (hroot : tree.node? [] = some .directory) :
    Grown tree (tree.makeDirectories path).2 (Path.names path) := by
  unfold makeDirectories
  by_cases hempty : path.isEmpty = true
  · rw [if_pos hempty]
    exact .refl
  · rw [if_neg hempty]
    by_cases hlocal : (!Path.isLocal path) = true
    · rw [if_pos hlocal]
      exact .refl
    · rw [if_neg hlocal, hplain.endsInDot, if_neg Bool.false_ne_true]
      exact grown_makeFrom [] (Path.names path) tree hplain.2 hroot

/-- Directories can be made if the path is short enough, and no file is on the way. -/
theorem makeDirectories_eq_true_iff (hplain : Path.Plain path) (hempty : path ≠ "")
    (hroot : tree.node? [] = some .directory) : (tree.makeDirectories path).1 = true ↔
      Path.Fits path ∧ tree.Passable (Path.names path) := by
  unfold makeDirectories
  rw [if_neg (fun h => hempty (String.isEmpty_iff.mp h))]
  by_cases hlocal : (!Path.isLocal path) = true
  · rw [if_pos hlocal]
    rw [Bool.not_eq_true'] at hlocal
    exact iff_of_false Bool.false_ne_true (fun h => Bool.false_ne_true (hlocal ▸ h.1.1))
  · rw [if_neg hlocal, hplain.endsInDot, if_neg Bool.false_ne_true,
      makeFrom_eq_true_iff [] (Path.names path) tree hplain.2 hroot, List.nil_append]
    rw [Bool.not_eq_true', Bool.not_eq_false] at hlocal
    rw [Path.Fits, hlocal, eq_self_iff_true, true_and]

/-- If directories could be made, the last one is at the place of the path, with what it
    had in it before. -/
theorem get?_makeDirectories (hplain : Path.Plain path) (hempty : path ≠ "")
    (hroot : tree.node? [] = some .directory) (hdone : (tree.makeDirectories path).1 = true) :
    (tree.makeDirectories path).2.get? (Path.names path) =
      some ((tree.get? (Path.names path)).getD empty) := by
  unfold makeDirectories at hdone ⊢
  rw [if_neg (fun h => hempty (String.isEmpty_iff.mp h))] at hdone ⊢
  by_cases hlocal : (!Path.isLocal path) = true
  · rw [if_pos hlocal] at hdone
    cases hdone
  · rw [if_neg hlocal, hplain.endsInDot, if_neg Bool.false_ne_true] at hdone ⊢
    exact get?_makeFrom [] (Path.names path) tree hplain.2 hroot hdone

end Actions

end FileTree

end Phrasebook
