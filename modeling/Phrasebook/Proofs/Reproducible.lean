import Phrasebook.Proofs.Runs

/-!
# What a Run Depends On

Two runs that read the same give the same. What a run reads is the configuration of its
input directory, and, if that can be loaded, the documents of the languages that it
names. Nothing else of the files counts, not even what stands in the output directory.

Which files are read is itself decided by what was read before, so the two runs have to be
followed side by side. `FileTree.Matched` is a statement on one computation and two trees:
it has the same result with both, and what it leaves of them is related. Sequences are
taken apart by one rule (`FileTree.Matched.bind`), and a stage that only reads leaves both
trees (`FileTree.ReadsAlike`). What is compared at a path is never more than what stands
there itself (`FileTree.SameAt`), so a directory may hold anything.

A run can be repeated for the same reason: what a run that has written its manifest leaves
behind has the same inputs as what it started with (`run_depends_on_inputs`).

## Main definitions

* `FileTree.SameAt`: Two trees have the same at a path.
* `FileTree.Matched`: A computation does the same with two trees.
* `FileTree.ReadsAlike`: A computation reads the same in two trees.
* `Directories.Apart`: Neither directory of a run is in the other.
* `Directories.Ready`: The directories of a run are there, or can be made.
* `SameInputs`: Two trees have the same configuration and documents.
* `SameOutput`: Two trees have the same in the output directory.

## Theorems

* `FileTree.Matched.bind`: A sequence does the same if both of its parts do.
* `FileTree.writeFile_join_fst_eq`: Whether a file can be written depends on its place alone.
* `Config.matched_load`, `readsAlike_loadSources`: What loading depends on.
* `Prepared.sameAt`: Preparing a run leaves its inputs as they are.
* `matched_run`: A run does the same with the same inputs.
* `run_depends_on_inputs`: The result of a run and its output depend on its inputs alone,
  and a run can be repeated.
-/

namespace Phrasebook

namespace FileTree

/-- Two trees have the same at a path: a file with one content, a directory, or nothing.
    What is in a directory does not count. -/
def SameAt (left right : FileTree) (path : String) : Prop :=
  (left.find? path).map node = (right.find? path).map node

/-- What stands where a plain path leads to is what stands at the place of its names. -/
theorem map_node_find?_eq_some_iff (tree : FileTree) (path : String) (n : Node)
    (hplain : Path.Plain path) : (tree.find? path).map node = some n ↔
      Path.Fits path ∧ tree.node? (Path.names path) = some n ∧
        (Path.EndsInSlash path → n = .directory) := by
  rw [Option.map_eq_some_iff, node?, Option.map_eq_some_iff]
  constructor
  · rintro ⟨inside, hinside, rfl⟩
    rcases (find?_eq_some_iff tree path inside hplain).mp hinside with ⟨hfits, hget, hslash⟩
    exact ⟨hfits, ⟨inside, hget, rfl⟩, hslash⟩
  · rintro ⟨hfits, ⟨inside, hget, rfl⟩, hslash⟩
    exact ⟨inside, (find?_eq_some_iff tree path inside hplain).mpr ⟨hfits, hget, hslash⟩, rfl⟩

/-- A plain path leads to the same where the place of its names has the same. -/
theorem sameAt_of_node?_eq {left right : FileTree} {path : String} (hplain : Path.Plain path)
    (h : left.node? (Path.names path) = right.node? (Path.names path)) : SameAt left right path := by
  refine Option.ext (fun n => ?_)
  rw [map_node_find?_eq_some_iff left path n hplain, map_node_find?_eq_some_iff right path n hplain,
    h]

theorem find?_of_node?_eq_directory {tree : FileTree} {path : String} (hplain : Path.Plain path)
    (hfits : Path.Fits path) (h : tree.node? (Path.names path) = some .directory) :
    ∃ members, tree.find? path = some (directory members) := by
  have hmap := (map_node_find?_eq_some_iff tree path .directory hplain).mpr ⟨hfits, h, fun _ => rfl⟩
  rcases Option.map_eq_some_iff.mp hmap with ⟨inside, hinside, hnode⟩
  cases inside with
  | file content => cases hnode
  | directory members => exact ⟨members, hinside⟩

namespace SameAt

variable {left middle right : FileTree} {path : String}

theorem symm (h : SameAt left right path) : SameAt right left path := Eq.symm h

theorem trans (h : SameAt left middle path) (h' : SameAt middle right path) :
    SameAt left right path := Eq.trans h h'

theorem isSome_find? (h : SameAt left right path) :
    (left.find? path).isSome = (right.find? path).isSome := by
  have hsome := congrArg Option.isSome h
  rw [Option.isSome_map, Option.isSome_map] at hsome
  exact hsome

theorem content? (h : SameAt left right path) : left.content? path = right.content? path := by
  have hcontent : ∀ tree : FileTree, tree.content? path =
      ((tree.find? path).map node).bind (fun n => match n with
        | .file content => some content
        | .directory => none) := by
    intro tree
    unfold FileTree.content?
    cases tree.find? path with
    | none => rfl
    | some inside => cases inside <;> rfl
  rw [hcontent left, hcontent right, h]

theorem text? (h : SameAt left right path) : left.text? path = right.text? path := by
  rw [FileTree.text?, FileTree.text?, h.content?]

end SameAt

/-- A file is written exactly if it can be. -/
theorem writeFile_fst_iff (tree : FileTree) (path : String) (content : ByteArray)
    (hplain : Path.Plain path) : (tree.writeFile path content).1 = true ↔ tree.Writable path := by
  rcases writeFile_cases tree path content hplain with hfail | ⟨hwritable, hdone⟩
  · refine iff_of_false (by rw [hfail]; exact Bool.false_ne_true) (fun hwritable => ?_)
    have hplace := (locate?_eq_some_iff tree path _ hplain).mpr
      ⟨hwritable.fits, rfl, hwritable.around, fun hslash => absurd hslash hwritable.open_end⟩
    rw [writeFile, hplace] at hfail
    dsimp only at hfail
    rw [if_neg (fun h => hwritable.free ((hasDirectory_iff tree _).mp h))] at hfail
    cases (Prod.mk.inj hfail).1
  · rw [hdone]
    exact iff_of_true rfl hwritable

/-- Where a file can be written, it can be written in a tree that has the same at the path,
    and a directory around it. -/
theorem Writable.of_sameAt {left right : FileTree} {path : String} (hplain : Path.Plain path)
    (h : left.Writable path) (hsame : SameAt left right path)
    (haround : right.node? (Path.names path).dropLast = some .directory) : right.Writable path := by
  refine ⟨h.fits, h.open_end, haround, fun hdirectory => h.free ?_⟩
  have hright := (map_node_find?_eq_some_iff right path .directory hplain).mpr
    ⟨h.fits, hdirectory, fun _ => rfl⟩
  exact ((map_node_find?_eq_some_iff left path .directory hplain).mp (Eq.trans hsame hright)).2.1

/-- Whether a file can be written in a directory depends on what stands in its place alone. -/
theorem writeFile_join_fst_eq {left right : FileTree} {base name : String} (content : ByteArray)
    (hbase : Path.Plain base) (hname : Path.IsName name) (hplain : name ≠ "." ∧ name ≠ "..")
    (hsame : SameAt left right (Path.join base name))
    (hleft : left.node? (Path.names base) = some .directory)
    (hright : right.node? (Path.names base) = some .directory) :
    (left.writeFile (Path.join base name) content).1 =
      (right.writeFile (Path.join base name) content).1 := by
  have hpath := hbase.join hname hplain
  have haround : (Path.names (Path.join base name)).dropLast = Path.names base := by
    rw [Path.names_join base name hname, List.dropLast_concat]
  rw [← haround] at hleft hright
  rw [Bool.eq_iff_iff, writeFile_fst_iff left _ content hpath,
    writeFile_fst_iff right _ content hpath]
  exact ⟨fun h => h.of_sameAt hpath hsame hright, fun h => h.of_sameAt hpath hsame.symm hleft⟩

variable {ε ε' α β : Type} {left right : FileTree}

/-- A computation has the same result with two trees, and what it leaves of them is
    related. -/
def Matched (x : Action ε α) (left right : FileTree)
    (post : Except ε α → FileTree → FileTree → Prop) : Prop :=
  ∃ result left' right', perform x left = (result, left') ∧ perform x right = (result, right') ∧
    post result left' right'

/-- A computation has the same result with two trees, and leaves both as they are. -/
def ReadsAlike (x : Action ε α) (left right : FileTree) : Prop :=
  ∃ result, perform x left = (result, left) ∧ perform x right = (result, right)

namespace Matched

variable {x : Action ε α} {f : α → Action ε β}
  {mid : Except ε α → FileTree → FileTree → Prop} {post : Except ε β → FileTree → FileTree → Prop}

/-- A sequence does the same with two trees if its first part does, and so does its second
    with whatever the first leaves. -/
theorem bind (h : Matched x left right mid)
    (hok : ∀ a left' right', mid (.ok a) left' right' → Matched (f a) left' right' post)
    (herror : ∀ e left' right', mid (.error e) left' right' → post (.error e) left' right') :
    Matched (x >>= f) left right post := by
  rcases h with ⟨result, left', right', hleft, hright, hmid⟩
  cases result with
  | error e =>
      exact ⟨.error e, left', right', perform_bind_of_error hleft f, perform_bind_of_error hright f,
        herror e left' right' hmid⟩
  | ok a =>
      rw [Matched, perform_bind_of_ok hleft, perform_bind_of_ok hright]
      exact hok a left' right' hmid

/-- A first part that is known to succeed is stepped over. -/
theorem of_ok {a : α} {left' right' : FileTree} (hleft : perform x left = (.ok a, left'))
    (hright : perform x right = (.ok a, right')) (h : Matched (f a) left' right' post) :
    Matched (x >>= f) left right post := by
  rw [Matched, perform_bind_of_ok hleft, perform_bind_of_ok hright]
  exact h

/-- A failure that is told in other words is told in the same words. -/
theorem adapt (h : Matched x left right mid) (g : ε → ε') :
    Matched (x.adapt g) left right (fun result left' right' =>
      ∃ told, told.mapError g = result ∧ mid told left' right') := by
  rcases h with ⟨result, left', right', hleft, hright, hmid⟩
  refine ⟨result.mapError g, left', right', ?_, ?_, result, rfl, hmid⟩
  · rw [perform_adapt, hleft]
  · rw [perform_adapt, hright]

end Matched

namespace ReadsAlike

variable {x : Action ε α} {f : α → Action ε β}

theorem matched (h : ReadsAlike x left right) :
    Matched x left right (fun _ left' right' => left' = left ∧ right' = right) := by
  rcases h with ⟨result, hleft, hright⟩
  exact ⟨result, left, right, hleft, hright, rfl, rfl⟩

theorem bind (h : ReadsAlike x left right) (hf : ∀ a, ReadsAlike (f a) left right) :
    ReadsAlike (x >>= f) left right := by
  rcases h with ⟨result, hleft, hright⟩
  cases result with
  | error e => exact ⟨.error e, perform_bind_of_error hleft f, perform_bind_of_error hright f⟩
  | ok a =>
      rw [ReadsAlike, perform_bind_of_ok hleft, perform_bind_of_ok hright]
      exact hf a

theorem mapM {g : α → Action ε β} (xs : List α) (h : ∀ a ∈ xs, ReadsAlike (g a) left right) :
    ReadsAlike (xs.mapM g) left right := by
  induction xs with
  | nil => exact ⟨.ok [], rfl, rfl⟩
  | cons a xs ih =>
      rcases List.forall_mem_cons.mp h with ⟨ha, hxs⟩
      rw [List.mapM_cons]
      exact ha.bind (fun b => (ih hxs).bind (fun bs => ⟨.ok (b :: bs), rfl, rfl⟩))

end ReadsAlike

end FileTree

open FileTree

section Reading

variable {left right : FileTree} {input : String}

theorem Document.readsAlike_load (locale : String)
    (h : SameAt left right (Locale.filePath input locale)) :
    ReadsAlike (Document.load input locale) left right := by
  have hfile : ReadsAlike (FileAccess.isFile (Locale.filePath input locale) : Action LoadError Bool)
      left right := ⟨_, perform_isFile _, by rw [h.content?]; exact perform_isFile _⟩
  have htext : ReadsAlike (FileAccess.readText? (Locale.filePath input locale) :
      Action LoadError (Option String)) left right :=
    ⟨_, perform_readText? _, by rw [h.text?]; exact perform_readText? _⟩
  unfold load
  dsimp only
  -- From here on both runs have the same answers, so they take the same way.
  refine hfile.bind (fun present => ?_)
  cases present with
  | false => exact ⟨_, rfl, rfl⟩
  | true =>
      rw [if_pos rfl]
      refine htext.bind (fun text? => ?_)
      cases text? with
      | none => exact ⟨_, rfl, rfl⟩
      | some text =>
          dsimp only
          cases parse locale (Locale.filePath input locale) text with
          | error cause => exact ⟨_, rfl, rfl⟩
          | ok document => exact ⟨_, rfl, rfl⟩

/-- The documents depend on the files of the languages alone. -/
theorem readsAlike_loadSources (config : Config) (hvalid : config.Valid)
    (h : ∀ locale ∈ config.languages, SameAt left right (Locale.filePath input locale)) :
    ReadsAlike (loadSources input config) left right := by
  unfold loadSources
  refine (Document.readsAlike_load _ (h _ (hvalid.defaultLanguage_mem config))).bind (fun base => ?_)
  refine (ReadsAlike.mapM _ (fun locale hlocale => ?_)).bind (fun others => ⟨_, rfl, rfl⟩)
  exact Document.readsAlike_load _ (h locale (List.mem_of_mem_filter hlocale))

/-- Loading the configuration depends on what stands at its path, and on whether it can be
    written there. It is the one that is stored, or the default one is written, or loading
    fails. -/
theorem Config.matched_load (h : SameAt left right (Path.join input Config.fileName))
    (hwrite : (left.writeFile (Path.join input Config.fileName) Config.default.print.toUTF8).1 =
      (right.writeFile (Path.join input Config.fileName) Config.default.print.toUTF8).1) :
    Matched (Config.load input) left right (fun result left' right' =>
      (∃ config, result = .ok (.loaded config) ∧ config.StoredIn left input ∧
          left' = left ∧ right' = right) ∨
        result = .ok (.bootstrapped (Path.join input Config.fileName)) ∧
          left.writeFile (Path.join input Config.fileName) Config.default.print.toUTF8 =
            (true, left') ∧
          right.writeFile (Path.join input Config.fileName) Config.default.print.toUTF8 =
            (true, right') ∨
        (∃ cause, result = .error cause) ∧ left' = left ∧ right' = right) := by
  unfold load
  dsimp only
  refine Matched.of_ok (perform_isPresent _) (by rw [h.isSome_find?]; exact perform_isPresent _) ?_
  cases (left.find? (Path.join input Config.fileName)).isSome with
  | false =>
      rw [if_neg Bool.false_ne_true]
      refine Matched.of_ok (perform_writeText _ _) (by rw [hwrite]; exact perform_writeText _ _) ?_
      -- Writing may change either tree, and is done in both or in neither.
      cases hleft : left.writeFile (Path.join input Config.fileName) Config.default.print.toUTF8 with
      | mk done left' =>
          cases hright : right.writeFile (Path.join input Config.fileName)
              Config.default.print.toUTF8 with
          | mk done' right' =>
              rw [hleft, hright] at hwrite
              dsimp only at hwrite
              subst hwrite
              cases done with
              | true => exact ⟨_, left', right', rfl, rfl, Or.inr (Or.inl ⟨rfl, rfl, rfl⟩)⟩
              | false =>
                  refine ⟨_, left', right', rfl, rfl, Or.inr (Or.inr ⟨⟨_, rfl⟩, ?_, ?_⟩)⟩
                  · exact writeFile_of_false left _ _ left' hleft
                  · exact writeFile_of_false right _ _ right' hright
  | true =>
      rw [if_pos rfl]
      refine Matched.of_ok (perform_readText? _) (by rw [h.text?]; exact perform_readText? _) ?_
      cases htext : left.text? (Path.join input Config.fileName) with
      | none =>
          exact ⟨_, left, right, rfl, rfl, Or.inr (Or.inr ⟨⟨_, rfl⟩, rfl, rfl⟩)⟩
      | some text =>
          dsimp only
          cases hcheck : check (Path.join input Config.fileName) text with
          | error cause =>
              exact ⟨_, left, right, rfl, rfl, Or.inr (Or.inr ⟨⟨cause, rfl⟩, rfl, rfl⟩)⟩
          | ok config =>
              exact ⟨_, left, right, rfl, rfl,
                Or.inl ⟨config, rfl, ⟨text, htext, hcheck⟩, rfl, rfl⟩⟩

/-- A manifest is written into both trees or into neither. -/
theorem Manifest.matched_write (manifest : Manifest) (output : String)
    (h : (left.writeFile (Path.join output Manifest.fileName) manifest.print.toUTF8).1 =
      (right.writeFile (Path.join output Manifest.fileName) manifest.print.toUTF8).1) :
    Matched (manifest.write output) left right (fun result left' right' =>
      result = .ok [Path.join output Manifest.fileName] ∧
          left.writeFile (Path.join output Manifest.fileName) manifest.print.toUTF8 =
            (true, left') ∧
          right.writeFile (Path.join output Manifest.fileName) manifest.print.toUTF8 =
            (true, right') ∨
        (∃ path, result = .error path) ∧ left' = left ∧ right' = right) := by
  have hleft := Manifest.perform_write left manifest output
  have hright := Manifest.perform_write right manifest output
  rw [← h] at hright
  refine ⟨_, _, _, hleft, hright, ?_⟩
  cases hdone : (left.writeFile (Path.join output Manifest.fileName) manifest.print.toUTF8).1 with
  | true => exact Or.inl ⟨rfl, Prod.ext hdone rfl, Prod.ext (h ▸ hdone) rfl⟩
  | false =>
      exact Or.inr ⟨⟨_, rfl⟩, writeFile_of_false left _ _ _ (Prod.ext hdone rfl),
        writeFile_of_false right _ _ _ (Prod.ext (h ▸ hdone) rfl)⟩

end Reading

/-- Plain paths of an input and an output directory, neither of which is in the other. -/
structure Directories.Apart (d : Directories) : Prop where
  input : Path.Plain d.input
  output : Path.Plain d.output
  notInside : ¬ Path.names d.output <+: Path.names d.input
  notAround : ¬ Path.names d.input <+: Path.names d.output

/-- The input directory of a run is there, and so is the output directory, or it can be
    made. -/
structure Directories.Ready (d : Directories) (tree : FileTree) : Prop where
  input : ∃ members, tree.find? d.input = some (directory members)
  output : (∃ members, tree.find? d.output = some (directory members)) ∨
    (tree.makeDirectories d.output).1 = true

/-- Two trees have the same configuration in an input directory and, if it can be loaded, the
    same documents of its languages. -/
structure SameInputs (d : Directories) (left right : FileTree) : Prop where
  config : SameAt left right (Path.join d.input Config.fileName)
  documents : ∀ config : Config, config.StoredIn left d.input →
    ∀ locale ∈ config.languages, SameAt left right (Locale.filePath d.input locale)

namespace Directories.Apart

variable {d : Directories} (h : d.Apart)

include h

theorem input_ne_empty : d.input ≠ "" := by
  intro hempty
  refine h.notAround ?_
  rw [hempty, Path.names_empty]
  exact List.nil_prefix

theorem separate : d.Separate := by
  refine ⟨h.input, h.output, fun hempty => h.notInside ?_, h.notInside⟩
  rw [hempty, Path.names_empty]
  exact List.nil_prefix

/-- What is in the input directory is not in the output directory. -/
theorem not_prefix_append (name : String) :
    ¬ Path.names d.output <+: Path.names d.input ++ [name] := by
  intro hprefix
  rcases List.prefix_concat_iff.mp hprefix with heq | hinput
  · exact h.notAround (heq ▸ List.prefix_append _ _)
  · exact h.notInside hinput

/-- No directories are made in place of what is in the input directory. -/
theorem node?_eq_of_kept {tree after : FileTree} (name : String)
    (hkept : Kept tree after (Path.names d.input ++ [name])
      (Path.names d.input ++ [name] <+: Path.names d.output ∨
        Path.names d.input ++ [name] <+: Path.names d.input)) :
    after.node? (Path.names d.input ++ [name]) = tree.node? (Path.names d.input ++ [name]) := by
  rcases hkept with hsame | ⟨houtput | hinput, -, -⟩
  · exact hsame
  · exact absurd ((List.prefix_append _ _).trans houtput) h.notAround
  · have hlength := hinput.length_le
    rw [List.length_append, List.length_singleton] at hlength
    omega

/-- A path in the input directory leads to the same if all that was made are directories on
    the way to the two directories. -/
theorem sameAt_of_kept {tree after : FileTree} {name : String} (hname : Path.IsName name)
    (hplain : name ≠ "." ∧ name ≠ "..")
    (hkept : Kept tree after (Path.names d.input ++ [name])
      (Path.names d.input ++ [name] <+: Path.names d.output ∨
        Path.names d.input ++ [name] <+: Path.names d.input)) :
    SameAt tree after (Path.join d.input name) := by
  refine sameAt_of_node?_eq (h.input.join hname hplain) ?_
  rw [Path.names_join d.input name hname]
  exact (h.node?_eq_of_kept name hkept).symm

/-- The configuration and the documents of its languages are in the input directory, so
    trees have the same inputs if nothing there was changed. -/
theorem sameInputs_of_kept {tree after : FileTree}
    (hkept : ∀ name, Kept tree after (Path.names d.input ++ [name])
      (Path.names d.input ++ [name] <+: Path.names d.output ∨
        Path.names d.input ++ [name] <+: Path.names d.input)) : SameInputs d tree after := by
  refine ⟨h.sameAt_of_kept (by decide) (by decide) (hkept _), ?_⟩
  -- Names of languages are plain ones, since the configuration was checked.
  rintro config ⟨text, -, hcheck⟩ locale hlocale
  have hvalid := Config.valid_of_check _ text config hcheck
  rcases isName_locale locale (hvalid.isLanguage config locale hlocale) with ⟨hname, hplain⟩
  exact h.sameAt_of_kept hname hplain (hkept _)

end Directories.Apart

/-- A configuration is stored where the same stands in its place. -/
theorem Config.StoredIn.of_sameAt {config : Config} {left right : FileTree} {input : String}
    (h : config.StoredIn left input) (hsame : SameAt left right (Path.join input Config.fileName)) :
    config.StoredIn right input := by
  rcases h with ⟨text, htext, hcheck⟩
  exact ⟨text, by rw [← hsame.text?, htext], hcheck⟩

namespace SameInputs

variable {d : Directories} {left middle right : FileTree}

theorem symm (h : SameInputs d left right) : SameInputs d right left :=
  ⟨h.config.symm, fun config hstored locale hlocale =>
    (h.documents config (hstored.of_sameAt h.config.symm) locale hlocale).symm⟩

theorem trans (h : SameInputs d left middle) (h' : SameInputs d middle right) :
    SameInputs d left right :=
  ⟨h.config.trans h'.config, fun config hstored locale hlocale =>
    (h.documents config hstored locale hlocale).trans
      (h'.documents config (hstored.of_sameAt h.config) locale hlocale)⟩

end SameInputs

section Preparation

variable {d : Directories} {tree : FileTree}

/-- If there is an input directory, nothing has to be made for it. -/
theorem perform_ensureInput_of_directory (path : String) (members : List (String × FileTree))
    (h : tree.find? path = some (directory members)) :
    perform (ensureInput path) tree = (.ok (), tree) := by
  have hpresent : perform (FileAccess.isPresent path : Action RunError Bool) tree =
      (.ok true, tree) := by
    rw [perform_isPresent, h]
    rfl
  have hdirectory : perform (FileAccess.isDirectory path : Action RunError Bool) tree =
      (.ok true, tree) := by
    rw [perform_isDirectory, h]
    rfl
  unfold ensureInput
  rw [perform_bind_of_ok hpresent]
  exact perform_orFail path hdirectory

/-- If the directories of a run are ready, its output directory can be emptied. -/
theorem Directories.Ready.passable (hd : d.Apart) (h : d.Ready tree) :
    tree.node? [] = some .directory ∧ Path.Fits d.output ∧
      tree.Passable (Path.names d.output) := by
  rcases h.input with ⟨members, hinput⟩
  have hnode := node?_of_get? ((find?_eq_some_iff tree d.input _ hd.input).mp hinput).2.1
  have hroot := node?_above tree [] _ List.nil_prefix hnode
  refine ⟨hroot, ?_⟩
  rcases h.output with ⟨members, houtput⟩ | hmade
  · rcases (find?_eq_some_iff tree d.output _ hd.output).mp houtput with ⟨hfits, hget, -⟩
    exact ⟨hfits, passable_of_directory tree _ (node?_of_get? hget)⟩
  -- That the directory can be made says the same of the way to it.
  · exact (makeDirectories_eq_true_iff tree d.output hd.output hd.separate.named hroot).mp hmade

/-- If the directories of a run are ready, preparing it succeeds. The input directory is
    still there, and holds the same inputs. -/
theorem Directories.Ready.prepared (hd : d.Apart) (h : d.Ready tree) : ∃ bare,
    perform (resetOutput d.output) tree = (.ok (), bare) ∧
      perform (ensureInput d.input) bare = (.ok (), bare) ∧ Prepared d tree bare ∧
      bare.node? (Path.names d.input) = some .directory ∧ SameInputs d tree bare := by
  rcases h.passable hd with ⟨hroot, hopen⟩
  rcases h.input with ⟨members, hinput⟩
  rcases (find?_eq_some_iff tree d.input _ hd.input).mp hinput with ⟨hfits, hget, -⟩
  rcases resetOutput_cases tree d.output hd.output hd.separate.named hroot with
    ⟨result, bare, hreset, hkept, ⟨rfl, -⟩ | ⟨-, hclosed, -⟩⟩
  -- The input directory is not inside the output directory, so it outlives the clearing.
  · have hnode := (hkept _ hd.notInside).node?_of_eq_some (node?_of_get? hget)
    rcases find?_of_node?_eq_directory hd.input hfits hnode with ⟨inside, hinside⟩
    have hensure := perform_ensureInput_of_directory d.input inside hinside
    have hprepared := (prepared_of_ensureInput hd.separate hroot hreset hensure).1
    exact ⟨bare, hreset, hensure, hprepared, hnode,
      hd.sameInputs_of_kept (fun name => hprepared.kept _ (hd.not_prefix_append name))⟩
  · exact absurd hopen hclosed

end Preparation

/-- No manifest is in the output directory of a run that was prepared. -/
theorem Prepared.sameAt_manifest {d : Directories} {left right ready ready' : FileTree}
    (hd : d.Apart) (h : Prepared d left ready) (h' : Prepared d right ready') :
    SameAt ready ready' (Path.join d.output Manifest.fileName) := by
  have hvacant : ∀ tree : FileTree, tree.get? (Path.names d.output) = some empty →
      tree.node? (Path.names d.output ++ [Manifest.fileName]) = none := by
    intro tree htree
    rw [node?, get?_append, htree]
    rfl
  refine sameAt_of_node?_eq (hd.output.join (by decide) (by decide)) ?_
  rw [Path.names_join d.output Manifest.fileName (by decide), hvacant ready h.vacant,
    hvacant ready' h'.vacant]

section Runs

variable {d : Directories} {left right : FileTree}

/-- In both trees the output directory has the same in it. -/
def SameOutput (d : Directories) (left right : FileTree) : Prop :=
  ∃ members, left.find? d.output = some (directory members) ∧
    right.find? d.output = some (directory members)

/-- A run does the same with the same inputs, once its directories are ready. -/
theorem matched_run (hd : d.Apart) (hleft : d.Ready left) (hright : d.Ready right)
    (hsame : SameInputs d left right) :
    Matched (run d) left right (fun _ left' right' => SameOutput d left' right') := by
  rcases hleft.prepared hd with ⟨bare, hreset, hensure, hprepared, hinput, hinputs⟩
  rcases hright.prepared hd with ⟨bare', hreset', hensure', hprepared', hinput', hinputs'⟩
  have hsame : SameInputs d bare bare' := hinputs.symm.trans (hsame.trans hinputs')
  have hempty : SameOutput d bare bare' :=
    ⟨[], hprepared.find?_output hd.separate [] hprepared.vacant,
      hprepared'.find?_output hd.separate [] hprepared'.vacant⟩
  -- Whether a file can be written depends on what is at its place, which is the same in both
  -- trees.
  have hconfig := writeFile_join_fst_eq Config.default.print.toUTF8 hd.input (by decide) (by decide)
    hsame.config hinput hinput'
  have hmanifest := fun manifest : Manifest =>
    writeFile_join_fst_eq manifest.print.toUTF8 hd.output (by decide) (by decide)
      (hprepared.sameAt_manifest hd hprepared') hprepared.node?_output hprepared'.node?_output
  -- The stages are matched one by one. A stage that fails leaves the empty output directory.
  unfold run
  refine Matched.of_ok hreset hreset' (Matched.of_ok hensure hensure' ?_)
  refine ((Config.matched_load hsame.config hconfig).adapt RunError.config).bind ?_ ?_
  · rintro source after after' ⟨told, htold, ⟨config, rfl, hstored, rfl, rfl⟩ |
      ⟨rfl, hwrite, hwrite'⟩ | ⟨⟨cause, rfl⟩, -, -⟩⟩
    · cases htold
      have hvalid : config.Valid := by
        rcases hstored with ⟨text, -, hcheck⟩
        exact Config.valid_of_check _ text config hcheck
      -- From here on the inputs are the same, and so is all that is made of them.
      have hsources := readsAlike_loadSources config hvalid (hsame.documents config hstored)
      refine (hsources.matched.adapt RunError.document).bind ?_ ?_
      · rintro sources after after' ⟨-, -, rfl, rfl⟩
        have hcompile : ReadsAlike (ExceptT.mk (pure (sources.compile config)) :
          Action RunError Catalogue) after after' := ⟨_, rfl, rfl⟩
        refine hcompile.matched.bind ?_ ?_
        · rintro catalogue _ _ ⟨rfl, rfl⟩
          have hwritten := Manifest.matched_write (Manifest.ofCatalogue config catalogue) d.output
            (hmanifest _)
          refine (hwritten.adapt RunError.manifest).bind ?_ ?_
          · rintro files final final' ⟨told, htold, ⟨rfl, hwrite, hwrite'⟩ | ⟨⟨path, rfl⟩, -, -⟩⟩
            · exact ⟨_, final, final', rfl, rfl, _,
                hprepared.find?_output hd.separate _ (hprepared.of_manifest hd.separate hwrite).1,
                hprepared'.find?_output hd.separate _ (hprepared'.of_manifest hd.separate hwrite').1⟩
            · cases htold
          · rintro e _ _ ⟨told, htold, ⟨rfl, -, -⟩ | ⟨-, rfl, rfl⟩⟩
            · cases htold
            · exact hempty
        · rintro e _ _ ⟨rfl, rfl⟩
          exact hempty
      · rintro e _ _ ⟨-, -, rfl, rfl⟩
        exact hempty
    · cases htold
      exact ⟨_, after, after', rfl, rfl, [],
        hprepared.find?_output hd.separate [] (hprepared.of_bootstrap hd.separate hwrite).1,
        hprepared'.find?_output hd.separate [] (hprepared'.of_bootstrap hd.separate hwrite').1⟩
    · cases htold
  · rintro e _ _ ⟨told, htold, ⟨config, rfl, -⟩ | ⟨rfl, -⟩ | ⟨-, rfl, rfl⟩⟩
    · cases htold
    · cases htold
    · exact hempty

variable {tree after : FileTree} {files : List String} {count : Nat}

/-- A run that has written a manifest keeps all places outside its output directory, but for
    directories that it made. -/
theorem Course.kept_of_generated (hd : d.Apart) (hroot : tree.node? [] = some .directory)
    (h : Course d tree (.ok (.generated files count)) after) (place : List String)
    (hplace : ¬ Path.names d.output <+: place) : Kept tree after place
      (place <+: Path.names d.output ∨ place <+: Path.names d.input) := by
  rcases h.kept hd.separate hroot place hplace with hkept | ⟨-, hbootstrapped⟩
  · exact hkept
  · cases hbootstrapped.outcome

/-- A run that has written a manifest started with directories that were ready. So are those
    it leaves, and they hold the same inputs. -/
theorem Course.ready_of_generated (hd : d.Apart) (hroot : tree.node? [] = some .directory)
    (h : Course d tree (.ok (.generated files count)) after) :
    d.Ready tree ∧ d.Ready after ∧ SameInputs d tree after := by
  have hkept := h.kept_of_generated hd hroot
  cases h with
  | generated hreset hensure hconfig hsources hcompile hwrite =>
      have hprepared := (prepared_of_ensureInput hd.separate hroot hreset hensure).1
      -- The configuration was read from the input directory, so that was there.
      rcases hprepared.storedIn hd.separate hconfig hsources with ⟨⟨text, htext, -⟩, -⟩
      rcases Option.bind_eq_some_iff.mp htext with ⟨content, hcontent, -⟩
      rcases (content?_eq_some_iff tree _ content (hd.input.join (by decide) (by decide))).mp
        hcontent with ⟨hfits, hfile, -⟩
      rw [Path.names_join d.input Config.fileName (by decide)] at hfile
      -- A file in the input directory has the directory around it.
      have hinput : tree.node? (Path.names d.input) = some .directory :=
        node?_of_get?_append tree _ [Config.fileName] (List.cons_ne_nil _ _)
          (Option.isSome_iff_exists.mpr ⟨_, hfile⟩)
      have hfits := hfits.of_join (by decide) hd.input_ne_empty
      have houtput := hprepared.find?_output hd.separate _
        (hprepared.of_manifest hd.separate hwrite).1
      refine ⟨⟨find?_of_node?_eq_directory hd.input hfits hinput, Or.inr ?_⟩,
        ⟨find?_of_node?_eq_directory hd.input hfits ?_, Or.inl ⟨_, houtput⟩⟩,
        hd.sameInputs_of_kept (fun name => hkept _ (hd.not_prefix_append name))⟩
      · exact (makeDirectories_eq_true_iff tree d.output hd.output hd.separate.named hroot).mpr
          ⟨hprepared.fits, hprepared.passable⟩
      · exact (hkept _ hd.notInside).node?_of_eq_some hinput

/-- If the output directory has the same in it before and after a run, and the run keeps all
    other places, it leaves the files as they were. -/
theorem Course.node?_eq_of_sameOutput (hd : d.Apart) (hready : d.Ready tree)
    (h : Course d tree (.ok (.generated files count)) after) (hsame : SameOutput d tree after)
    (place : List String) : after.node? place = tree.node? place := by
  have hroot := (hready.passable hd).1
  rcases hsame with ⟨members, hbefore, hafter⟩
  have hbefore := ((find?_eq_some_iff tree d.output _ hd.output).mp hbefore).2.1
  have hafter := ((find?_eq_some_iff after d.output _ hd.output).mp hafter).2.1
  by_cases hplace : Path.names d.output <+: place
  · rcases hplace with ⟨below, rfl⟩
    rw [node?, node?, get?_append, get?_append, hbefore, hafter]
  · -- Both directories are there already, and so are those around them.
    rcases h.kept_of_generated hd hroot place hplace with hkept | ⟨haround, hnone, -⟩
    · exact hkept
    · rcases hready.input with ⟨inside, hinput⟩
      have hinput := ((find?_eq_some_iff tree d.input _ hd.input).mp hinput).2.1
      have hthere : tree.node? place = some .directory :=
        haround.elim (fun hway => node?_above tree place _ hway (node?_of_get? hbefore))
          (fun hway => node?_above tree place _ hway (node?_of_get? hinput))
      rw [hthere] at hnone
      cases hnone

end Runs

/-- The result of a run and what it leaves in its output directory depend on the configuration
    and, if that can be loaded, on the documents of its languages, and on nothing else of the
    files. A run that has written a manifest can be repeated: the second run has the same
    result, and leaves every place as it is. -/
theorem run_depends_on_inputs (d : Directories) (hd : d.Apart) :
    (∀ left right : FileTree, d.Ready left → d.Ready right → SameInputs d left right →
      (perform (run d) left).1 = (perform (run d) right).1 ∧
        SameOutput d (perform (run d) left).2 (perform (run d) right).2) ∧
      ∀ members files count after,
        perform (run d) (directory members) = (.ok (.generated files count), after) →
        (perform (run d) after).1 = .ok (.generated files count) ∧
          ∀ place, (perform (run d) after).2.node? place = after.node? place := by
  have hsame : ∀ left right : FileTree, d.Ready left → d.Ready right → SameInputs d left right →
      (perform (run d) left).1 = (perform (run d) right).1 ∧
        SameOutput d (perform (run d) left).2 (perform (run d) right).2 := by
    intro left right hleft hright hinputs
    rcases matched_run hd hleft hright hinputs with ⟨result, left', right', hrun, hrun', houtput⟩
    rw [hrun, hrun']
    exact ⟨rfl, houtput⟩
  refine ⟨hsame, fun members files count after hrun => ?_⟩
  have hcourse := course_run d (directory members)
  rw [hrun] at hcourse
  -- The run leaves its inputs, so the second run is one with the same inputs.
  rcases hcourse.ready_of_generated hd rfl with ⟨hready, hready', hinputs⟩
  rcases hsame _ _ hready hready' hinputs with ⟨hresult, houtput⟩
  rw [hrun] at hresult houtput
  have hcourse' := course_run d after
  rw [← hresult] at hcourse'
  exact ⟨hresult.symm, hcourse'.node?_eq_of_sameOutput hd hready' houtput⟩

/-- Two trees that differ in a document of no configured language and in an earlier output. -/
theorem run_depends_on_inputs_stray : ∃ left right files after,
    (directory left).node? ["i18n", "fr.json"] = some (.file "no document".toUTF8) ∧
    (directory right).node? ["i18n", "fr.json"] = none ∧
    (directory left).node? ["out", "old.json"] = some (.file "".toUTF8) ∧
    (directory right).node? ["out"] = none ∧
    perform (run ⟨"i18n", "out"⟩) (directory left) = (.ok (.generated files 1), after) ∧
    (perform (run ⟨"i18n", "out"⟩) (directory right)).1 = .ok (.generated files 1) ∧
    (perform (run ⟨"i18n", "out"⟩) after).1 = .ok (.generated files 1) := by
  let settings := "\x7b\"languages\":[\"en\"],\"defaultLanguage\":\"en\"\x7d"
  let document := "\x7b\"a\":\"x\"\x7d"
  obtain ⟨left, hleft⟩ : ∃ left : List (String × FileTree), left =
    [("i18n", directory [("config.json", file settings.toUTF8), ("en.json", file document.toUTF8),
      ("fr.json", file "no document".toUTF8)]),
    ("out", directory [("old.json", file "".toUTF8)])] := ⟨_, rfl⟩
  obtain ⟨right, hright⟩ : ∃ right : List (String × FileTree), right =
    [("i18n", directory [("config.json", file settings.toUTF8),
      ("en.json", file document.toUTF8)])] := ⟨_, rfl⟩
  have hd : Directories.Apart ⟨"i18n", "out"⟩ :=
    ⟨by decide +kernel, by decide +kernel, by decide +kernel, by decide +kernel⟩
  have hready : ∀ members : List (String × FileTree),
      (directory members).node? ["i18n"] = some .directory →
      ((directory members).makeDirectories "out").1 = true →
      Directories.Ready ⟨"i18n", "out"⟩ (directory members) := by
    intro members hinput houtput
    have hnames : Path.names "i18n" = ["i18n"] := by decide +kernel
    refine ⟨find?_of_node?_eq_directory hd.input ⟨by decide +kernel, by decide +kernel⟩ ?_,
      Or.inr houtput⟩
    rw [hnames]
    exact hinput
  -- The stray document is of no language of the configuration, and no other file differs.
  have hinputs : SameInputs ⟨"i18n", "out"⟩ (directory left) (directory right) := by
    refine ⟨sameAt_of_node?_eq (by decide +kernel) (by rw [hleft, hright]; decide +kernel), ?_⟩
    rintro config ⟨text, htext, hcheck⟩ locale hlocale
    have hsettings : (directory left).text? (Path.join "i18n" Config.fileName) = some settings := by
      rw [hleft]
      decide +kernel
    rw [hsettings] at htext
    cases htext
    have hlanguages : (match Config.check (Path.join "i18n" Config.fileName) settings with
        | .ok config => decide (config.languages = ["en"])
        | .error _ => false) = true := by decide +kernel
    rw [hcheck] at hlanguages
    rw [of_decide_eq_true hlanguages, List.mem_singleton] at hlocale
    rw [hlocale]
    exact sameAt_of_node?_eq (by decide +kernel) (by rw [hleft, hright]; decide +kernel)
  rcases run_depends_on_inputs ⟨"i18n", "out"⟩ hd with ⟨hsame, hagain⟩
  have hresults := (hsame (directory left) (directory right)
    (hready left (by rw [hleft]; decide +kernel) (by rw [hleft]; decide +kernel))
    (hready right (by rw [hright]; decide +kernel) (by rw [hright]; decide +kernel)) hinputs).1
  have hcount : (match (perform (run ⟨"i18n", "out"⟩) (directory left)).1 with
      | .ok (.generated _ count) => decide (count = 1)
      | _ => false) = true := by
    rw [hleft]
    decide +kernel
  cases hrun : perform (run ⟨"i18n", "out"⟩) (directory left) with
  | mk result after =>
      rw [hrun] at hcount hresults
      cases result with
      | error e => cases hcount
      | ok outcome =>
          cases outcome with
          | bootstrapped path => cases hcount
          | generated files count =>
              cases of_decide_eq_true hcount
              refine ⟨left, right, files, after, ?_, ?_, ?_, ?_, hrun, hresults.symm,
                (hagain left files 1 after hrun).1⟩
              · rw [hleft]
                decide +kernel
              · rw [hright]
                decide +kernel
              · rw [hleft]
                decide +kernel
              · rw [hright]
                decide +kernel

end Phrasebook
