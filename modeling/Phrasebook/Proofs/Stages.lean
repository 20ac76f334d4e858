import Phrasebook.Proofs.Catalogue
import Phrasebook.Proofs.Configuration
import Phrasebook.Proofs.Fallible
import Phrasebook.Proofs.Merge
import Phrasebook.Proofs.Paths
import Phrasebook.Proofs.Validation
import Phrasebook.Run

/-!
# Stages of a Run

What each stage of a run does to the files. A stage is a computation that changes a
tree and may fail, and `FileTree.perform` is its result together with the tree that it
leaves, which is there also if it fails. Two lemmas on sequences are all that is needed
to take a run apart: the second part starts with the tree that the first one left
(`FileTree.perform_bind_of_ok`), and after a failure nothing more happens
(`FileTree.perform_bind_of_error`).

There are four stages that may change something. The output directory is dropped and
made again, the input directory is made if it is missing, a configuration is written if
there is none, and in the end the manifest is written. Each has one theorem here with
all its outcomes. All other stages only read, and for these the theorems say where what
was read is stored (`Config.StoredIn`, `Document.StoredIn`).

A run is a chain of these stages that ends where one of them fails. `Course` lists the
ways it can go by what happened to the files, so that what is said of a run is shown by
five cases and not by following the chain each time.

## Main definitions

* `FileTree.perform`: What a computation makes of a tree.
* `FileTree.text?`: The text of a file.
* `Cleared`: A tree without the directory at a path.
* `Config.StoredIn`, `Document.StoredIn`, `Sources.StoredIn`: What is stored in an input
  directory.
* `Course`: The ways a run can go.

## Theorems

* `resetOutput_cases`: The output directory is emptied, or the run fails.
* `ensureInput_cases`: The input directory is made.
* `Config.load_cases`: A configuration is loaded or written.
* `perform_loadSources`: Documents are loaded from where they are stored.
* `Manifest.perform_write`: The manifest is written, or the run fails.
* `course_run`: A run goes one of these ways.
-/

namespace Phrasebook

namespace FileTree

variable {ε ε' α β : Type} {tree after : FileTree}

/-- A computation with the files of a tree, which may fail. -/
abbrev Action (ε α : Type) := ExceptT ε (StateM FileTree) α

/-- The result of a computation that starts with a tree, and the tree that it leaves. -/
def perform (action : Action ε α) (tree : FileTree) : Except ε α × FileTree :=
  (action.run.run tree).run

/-- The second part of a sequence starts with the tree that the first one left. -/
theorem perform_bind_of_ok {x : Action ε α} {a : α}
    (h : perform x tree = (.ok a, after)) (f : α → Action ε β) :
    perform (x >>= f) tree = perform (f a) after := by
  have hrun : x.run.run tree = (.ok a, after) := h
  rw [perform, ExceptT.run_bind, StateT.run_bind, hrun]
  rfl

/-- After a failure nothing more happens. -/
theorem perform_bind_of_error {x : Action ε α} {e : ε}
    (h : perform x tree = (.error e, after)) (f : α → Action ε β) :
    perform (x >>= f) tree = (.error e, after) := by
  have hrun : x.run.run tree = (.error e, after) := h
  rw [perform, ExceptT.run_bind, StateT.run_bind, hrun]
  rfl

/-- A failure that is told in other words is a failure with the same tree. -/
theorem perform_adapt (x : Action ε α) (f : ε → ε') (tree : FileTree) :
    perform (x.adapt f) tree = ((perform x tree).1.mapError f, (perform x tree).2) := rfl

/-- A list of computations that leave a tree as it is leaves it as it is, and its result
    is made from theirs. -/
theorem perform_mapM (f : α → Action ε β) (result : α → Except ε β)
    (h : ∀ a, perform (f a) tree = (result a, tree)) (xs : List α) :
    perform (xs.mapM f) tree = (xs.mapM result, tree) := by
  induction xs with
  | nil => rfl
  | cons x xs ih =>
      rw [List.mapM_cons, List.mapM_cons]
      -- The first action that fails ends the list, and none has changed the tree by then.
      cases hx : result x with
      | error e => exact perform_bind_of_error (hx ▸ h x) _
      | ok b =>
          rw [perform_bind_of_ok (hx ▸ h x)]
          cases hxs : xs.mapM result with
          | error e => exact perform_bind_of_error (hxs ▸ ih) _
          | ok bs => exact perform_bind_of_ok (hxs ▸ ih) _

/-- The text of the file that a path leads to. -/
def text? (tree : FileTree) (path : String) : Option String :=
  (tree.content? path).bind String.fromUTF8?

section Access

variable (path : String)

theorem perform_isPresent : perform (FileAccess.isPresent path : Action ε Bool) tree =
    (.ok (tree.find? path).isSome, tree) := rfl

theorem perform_isFile : perform (FileAccess.isFile path : Action ε Bool) tree =
    (.ok (tree.content? path).isSome, tree) := rfl

theorem perform_isDirectory : perform (FileAccess.isDirectory path : Action ε Bool) tree =
    (.ok ((tree.find? path).any isDirectoryNode), tree) := rfl

theorem perform_readText? : perform (FileAccess.readText? path : Action ε (Option String)) tree =
    (.ok (tree.text? path), tree) := rfl

theorem perform_writeText (text : String) :
    perform (FileAccess.writeText path text : Action ε Bool) tree =
      (.ok (tree.writeFile path text.toUTF8).1, (tree.writeFile path text.toUTF8).2) := rfl

theorem perform_makeDirectory : perform (FileAccess.makeDirectory path : Action ε Bool) tree =
    (.ok (tree.makeDirectories path).1, (tree.makeDirectories path).2) := rfl

theorem perform_removeDirectory : perform (FileAccess.removeDirectory path : Action ε Bool) tree =
    (.ok (tree.removeDirectories path).1, (tree.removeDirectories path).2) := rfl

end Access

end FileTree

open FileTree

theorem fromUTF8?_toUTF8 (text : String) : String.fromUTF8? text.toUTF8 = some text := by
  have hvalid : text.toUTF8.IsValidUTF8 := text.isValidUTF8
  rw [String.fromUTF8?, dif_pos hvalid]
  rfl

section Preparation

variable (tree : FileTree) (path : String)

/-- An action on a path for which the run fails if it was not done. -/
def orFail (action : Action RunError Bool) (path : String) : Action RunError Unit := do
  if !(← action) then throw (.directory path)

theorem perform_orFail {action : Action RunError Bool} {before after : FileTree} {done : Bool}
    (h : perform action before = (.ok done, after)) : perform (orFail action path) before =
      (if done then .ok () else .error (.directory path), after) := by
  unfold orFail
  rw [perform_bind_of_ok h]
  cases done <;> rfl

/-- A tree from which the directory at a path was dropped, if one was found there. -/
structure Cleared (bare : FileTree) : Prop where
  same : ∀ place, ¬ Path.names path <+: place → bare.node? place = tree.node? place
  passable : bare.Passable (Path.names path) ↔ tree.Passable (Path.names path)
  vacant : Path.Fits path → bare.Passable (Path.names path) → bare.get? (Path.names path) = none
  file : ∀ content, tree.node? (Path.names path) = some (.file content) →
    bare.node? (Path.names path) = some (.file content)

/-- If nothing was found, there is nothing, or the path is not one for a directory. -/
theorem cleared_of_none (hplain : Path.Plain path) (hfind : tree.find? path = none) :
    Cleared tree path tree := by
  refine ⟨fun place _ => rfl, Iff.rfl, fun hfits hpassable => ?_, fun content hfile => hfile⟩
  rw [Option.eq_none_iff_forall_ne_some]
  intro inside hinside
  cases inside with
  | file content =>
      exact hpassable _ List.prefix_rfl content ((get?_eq_file_iff tree _ content).mp hinside)
  | directory members =>
      rw [(find?_eq_some_iff tree path _ hplain).mpr ⟨hfits, hinside, fun _ => rfl⟩] at hfind
      cases hfind

theorem cleared_of_directory (hplain : Path.Plain path) (hempty : path ≠ "")
    (members : List (String × FileTree)) (hfind : tree.find? path = some (directory members)) :
    Cleared tree path (tree.drop (Path.names path)) := by
  have hinside := ((find?_eq_some_iff tree path _ hplain).mp hfind).2.1
  have hdirectory : tree.node? (Path.names path) = some .directory := node?_of_get? hinside
  rcases get?_drop tree _ (Path.names_ne_nil path hplain.1 hempty)
    (Option.isSome_iff_exists.mpr ⟨_, hinside⟩) with ⟨hnone, hsame⟩
  -- The place was a directory, so what is around it are directories too, before and after.
  refine ⟨hsame, iff_of_true (fun place hplace content hfile => ?_) ?_, fun _ _ => hnone,
    fun content hfile => ?_⟩
  · by_cases hpath : Path.names path <+: place
    · rw [hplace.eq_of_length (Nat.le_antisymm hplace.length_le hpath.length_le), node?, hnone] at hfile
      cases hfile
    · rw [hsame place hpath, node?_above tree place _ hplace hdirectory] at hfile
      cases hfile
  · exact passable_of_directory tree _ hdirectory
  · rw [hdirectory] at hfile
    cases hfile

/-- At the output path there is a file, on which the run fails, or what is there is
    dropped, and then directories are made. -/
theorem perform_resetOutput (hplain : Path.Plain path) (hempty : path ≠ "") :
    (∃ content, tree.find? path = some (file content)) ∧
        perform (resetOutput path) tree = (.error (.directory path), tree) ∨
      ∃ bare, Cleared tree path bare ∧ perform (resetOutput path) tree =
        (if (bare.makeDirectories path).1 then .ok () else .error (.directory path),
          (bare.makeDirectories path).2) := by
  unfold resetOutput
  rw [perform_bind_of_ok (perform_isPresent path)]
  cases hfind : tree.find? path with
  | none =>
      exact Or.inr ⟨tree, cleared_of_none tree path hplain hfind,
        perform_orFail path (perform_makeDirectory path)⟩
  | some inside =>
      rw [Option.isSome_some, if_pos rfl, perform_bind_of_ok (perform_removeDirectory path)]
      -- A file is refused and stays; a directory is removed with all that is in it.
      cases inside with
      | file content =>
          rw [removeDirectories_of_file tree path content hfind]
          exact Or.inl ⟨⟨content, rfl⟩, rfl⟩
      | directory members =>
          rw [removeDirectories_of_directory tree path members hplain hfind]
          exact Or.inr ⟨_, cleared_of_directory tree path hplain hempty members hfind,
            perform_orFail path (perform_makeDirectory path)⟩

/-- The output directory is empty afterwards, unless its path is too long or a file is on
    the way, on which the run fails. Elsewhere only directories around it are new. -/
theorem resetOutput_cases (hplain : Path.Plain path) (hempty : path ≠ "")
    (hroot : tree.node? [] = some .directory) : ∃ result after,
    perform (resetOutput path) tree = (result, after) ∧
      (∀ place, ¬ Path.names path <+: place → Kept tree after place (place <+: Path.names path)) ∧
      (result = .ok () ∧ Path.Fits path ∧ tree.Passable (Path.names path) ∧
          after.get? (Path.names path) = some empty ∨
        result = .error (.directory path) ∧
          ¬ (Path.Fits path ∧ tree.Passable (Path.names path)) ∧
          ∀ content, tree.node? (Path.names path) = some (.file content) →
            after.node? (Path.names path) = some (.file content)) := by
  have hnames := Path.names_ne_nil path hplain.1 hempty
  rcases perform_resetOutput tree path hplain hempty with
    ⟨⟨content, hfind⟩, hfail⟩ | ⟨bare, hcleared, hrun⟩
  · have hfile := (get?_eq_file_iff tree _ content).mp
      ((find?_eq_some_iff tree path _ hplain).mp hfind).2.1
    refine ⟨_, _, hfail, fun place _ => Or.inl rfl, Or.inr ⟨rfl, fun h => ?_, fun _ h => h⟩⟩
    exact h.2 _ List.prefix_rfl content hfile
  · have hbareRoot : bare.node? [] = some .directory :=
      (hcleared.same [] (fun hprefix => hnames (List.prefix_nil.mp hprefix))).trans hroot
    have hgrown := grown_makeDirectories bare path hplain hbareRoot
    have hmade := makeDirectories_eq_true_iff bare path hplain hempty hbareRoot
    refine ⟨_, _, hrun, fun place hplace => ?_, ?_⟩
    · have hkept := hgrown.kept place
      rw [Kept, hcleared.same place hplace] at hkept
      exact hkept
    -- Making the directory fails exactly if a file is in the way, and then the file is kept.
    · by_cases hdone : (bare.makeDirectories path).1 = true
      · rcases hmade.mp hdone with ⟨hfits, hpassable⟩
        have hget := get?_makeDirectories bare path hplain hempty hbareRoot hdone
        rw [hcleared.vacant hfits hpassable, Option.getD_none] at hget
        rw [if_pos hdone]
        exact Or.inl ⟨rfl, hfits, hcleared.passable.mp hpassable, hget⟩
      · rw [if_neg hdone]
        rw [hmade, hcleared.passable] at hdone
        exact Or.inr ⟨rfl, hdone, fun content hfile =>
          (hgrown.kept _).node?_of_eq_some (hcleared.file content hfile)⟩

/-- The input directory is made if it is missing. The run fails on its path if there is no
    directory then. -/
theorem ensureInput_cases (hplain : Path.Plain path) (hroot : tree.node? [] = some .directory) :
    ∃ result after, perform (ensureInput path) tree = (result, after) ∧
      Grown tree after (Path.names path) ∧
      (result = .ok () ∨ result = .error (.directory path)) := by
  -- In the end it is asked whether there is a directory.
  have hcheck : ∀ ready : FileTree, ∃ result,
      perform (orFail (FileAccess.isDirectory path) path) ready = (result, ready) ∧
        (result = .ok () ∨ result = .error (.directory path)) := by
    intro ready
    refine ⟨_, perform_orFail path (perform_isDirectory path), ?_⟩
    cases (ready.find? path).any isDirectoryNode with
    | false => exact Or.inr rfl
    | true => exact Or.inl rfl
  unfold ensureInput
  rw [perform_bind_of_ok (perform_isPresent path)]
  cases hfind : (tree.find? path).isSome with
  | true =>
      rcases hcheck tree with ⟨result, hresult, hcases⟩
      exact ⟨result, tree, hresult, .refl, hcases⟩
  | false =>
      have hgrown := grown_makeDirectories tree path hplain hroot
      rw [Bool.not_false, if_pos rfl, perform_bind_of_ok (perform_makeDirectory path)]
      cases hdone : (tree.makeDirectories path).1 with
      | false => exact ⟨_, _, rfl, hgrown, Or.inr rfl⟩
      | true =>
          rcases hcheck (tree.makeDirectories path).2 with ⟨result, hresult, hcases⟩
          exact ⟨result, _, hresult, hgrown, hcases⟩

end Preparation

section Reading

variable (tree : FileTree) (input : String)

/-- A configuration is stored in an input directory. -/
def Config.StoredIn (c : Config) : Prop := ∃ text,
  tree.text? (Path.join input Config.fileName) = some text ∧
    Config.check (Path.join input Config.fileName) text = .ok c

/-- The document of a locale is stored in an input directory. -/
def Document.StoredIn (locale : String) (d : Document) : Prop := ∃ text,
  tree.text? (Locale.filePath input locale) = some text ∧
    Document.parse locale (Locale.filePath input locale) text = .ok d

/-- The documents of all languages of a configuration are stored in an input directory. -/
structure Sources.StoredIn (config : Config) (s : Sources) : Prop where
  base : Document.StoredIn tree input config.defaultLanguage s.base
  others : List.Forall₂ (Document.StoredIn tree input) config.secondaryLanguages s.others

theorem Config.valid_of_check (path text : String) (c : Config) (h : check path text = .ok c) :
    c.Valid := by
  unfold check at h
  split at h
  · cases h
  · split at h
    next hvalid =>
      cases h
      exact hvalid
    next => cases h

/-- The printed default configuration is read and valid. -/
theorem Config.check_default (path : String) : check path default.print = .ok default := by
  have hvalid : default.Valid := by decide +kernel
  rw [check, parse_of_writes default.print default (writes_print default)]
  dsimp only
  rw [if_pos hvalid]

/-- The configuration is loaded from where it is stored; if nothing is there the default
    one is written; or loading fails, and nothing happens. -/
theorem Config.load_cases : ∃ result after, perform (load input) tree = (result, after) ∧
    ((∃ config, result = .ok (.loaded config) ∧ after = tree ∧ Config.StoredIn tree input config) ∨
      result = .ok (.bootstrapped (Path.join input fileName)) ∧
        tree.find? (Path.join input fileName) = none ∧
        tree.writeFile (Path.join input fileName) default.print.toUTF8 = (true, after) ∨
      (∃ cause, result = .error cause) ∧ after = tree) := by
  unfold load
  dsimp only
  rw [perform_bind_of_ok (perform_isPresent _)]
  -- The default is written only if nothing has the name of the configuration.
  cases hfind : tree.find? (Path.join input fileName) with
  | none =>
      rw [Option.isSome_none, if_neg Bool.false_ne_true, perform_bind_of_ok (perform_writeText _ _)]
      cases hwrite : tree.writeFile (Path.join input fileName) default.print.toUTF8 with
      | mk done after =>
          cases done with
          | true => exact ⟨_, after, rfl, Or.inr (Or.inl ⟨rfl, rfl, rfl⟩)⟩
          | false =>
              exact ⟨_, after, rfl, Or.inr (Or.inr ⟨⟨_, rfl⟩, writeFile_of_false _ _ _ _ hwrite⟩)⟩
  | some inside =>
      rw [Option.isSome_some, if_pos rfl, perform_bind_of_ok (perform_readText? _)]
      cases htext : tree.text? (Path.join input fileName) with
      | none => exact ⟨_, tree, rfl, Or.inr (Or.inr ⟨⟨_, rfl⟩, rfl⟩)⟩
      | some text =>
          dsimp only
          cases hcheck : check (Path.join input fileName) text with
          | error cause => exact ⟨_, tree, rfl, Or.inr (Or.inr ⟨⟨cause, rfl⟩, rfl⟩)⟩
          | ok config => exact ⟨_, tree, rfl, Or.inl ⟨config, rfl, rfl, text, htext, hcheck⟩⟩

/-- A document is loaded from where it is stored, and nothing happens to the files. -/
theorem Document.perform_load (locale : String) : ∃ result : Except LoadError Document,
    perform (load input locale) tree = (result, tree) ∧
      ∀ document, result = .ok document → Document.StoredIn tree input locale document := by
  unfold load
  dsimp only
  rw [perform_bind_of_ok (perform_isFile _)]
  cases hfile : (tree.content? (Locale.filePath input locale)).isSome with
  | false => exact ⟨_, rfl, fun document h => by cases h⟩
  | true =>
      rw [if_pos rfl, perform_bind_of_ok (perform_readText? _)]
      cases htext : tree.text? (Locale.filePath input locale) with
      | none => exact ⟨_, rfl, fun document h => by cases h⟩
      | some text =>
          dsimp only
          cases hparse : parse locale (Locale.filePath input locale) text with
          | error cause => exact ⟨_, rfl, fun document h => by cases h⟩
          | ok loaded =>
              refine ⟨_, rfl, fun document h => ?_⟩
              cases h
              exact ⟨text, htext, hparse⟩

/-- All documents are loaded from where they are stored, and nothing happens to the
    files. -/
theorem perform_loadSources (config : Config) : ∃ result : Except LoadError Sources,
    perform (loadSources input config) tree = (result, tree) ∧
      ∀ sources, result = .ok sources → Sources.StoredIn tree input config sources := by
  -- What a document is loaded as depends on the tree alone, which loading does not change.
  let loaded (locale : String) : Except LoadError Document :=
    (perform (Document.load input locale) tree).1
  have hload : ∀ locale, perform (Document.load input locale) tree = (loaded locale, tree) ∧
      ∀ document, loaded locale = .ok document →
        Document.StoredIn tree input locale document := by
    intro locale
    rcases Document.perform_load tree input locale with ⟨result, hresult, hstored⟩
    have hloaded : loaded locale = result := congrArg Prod.fst hresult
    rw [hloaded]
    exact ⟨hresult, hstored⟩
  have hothers := perform_mapM (Document.load input) loaded (fun locale => (hload locale).1)
    config.secondaryLanguages
  unfold loadSources
  cases hbase : loaded config.defaultLanguage with
  | error cause =>
      refine ⟨.error cause, ?_, fun sources h => by cases h⟩
      exact perform_bind_of_error (hbase ▸ (hload config.defaultLanguage).1) _
  | ok base =>
      have hfirst := (hload config.defaultLanguage).1
      rw [hbase] at hfirst
      rw [perform_bind_of_ok hfirst]
      cases hdocuments : config.secondaryLanguages.mapM loaded with
      | error cause =>
          refine ⟨.error cause, ?_, fun sources h => by cases h⟩
          exact perform_bind_of_error (hdocuments ▸ hothers) _
      | ok documents =>
          rw [hdocuments] at hothers
          rw [perform_bind_of_ok hothers]
          refine ⟨_, rfl, fun sources h => ?_⟩
          cases h
          refine ⟨(hload _).2 base hbase, ?_⟩
          exact ((Fallible.mapM_eq_ok_iff loaded _ _).mp hdocuments).imp
            (fun locale document h => (hload locale).2 document h)

/-- The manifest is written to its path, or writing it fails. -/
theorem Manifest.perform_write (manifest : Manifest) (output : String) :
    perform (manifest.write output) tree =
      (if (tree.writeFile (Path.join output fileName) manifest.print.toUTF8).1
        then .ok [Path.join output fileName] else .error (Path.join output fileName),
        (tree.writeFile (Path.join output fileName) manifest.print.toUTF8).2) := by
  unfold write
  dsimp only
  rw [perform_bind_of_ok (perform_writeText _ _)]
  cases (tree.writeFile (Path.join output fileName) manifest.print.toUTF8).1 <;> rfl

end Reading

/-- The size of a catalogue is the number of the default messages. -/
theorem size_of_compile (config : Config) (base : Dict String) (editions : List Edition)
    (c : Catalogue) (h : compile config base editions = .ok c) : c.size = base.size := by
  rcases (Fallible.bind_eq_ok_iff _ _ _).mp h with ⟨entries, hentries, hcatalogue⟩
  have hkeys := Dict.keys_of_mapM _ base entries (mapM_of_merge config base editions entries hentries)
  have hlength := congrArg List.length hkeys
  rw [Dict.keys, Dict.keys, List.length_map, List.length_map] at hlength
  rw [(Catalogue.arranges_ofEntries config entries c hcatalogue).size, hlength, Dict.size]

/-- How a run goes: it fails to prepare its output or input directory, writes a
    configuration, fails at a later stage without a change to the files, or writes the
    manifest. -/
inductive Course (d : Directories) (tree : FileTree) : Except RunError Outcome → FileTree → Prop
  | noOutput {e : RunError} {after : FileTree} :
      perform (resetOutput d.output) tree = (.error e, after) → Course d tree (.error e) after
  | noInput {e : RunError} {bare after : FileTree} :
      perform (resetOutput d.output) tree = (.ok (), bare) →
      perform (ensureInput d.input) bare = (.error e, after) → Course d tree (.error e) after
  | bootstrapped {bare ready after : FileTree} :
      perform (resetOutput d.output) tree = (.ok (), bare) →
      perform (ensureInput d.input) bare = (.ok (), ready) →
      ready.find? (Path.join d.input Config.fileName) = none →
      ready.writeFile (Path.join d.input Config.fileName) Config.default.print.toUTF8 =
        (true, after) →
      Course d tree (.ok (.bootstrapped (Path.join d.input Config.fileName))) after
  | failed {e : RunError} {bare ready : FileTree} :
      perform (resetOutput d.output) tree = (.ok (), bare) →
      perform (ensureInput d.input) bare = (.ok (), ready) → Course d tree (.error e) ready
  | generated {bare ready after : FileTree} {config : Config} {sources : Sources}
      {catalogue : Catalogue} :
      perform (resetOutput d.output) tree = (.ok (), bare) →
      perform (ensureInput d.input) bare = (.ok (), ready) →
      config.StoredIn ready d.input → sources.StoredIn ready d.input config →
      compile config sources.base.messages sources.editions = .ok catalogue →
      ready.writeFile (Path.join d.output Manifest.fileName)
        (Manifest.ofCatalogue config catalogue).print.toUTF8 = (true, after) →
      Course d tree
        (.ok (.generated [Path.join d.output Manifest.fileName] sources.base.messages.size)) after

/-- A run goes one of these ways. -/
theorem course_run (d : Directories) (tree : FileTree) :
    Course d tree (perform (run d) tree).1 (perform (run d) tree).2 := by
  unfold run
  -- The stages in their order: each has failed, or hands its tree to the next.
  rcases hreset : perform (resetOutput d.output) tree with ⟨e | ⟨⟩, bare⟩
  · rw [perform_bind_of_error hreset]
    exact .noOutput hreset
  rw [perform_bind_of_ok hreset]
  rcases hensure : perform (ensureInput d.input) bare with ⟨e | ⟨⟩, ready⟩
  · rw [perform_bind_of_error hensure]
    exact .noInput hreset hensure
  rw [perform_bind_of_ok hensure]
  rcases Config.load_cases ready d.input with ⟨source, after, hload, hcases⟩
  have hadapted := perform_adapt (Config.load d.input) RunError.config ready
  rw [hload] at hadapted
  rcases hcases with ⟨config, rfl, rfl, hconfig⟩ | ⟨rfl, hfind, hwrite⟩ | ⟨⟨cause, rfl⟩, rfl⟩
  · rw [perform_bind_of_ok hadapted]
    dsimp only
    rcases perform_loadSources after d.input config with ⟨result, hsources, hstored⟩
    have hadapted := perform_adapt (loadSources d.input config) RunError.document after
    rw [hsources] at hadapted
    cases result with
    | error cause =>
        rw [perform_bind_of_error hadapted]
        exact .failed hreset hensure
    | ok sources =>
        rw [perform_bind_of_ok hadapted]
        have hcompile : perform (ExceptT.mk (pure (sources.compile config))) after =
          (sources.compile config, after) := rfl
        -- Compiling is no access to files, so it has the same tree before and behind it.
        unfold Sources.compile at hcompile ⊢
        cases hcatalogue : compile config sources.base.messages sources.editions with
        | error defect =>
            rw [hcatalogue] at hcompile
            rw [perform_bind_of_error hcompile]
            exact .failed hreset hensure
        | ok catalogue =>
            rw [hcatalogue] at hcompile
            rw [perform_bind_of_ok hcompile]
            have hadapted := perform_adapt
              ((Manifest.ofCatalogue config catalogue).write d.output) RunError.manifest after
            rw [Manifest.perform_write] at hadapted
            cases hwrite : after.writeFile (Path.join d.output Manifest.fileName)
              (Manifest.ofCatalogue config catalogue).print.toUTF8 with
            | mk written last =>
                rw [hwrite] at hadapted
                cases written with
                | false =>
                    rw [perform_bind_of_error hadapted, writeFile_of_false after _ _ last hwrite]
                    exact .failed hreset hensure
                | true =>
                    rw [perform_bind_of_ok hadapted, size_of_compile config _ _ catalogue hcatalogue]
                    exact .generated hreset hensure hconfig (hstored sources rfl) hcatalogue hwrite
  · rw [perform_bind_of_ok hadapted]
    exact .bootstrapped hreset hensure hfind hwrite
  · rw [perform_bind_of_error hadapted]
    exact .failed hreset hensure

end Phrasebook
