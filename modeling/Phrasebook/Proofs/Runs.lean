import Phrasebook.Proofs.InputFiles
import Phrasebook.Proofs.Stages

/-!
# What a Run Leaves Behind

The two promises of a run about files. Its output directory holds the manifest, all of
it and nothing else, or it is empty, whatever it held before (`run_leaves`). And a run
has no other effects than its output and a configuration where there was none
(`run_spares`): some directories may be new around the two, but no file and no
directory elsewhere is changed or gone.

Both need that the input directory does not lie in the output directory, which is
emptied before anything is read. The output directory may lie in the input directory,
and even take the place of a document. A file at that place makes the run fail, so it
is still there afterwards, and a directory is no document.

After both directories were prepared the output directory is empty, and what has been
done elsewhere are new directories only (`Prepared`). There are two ways on from there
in which something is written.

## Main definitions

* `Directories.Separate`: The input directory is not in the output directory.
* `Prepared`: How the files are when the directories of a run have been prepared.
* `Leaves`: What a run leaves in its output directory.

## Theorems

* `prepared_of_ensureInput`: Directories are prepared by the first two stages.
* `Prepared.storedIn`: What is read then was stored before the run.
* `run_leaves`: A run leaves the manifest or nothing.
* `run_spares`: A run spares what is not its output.
-/

namespace Phrasebook

open FileTree

/-- Plain paths of an input and an output directory, of which the first is not in the
    second. -/
structure Directories.Separate (d : Directories) : Prop where
  input : Path.Plain d.input
  output : Path.Plain d.output
  named : d.output ≠ ""
  apart : ¬ Path.names d.output <+: Path.names d.input

/-- The files when both directories of a run have been prepared: the output directory is
    empty, there was no file in its place or around it, and other places are as they were,
    but for directories that were made. -/
structure Prepared (d : Directories) (tree ready : FileTree) : Prop where
  fits : Path.Fits d.output
  vacant : ready.get? (Path.names d.output) = some empty
  passable : tree.Passable (Path.names d.output)
  kept : ∀ place, ¬ Path.names d.output <+: place → Kept tree ready place
    (place <+: Path.names d.output ∨ place <+: Path.names d.input)

section Preparation

variable {d : Directories} {tree bare ready : FileTree}

/-- Emptying the output directory and making the input directory prepares a run, and so it
    does if the input directory could not be made. -/
theorem prepared_of_ensureInput (hd : d.Separate) (hroot : tree.node? [] = some .directory)
    {result : Except RunError Unit} (hreset : perform (resetOutput d.output) tree = (.ok (), bare))
    (hensure : perform (ensureInput d.input) bare = (result, ready)) :
    Prepared d tree ready ∧ Grown bare ready (Path.names d.input) := by
  rcases resetOutput_cases tree d.output hd.output hd.named hroot with
    ⟨reset, after, hrun, hkept, hcases⟩
  rw [hreset, Prod.mk.injEq] at hrun
  rcases hrun with ⟨rfl, rfl⟩
  rcases hcases with ⟨-, hfits, hpassable, hempty⟩ | ⟨hfail, -⟩
  · have hnames := Path.names_ne_nil d.output hd.output.1 hd.named
    have hbareRoot := (hkept [] (fun hnil => hnames (List.prefix_nil.mp hnil))).node?_of_eq_some hroot
    rcases ensureInput_cases bare d.input hd.input hbareRoot with
      ⟨result', after, hrun, hgrown, -⟩
    rw [hensure, Prod.mk.injEq] at hrun
    rcases hrun with ⟨rfl, rfl⟩
    refine ⟨⟨hfits, ?_, hpassable, fun place hplace => ?_⟩, hgrown⟩
    · -- The output directory is not on the way to the input directory.
      rw [hgrown.apart _ hd.apart, hempty]
    · exact (hkept place hplace).trans (hgrown.kept place)
  · cases hfail

namespace Prepared

variable (h : Prepared d tree ready)

include h

theorem node?_output : ready.node? (Path.names d.output) = some .directory :=
  node?_of_get? h.vacant

/-- The output path leads to the directory at its place. -/
theorem find?_output (hd : d.Separate) {final : FileTree} (inside : List (String × FileTree))
    (hfinal : final.get? (Path.names d.output) = some (directory inside)) :
    final.find? d.output = some (directory inside) :=
  (find?_eq_some_iff final d.output _ hd.output).mpr ⟨h.fits, hfinal, fun _ => rfl⟩

/-- A place directly in the input directory is neither the output directory nor around
    it or in it, if a file can be written there. -/
theorem apart_of_writable (hd : d.Separate) {name : String}
    (hfree : ready.node? (Path.names d.input ++ [name]) ≠ some .directory) :
    ¬ Path.names d.output <+: Path.names d.input ++ [name] ∧
      ¬ Path.names d.input ++ [name] <+: Path.names d.output := by
  have habove : ¬ Path.names d.input ++ [name] <+: Path.names d.output :=
    fun hprefix => hfree (node?_above ready _ _ hprefix h.node?_output)
  refine ⟨fun hprefix => ?_, habove⟩
  rcases List.prefix_concat_iff.mp hprefix with heq | hinput
  · exact habove (heq ▸ List.prefix_rfl)
  · exact hd.apart hinput

/-- A file that stands directly in the input directory stood there before. -/
theorem node?_of_file (hd : d.Separate) {name : String} {content : ByteArray}
    (hfile : ready.node? (Path.names d.input ++ [name]) = some (.file content)) :
    tree.node? (Path.names d.input ++ [name]) = some (.file content) := by
  have hfree : ready.node? (Path.names d.input ++ [name]) ≠ some .directory := by
    rw [hfile]
    exact fun heq => Node.noConfusion (Option.some.inj heq)
  rw [(h.kept _ (h.apart_of_writable hd hfree).1).node?_of_ne_directory hfree, hfile]

/-- A text that is read from the input directory was there before. -/
theorem text?_of_ready (hd : d.Separate) {name : String} (hname : Path.IsName name)
    (hplain : name ≠ "." ∧ name ≠ "..") {text : String}
    (htext : ready.text? (Path.join d.input name) = some text) :
    tree.text? (Path.join d.input name) = some text := by
  have hpath := hd.input.join hname hplain
  rcases Option.bind_eq_some_iff.mp htext with ⟨content, hcontent, hutf8⟩
  rcases (content?_eq_some_iff ready _ content hpath).mp hcontent with ⟨hfits, hfile, hslash⟩
  rw [get?_eq_file_iff, Path.names_join d.input name hname] at hfile
  refine Option.bind_eq_some_iff.mpr ⟨content, ?_, hutf8⟩
  refine (content?_eq_some_iff tree _ content hpath).mpr ⟨hfits, ?_, hslash⟩
  rw [get?_eq_file_iff, Path.names_join d.input name hname]
  exact h.node?_of_file hd hfile

/-- The configuration and the documents that are loaded were stored before the run. -/
theorem storedIn (hd : d.Separate) {config : Config} {sources : Sources}
    (hconfig : config.StoredIn ready d.input) (hsources : sources.StoredIn ready d.input config) :
    config.StoredIn tree d.input ∧ sources.StoredIn tree d.input config := by
  rcases hconfig with ⟨text, htext, hcheck⟩
  have hvalid := Config.valid_of_check _ text config hcheck
  have hdocument : ∀ locale ∈ config.languages, ∀ document,
      Document.StoredIn ready d.input locale document →
        Document.StoredIn tree d.input locale document := by
    rintro locale hlocale document ⟨text, htext, hparse⟩
    rcases isName_locale locale (hvalid.isLanguage config locale hlocale) with ⟨hname, hplain⟩
    exact ⟨text, h.text?_of_ready hd hname hplain htext, hparse⟩
  refine ⟨⟨text, h.text?_of_ready hd (by decide) (by decide) htext, hcheck⟩, ?_, ?_⟩
  · exact hdocument _ (hvalid.defaultLanguage_mem config) _ hsources.base
  · rcases List.forall₂_iff_zip.mp hsources.others with ⟨hlength, hothers⟩
    refine List.forall₂_iff_zip.mpr ⟨hlength, fun {locale document} hmem => ?_⟩
    have hlocale := List.mem_of_mem_filter (List.of_mem_zip hmem).1
    exact hdocument locale hlocale document (hothers hmem)

/-- Writing the configuration leaves the output directory empty, and all places but that of
    the configuration as they are. -/
theorem of_bootstrap (hd : d.Separate) {content : ByteArray} {after : FileTree}
    (hwrite : ready.writeFile (Path.join d.input Config.fileName) content = (true, after)) :
    after.get? (Path.names d.output) = some empty ∧
      ∀ place, place ≠ Path.names d.input ++ [Config.fileName] →
        after.node? place = ready.node? place := by
  rcases writeFile_join ready _ _ _ _ hd.input (by decide) (by decide) hwrite with
    ⟨-, haround, hfree, rfl⟩
  rcases h.apart_of_writable hd hfree with ⟨houtput, habove⟩
  constructor
  · rw [get?_put_of_apart ready _ _ _ habove houtput, h.vacant]
  · exact node?_put_file ready _ Config.fileName content haround hfree

/-- Writing the manifest makes it the only content of the output directory, and leaves all
    places outside as they are. -/
theorem of_manifest (hd : d.Separate) {content : ByteArray} {after : FileTree}
    (hwrite : ready.writeFile (Path.join d.output Manifest.fileName) content = (true, after)) :
    after.get? (Path.names d.output) = some (directory [(Manifest.fileName, file content)]) ∧
      ∀ place, ¬ Path.names d.output <+: place → after.node? place = ready.node? place := by
  rcases writeFile_join ready _ _ _ _ hd.output (by decide) (by decide) hwrite with
    ⟨-, haround, -, rfl⟩
  constructor
  · rw [get?_put_above, h.vacant]
    rfl
  · exact fun place hplace => node?_put ready _ _ Manifest.fileName haround place
      (fun hbelow => hplace ((List.prefix_append _ _).trans hbelow))

end Prepared

end Preparation

/-- What a run leaves in its output directory: the manifest of what was stored in the
    input directory, or nothing. It may also fail on the output directory itself, if there
    cannot be one. -/
def Leaves (d : Directories) (tree : FileTree) : Except RunError Outcome → FileTree → Prop
  | .ok (.generated files count), final =>
    ∃ (config : Config) (sources : Sources) (catalogue : Catalogue),
      config.StoredIn tree d.input ∧ sources.StoredIn tree d.input config ∧
      compile config sources.base.messages sources.editions = .ok catalogue ∧
      files = [Path.join d.output Manifest.fileName] ∧ count = sources.base.messages.size ∧
      final.find? d.output = some (directory [(Manifest.fileName,
        file (Manifest.ofCatalogue config catalogue).print.toUTF8)])
  | .ok (.bootstrapped _), final => final.find? d.output = some empty
  | .error e, final =>
    e = .directory d.output ∧ ¬ (Path.Fits d.output ∧ tree.Passable (Path.names d.output)) ∨
      final.find? d.output = some empty

/-- After a run its output directory holds the manifest, if the run says so, and else
    nothing, whatever was in it before and wherever the run failed. A run does not fail on
    that directory where one can be made. -/
theorem run_leaves (d : Directories) (members : List (String × FileTree)) (hd : d.Separate) :
    Leaves d (directory members) (perform (run d) (directory members)).1
      (perform (run d) (directory members)).2 := by
  have hroot : (directory members).node? [] = some .directory := rfl
  have hcourse := course_run d (directory members)
  generalize (perform (run d) (directory members)).1 = result at hcourse ⊢
  generalize (perform (run d) (directory members)).2 = final at hcourse ⊢
  -- Unless the output directory could not be prepared, it is empty until the manifest is
  -- written.
  cases hcourse with
  | noOutput hreset =>
      rcases resetOutput_cases (directory members) d.output hd.output hd.named hroot with
        ⟨reset, after, hrun, -, hcases⟩
      rw [hreset, Prod.mk.injEq] at hrun
      rcases hrun with ⟨rfl, rfl⟩
      rcases hcases with ⟨hok, -⟩ | ⟨hfail, hclosed, -⟩
      · cases hok
      · rw [Leaves]
        exact Or.inl ⟨Except.error.inj hfail, hclosed⟩
  | noInput hreset hensure =>
      have hprepared := (prepared_of_ensureInput hd hroot hreset hensure).1
      rw [Leaves]
      exact Or.inr (hprepared.find?_output hd [] hprepared.vacant)
  | bootstrapped hreset hensure hfind hwrite =>
      have hprepared := (prepared_of_ensureInput hd hroot hreset hensure).1
      exact hprepared.find?_output hd [] (hprepared.of_bootstrap hd hwrite).1
  | failed hreset hensure =>
      have hprepared := (prepared_of_ensureInput hd hroot hreset hensure).1
      rw [Leaves]
      exact Or.inr (hprepared.find?_output hd [] hprepared.vacant)
  | generated hreset hensure hconfig hsources hcompile hwrite =>
      have hprepared := (prepared_of_ensureInput hd hroot hreset hensure).1
      rcases hprepared.storedIn hd hconfig hsources with ⟨hconfig, hsources⟩
      have hmanifest := hprepared.find?_output hd _ (hprepared.of_manifest hd hwrite).1
      exact ⟨_, _, _, hconfig, hsources, hcompile, rfl, rfl, hmanifest⟩

/-- A second run, whose output replaces that of the first. -/
theorem run_leaves_again : ∃ members files count content,
    (directory members).node? ["out", "old.json"] = some (.file "".toUTF8) ∧
    (perform (run ⟨"i18n", "out"⟩) (directory members)).1 = .ok (.generated files count) ∧
    count = 1 ∧ (perform (run ⟨"i18n", "out"⟩) (directory members)).2.find? "out" =
      some (directory [("messages.json", file content)]) := by
  obtain ⟨members, hmembers⟩ : ∃ members : List (String × FileTree), members =
    [("i18n", directory [
      ("config.json", file "\x7b\"languages\":[\"en\"],\"defaultLanguage\":\"en\"\x7d".toUTF8),
      ("en.json", file "\x7b\"a\":\"x\"\x7d".toUTF8)]),
    ("out", directory [("old.json", file "".toUTF8)])] := ⟨_, rfl⟩
  have hd : Directories.Separate ⟨"i18n", "out"⟩ :=
    ⟨by decide +kernel, by decide +kernel, by decide +kernel, by decide +kernel⟩
  have hleaves := run_leaves ⟨"i18n", "out"⟩ members hd
  have hold : (directory members).node? ["out", "old.json"] = some (.file "".toUTF8) := by
    rw [hmembers]
    decide +kernel
  have hcount : (match (perform (run ⟨"i18n", "out"⟩) (directory members)).1 with
      | .ok (.generated _ count) => decide (count = 1)
      | _ => false) = true := by
    rw [hmembers]
    decide +kernel
  -- The run says that it has written one message, so the promise is about the manifest.
  cases hresult : (perform (run ⟨"i18n", "out"⟩) (directory members)).1 with
  | error e =>
      rw [hresult] at hcount
      cases hcount
  | ok outcome =>
      rw [hresult] at hcount hleaves
      cases outcome with
      | bootstrapped path => cases hcount
      | generated files count =>
          rcases hleaves with ⟨config, sources, catalogue, -, -, -, -, -, hfinal⟩
          exact ⟨members, files, count, _, hold, hresult, of_decide_eq_true hcount, hfinal⟩

/-- A run has written a configuration: there was nothing at its place once the output
    directory had been emptied, and it reads back as the default one. -/
structure Bootstrapped (d : Directories) (tree : FileTree) (result : Except RunError Outcome)
    (final : FileTree) : Prop where
  outcome : result = .ok (.bootstrapped (Path.join d.input Config.fileName))
  vacant : (perform (resetOutput d.output) tree).2.node?
    (Path.names d.input ++ [Config.fileName]) = none
  written : final.node? (Path.names d.input ++ [Config.fileName]) =
    some (.file Config.default.print.toUTF8)
  stored : Config.default.StoredIn final d.input

/-- The configuration that is written was missing, and can be read. -/
theorem bootstrapped_of_write {d : Directories} {tree bare ready after : FileTree}
    (hd : d.Separate) (hroot : tree.node? [] = some .directory)
    (hreset : perform (resetOutput d.output) tree = (.ok (), bare))
    (hensure : perform (ensureInput d.input) bare = (.ok (), ready))
    (hfind : ready.find? (Path.join d.input Config.fileName) = none)
    (hwrite : ready.writeFile (Path.join d.input Config.fileName) Config.default.print.toUTF8 =
      (true, after)) :
    Bootstrapped d tree (.ok (.bootstrapped (Path.join d.input Config.fileName))) after := by
  have hpath : Path.Plain (Path.join d.input Config.fileName) := hd.input.join (by decide) (by decide)
  have hnames := Path.names_join d.input Config.fileName (by decide)
  rcases writeFile_join ready _ _ _ _ hd.input (by decide) (by decide) hwrite with
    ⟨hwritable, -, -, rfl⟩
  -- Nothing is found at the place, which means that nothing is there: a path that can be
  -- written leads to it.
  have hvacant : ready.get? (Path.names d.input ++ [Config.fileName]) = none := by
    rw [Option.eq_none_iff_forall_ne_some]
    intro inside hinside
    have hsome := (find?_eq_some_iff ready _ inside hpath).mpr
      ⟨hwritable.fits, hnames ▸ hinside, fun hslash => absurd hslash hwritable.open_end⟩
    rw [hfind] at hsome
    cases hsome
  have hwritten := get?_put_self ready (file Config.default.print.toUTF8)
    (Path.names d.input ++ [Config.fileName])
  refine ⟨rfl, ?_, (get?_eq_file_iff _ _ _).mp hwritten, Config.default.print, ?_,
    Config.check_default _⟩
  · have hgrown := (prepared_of_ensureInput hd hroot hreset hensure).2
    have hnone : ready.node? (Path.names d.input ++ [Config.fileName]) = none := by
      rw [node?, hvacant]
      rfl
    rw [hreset]
    exact (hgrown.kept _).node?_of_eq_none hnone
  · refine Option.bind_eq_some_iff.mpr ⟨_, ?_, fromUTF8?_toUTF8 _⟩
    exact (content?_eq_some_iff _ _ _ hpath).mpr
      ⟨hwritable.fits, hnames ▸ hwritten, hwritable.open_end⟩

/-- Whichever way a run goes, places outside its output directory are kept, or one of them is
    that of a new configuration. -/
theorem Course.kept {d : Directories} {tree final : FileTree} {result : Except RunError Outcome}
    (h : Course d tree result final) (hd : d.Separate) (hroot : tree.node? [] = some .directory)
    (place : List String) (hplace : ¬ Path.names d.output <+: place) :
    Kept tree final place (place <+: Path.names d.output ∨ place <+: Path.names d.input) ∨
      place = Path.names d.input ++ [Config.fileName] ∧ Bootstrapped d tree result final := by
  -- After the directories are prepared, a run writes one file at most: the configuration in
  -- the input directory, or the manifest in the output directory.
  cases h with
  | noOutput hreset =>
      rcases resetOutput_cases tree d.output hd.output hd.named hroot with
        ⟨reset, after, hrun, hkept, -⟩
      rw [hreset, Prod.mk.injEq] at hrun
      rcases hrun with ⟨rfl, rfl⟩
      exact Or.inl ((hkept place hplace).mono Or.inl)
  | noInput hreset hensure =>
      exact Or.inl ((prepared_of_ensureInput hd hroot hreset hensure).1.kept place hplace)
  | bootstrapped hreset hensure hfind hwrite =>
      have hprepared := (prepared_of_ensureInput hd hroot hreset hensure).1
      by_cases hconfig : place = Path.names d.input ++ [Config.fileName]
      · exact Or.inr ⟨hconfig, bootstrapped_of_write hd hroot hreset hensure hfind hwrite⟩
      · rw [Kept, (hprepared.of_bootstrap hd hwrite).2 place hconfig]
        exact Or.inl (hprepared.kept place hplace)
  | failed hreset hensure =>
      exact Or.inl ((prepared_of_ensureInput hd hroot hreset hensure).1.kept place hplace)
  | generated hreset hensure hconfig hsources hcompile hwrite =>
      have hprepared := (prepared_of_ensureInput hd hroot hreset hensure).1
      rw [Kept, (hprepared.of_manifest hd hwrite).2 place hplace]
      exact Or.inl (hprepared.kept place hplace)

/-- Outside the output directory a run leaves all files and directories as they were. New are
    directories around the output directory, the input directory with those around it, and
    the configuration if there was none. No file of the input directory is changed, even if
    the output directory should take its place. -/
theorem run_spares (d : Directories) (members : List (String × FileTree)) (hd : d.Separate) :
    (∀ place, ¬ Path.names d.output <+: place →
      Kept (directory members) (perform (run d) (directory members)).2 place
          (place <+: Path.names d.output ∨ place <+: Path.names d.input) ∨
        place = Path.names d.input ++ [Config.fileName] ∧
          Bootstrapped d (directory members) (perform (run d) (directory members)).1
            (perform (run d) (directory members)).2) ∧
      ∀ name content,
        (directory members).node? (Path.names d.input ++ [name]) = some (.file content) →
        (perform (run d) (directory members)).2.node? (Path.names d.input ++ [name]) =
          some (.file content) := by
  have hroot : (directory members).node? [] = some .directory := rfl
  have houtside := fun place hplace =>
    (course_run d (directory members)).kept hd hroot place hplace
  refine ⟨houtside, fun name content hfile => ?_⟩
  rcases resetOutput_cases (directory members) d.output hd.output hd.named hroot with
    ⟨reset, bare, hreset, hkept, hcases⟩
  by_cases hplace : Path.names d.output <+: Path.names d.input ++ [name]
  · -- The file is where the output directory should be, and the run fails on it.
    rcases List.prefix_concat_iff.mp hplace with heq | hinput
    · rw [← heq] at hfile ⊢
      rcases hcases with ⟨-, -, hpassable, -⟩ | ⟨rfl, -, hstays⟩
      · exact absurd hfile (hpassable _ List.prefix_rfl content)
      · have hrun : perform (run d) (directory members) = (.error (.directory d.output), bare) := by
          unfold run
          exact perform_bind_of_error hreset _
        rw [hrun]
        exact hstays content hfile
    · exact absurd hinput hd.apart
  · rcases houtside _ hplace with hkeeps | ⟨hconfig, hbootstrapped⟩
    · exact hkeeps.node?_of_eq_some hfile
    · -- A configuration is not written over one that is there.
      have hvacant := hbootstrapped.vacant
      rw [hreset, ← hconfig, (hkept _ hplace).node?_of_eq_some hfile] at hvacant
      cases hvacant

/-- A run without a configuration, whose output directory is in its input directory. -/
theorem run_spares_nested : ∃ members,
    (perform (run ⟨"i18n", "i18n/out"⟩) (directory members)).2.node? ["notes"] =
      some (.file "a".toUTF8) ∧
    (perform (run ⟨"i18n", "i18n/out"⟩) (directory members)).2.node? ["i18n", "en.json"] =
      some (.file "b".toUTF8) ∧
    (directory members).node? ["i18n", "out", "old.json"] = some (.file "c".toUTF8) := by
  obtain ⟨members, hmembers⟩ : ∃ members : List (String × FileTree), members =
    [("i18n", directory [("en.json", file "b".toUTF8),
      ("out", directory [("old.json", file "c".toUTF8)])]), ("notes", file "a".toUTF8)] := ⟨_, rfl⟩
  have hd : Directories.Separate ⟨"i18n", "i18n/out"⟩ :=
    ⟨by decide +kernel, by decide +kernel, by decide +kernel, by decide +kernel⟩
  have hinput : Path.names "i18n" = ["i18n"] := by decide +kernel
  have hbefore : (directory members).node? ["notes"] = some (.file "a".toUTF8) ∧
      (directory members).node? ["i18n", "en.json"] = some (.file "b".toUTF8) ∧
      (directory members).node? ["i18n", "out", "old.json"] = some (.file "c".toUTF8) := by
    rw [hmembers]
    decide +kernel
  rcases hbefore with ⟨hnotes, hdocument, hold⟩
  rcases run_spares ⟨"i18n", "i18n/out"⟩ members hd with ⟨houtside, hfiles⟩
  rw [hinput] at houtside hfiles
  refine ⟨members, ?_, hfiles "en.json" _ hdocument, hold⟩
  -- Of the two cases of the theorem, the place of the configuration is not this one.
  rcases houtside ["notes"] (by decide +kernel) with hkept | ⟨hplace, -⟩
  · exact hkept.node?_of_eq_some hnotes
  · exact absurd hplace (by decide +kernel)

end Phrasebook
