import Phrasebook.Config.Loading
import Phrasebook.Locale.Loading
import Phrasebook.Proofs.Paths
import Phrasebook.Proofs.Validation

/-!
# The Files That a Run Reads

A run reads the configuration and a document for each language, from files of the input
directory. The name of a language has no slash, and no name of a file is `.` or `..`, so
every one of them stands right in that directory, however its path is written. Languages
that differ have different files.

The name of the configuration is not kept free, though. A language that is called as it is
has the configuration for its document, and nothing is told of that when the configuration
is checked. With any other languages all files are different ones.

## Main definitions

* `Config.inputNames`: The names of the files that a run reads.
* `Config.inputPaths`: Their paths.

## Theorems

* `isName_locale`: The file of a locale stands directly in the input directory.
* `Config.nodup_inputNames_iff`: When the files have different names.
* `Config.inputPaths_distinct_iff`: The files are different ones unless one of the
  languages has the name of the configuration.
-/

namespace Phrasebook

/-- The file of a locale stands directly in the input directory. -/
theorem isName_locale (locale : String) (h : Config.isLanguage locale = true) :
    Path.IsName (locale ++ ".json") ∧ locale ++ ".json" ≠ "." ∧ locale ++ ".json" ≠ ".." := by
  rw [Config.isLanguage, Bool.and_eq_true, List.all_eq_true] at h
  have hslash : '/' ∉ locale.toList := by
    intro hmem
    have hchar := h.2 '/' hmem
    revert hchar
    decide
  -- The name has an end of five characters, so it is longer than any of the two.
  refine ⟨Path.isName_append locale ".json" hslash (by decide), ?_, ?_⟩
  · intro heq
    have hlength := congrArg String.length heq
    rw [String.length_append] at hlength
    have hjson : ".json".length = 5 := rfl
    have hdot : ".".length = 1 := rfl
    omega
  · intro heq
    have hlength := congrArg String.length heq
    rw [String.length_append] at hlength
    have hjson : ".json".length = 5 := rfl
    have hdots : "..".length = 2 := rfl
    omega

namespace Config

/-- The names of the files that a run reads: the configuration, and the document of every
    language. -/
def inputNames (c : Config) : List String := fileName :: c.languages.map (· ++ ".json")

/-- The paths of the files that a run reads. -/
def inputPaths (c : Config) (input : String) : List String :=
  Path.join input fileName :: c.languages.map (Locale.filePath input)

theorem inputPaths_eq (c : Config) (input : String) :
    c.inputPaths input = c.inputNames.map (Path.join input) := by
  rw [inputPaths, inputNames, List.map_cons, List.map_map]
  rfl

theorem append_json_inj (left right : String) :
    left ++ ".json" = right ++ ".json" ↔ left = right :=
  String.append_left_inj ".json"

/-- The file of a language is that of the configuration if the language is called so. -/
theorem append_json_eq_fileName_iff (language : String) :
    language ++ ".json" = fileName ↔ language = "config" := by
  have hname : fileName = "config" ++ ".json" := by decide
  rw [hname, append_json_inj]

section Valid

variable (c : Config) (h : c.Valid)

include h

/-- The files of a run stand directly in a directory. -/
theorem isName_of_mem_inputNames (name : String) (hname : name ∈ c.inputNames) :
    Path.IsName name ∧ name ≠ "." ∧ name ≠ ".." := by
  rcases List.mem_cons.mp hname with rfl | hlanguage
  · decide
  · rcases List.mem_map.mp hlanguage with ⟨language, hmem, rfl⟩
    exact isName_locale language (h.isLanguage c language hmem)

/-- The files of a run have different names unless a language is called as the configuration
    is. -/
theorem nodup_inputNames_iff : c.inputNames.Nodup ↔ "config" ∉ c.languages := by
  have hlanguages : (c.languages.map (· ++ ".json")).Nodup :=
    (h.nodup_constants c).of_map.map (fun left right => (append_json_inj left right).mp)
  rw [inputNames, List.nodup_cons, and_iff_left hlanguages, List.mem_map]
  constructor
  · intro hnot hmem
    exact hnot ⟨"config", hmem, (append_json_eq_fileName_iff _).mpr rfl⟩
  · rintro hnot ⟨language, hmem, hsame⟩
    exact hnot ((append_json_eq_fileName_iff language).mp hsame ▸ hmem)

/-- Names below a directory that differ lead to different places. -/
theorem names_join_injOn (input left right : String) (hleft : left ∈ c.inputNames)
    (hright : right ∈ c.inputNames)
    (hsame : Path.names (Path.join input left) = Path.names (Path.join input right)) :
    left = right := by
  rw [Path.names_join input left (isName_of_mem_inputNames c h left hleft).1,
    Path.names_join input right (isName_of_mem_inputNames c h right hright).1] at hsame
  exact (List.cons.inj (List.append_cancel_left hsame)).1

/-- The files that a run with a valid configuration reads stand right in the input directory,
    and those of different languages are different. A document is read from the configuration
    exactly for a language that is called as it is, and without such a language all places
    and paths are different. -/
theorem inputPaths_distinct_iff (input : String) :
    (∀ path ∈ c.inputPaths input, ∃ name, Path.IsName name ∧ name ≠ "." ∧ name ≠ ".." ∧
      path = Path.join input name ∧ Path.names path = Path.names input ++ [name] ∧
      Path.isAbsolute path = Path.isAbsolute input) ∧
    (∀ language ∈ c.languages, ∀ other ∈ c.languages,
      Path.names (Locale.filePath input language) = Path.names (Locale.filePath input other) →
        language = other) ∧
    (∀ language ∈ c.languages,
      Path.names (Locale.filePath input language) = Path.names (Path.join input fileName) ↔
        language = "config") ∧
    (((c.inputPaths input).map Path.names).Nodup ↔ "config" ∉ c.languages) ∧
    ((c.inputPaths input).Nodup ↔ "config" ∉ c.languages) := by
  have hin : ∀ language ∈ c.languages, language ++ ".json" ∈ c.inputNames :=
    fun language hmem => List.mem_cons_of_mem _ (List.mem_map_of_mem hmem)
  -- Different names below one directory are different places, and different paths.
  have hplaces : ((c.inputPaths input).map Path.names).Nodup ↔ c.inputNames.Nodup := by
    rw [inputPaths_eq, List.map_map]
    exact ⟨List.Nodup.of_map _, List.Nodup.map_on (fun left hleft right hright hsame =>
      names_join_injOn c h input left right hleft hright hsame)⟩
  have hpaths : (c.inputPaths input).Nodup ↔ c.inputNames.Nodup := by
    constructor
    · intro hnodup
      rw [inputPaths_eq] at hnodup
      exact hnodup.of_map
    · intro hnodup
      exact (hplaces.mpr hnodup).of_map
  refine ⟨?_, ?_, ?_, hplaces.trans (nodup_inputNames_iff c h),
    hpaths.trans (nodup_inputNames_iff c h)⟩
  · intro path hpath
    rw [inputPaths_eq] at hpath
    rcases List.mem_map.mp hpath with ⟨name, hname, rfl⟩
    rcases isName_of_mem_inputNames c h name hname with ⟨hisName, hdot, hdots⟩
    exact ⟨name, hisName, hdot, hdots, rfl, Path.names_join input name hisName,
      Path.isAbsolute_join input name hisName⟩
  · intro language hlanguage other hother hsame
    exact (append_json_inj _ _).mp
      (names_join_injOn c h input _ _ (hin language hlanguage) (hin other hother) hsame)
  · intro language hlanguage
    rw [← append_json_eq_fileName_iff]
    constructor
    · exact names_join_injOn c h input _ _ (hin language hlanguage) List.mem_cons_self
    · intro hsame
      rw [Locale.filePath, hsame]

end Valid

/-- The files of a project with two languages. -/
theorem inputPaths_distinct_default : default.Valid ∧ (default.inputPaths "i18n/").Nodup := by
  have hvalid : default.Valid := by decide +kernel
  exact ⟨hvalid, (inputPaths_distinct_iff default hvalid "i18n/").2.2.2.2.mpr (by decide)⟩

/-- A valid configuration whose document is the configuration. -/
example : (Config.mk ["config"] "config" true none .empty).Valid ∧
    Locale.filePath "i18n" "config" = Path.join "i18n" fileName := by decide +kernel

end Config

end Phrasebook
