import Phrasebook.Files.Tree
import Phrasebook.Main
import Phrasebook.Text.Utf8
import Phrasebook.Proofs.Dict
import Phrasebook.Proofs.Key
import Phrasebook.Proofs.Placement
import Phrasebook.Proofs.Catalogue
import Phrasebook.Proofs.Arguments
import Phrasebook.Proofs.Substitution
import Phrasebook.Proofs.KeySpan
import Phrasebook.Proofs.Merge
import Phrasebook.Proofs.Validation
import Phrasebook.Proofs.Routing
import Phrasebook.Proofs.TypeNames
import Phrasebook.Proofs.Cutting
import Phrasebook.Proofs.Reading
import Phrasebook.Proofs.Flatten
import Phrasebook.Proofs.Configuration
import Phrasebook.Proofs.Paths
import Phrasebook.Proofs.Runs
import Phrasebook.Proofs.Reproducible
import Phrasebook.Proofs.Layout
import Phrasebook.Proofs.PrintedManifest
import Phrasebook.Proofs.Clashes
import Phrasebook.Proofs.TextDefects
import Phrasebook.Proofs.Template
import Phrasebook.Proofs.Problems
import Phrasebook.Proofs.Report
import Phrasebook.Proofs.Identifiers
import Phrasebook.Proofs.Nesting
import Phrasebook.Proofs.InputFiles
import Phrasebook.Proofs.Dotless
import Phrasebook.Proofs.Canonical
import Phrasebook.Proofs.Splicing
import Phrasebook.Proofs.KeyLines
import Phrasebook.Proofs.Splitting
import Phrasebook.Proofs.Blame
