import Gamebook.CommandLine
import Gamebook.Main
import Gamebook.Session.Operation
import Gamebook.Proofs.Story.Moves
import Gamebook.Proofs.Story.Grammar
import Gamebook.Proofs.Story.Grammar.Exact
import Gamebook.Proofs.Loading.Files
import Gamebook.Proofs.Loading.Chain
import Gamebook.Proofs.Lot
import Gamebook.Proofs.Session.Run
import Gamebook.Proofs.Story.Lawful
import Gamebook.Proofs.Audit
import Gamebook.Proofs.Audit.Play
import Gamebook.Proofs.Bookmark.Writing
import Gamebook.Proofs.Bookmark.RoundTrip
import Gamebook.Proofs.Bookmark.Resume
import Gamebook.Proofs.Story.Canonical
import Gamebook.Proofs.Session.Moves
import Gamebook.Proofs.Session.Idle
import Gamebook.Proofs.Session.Walk
import Gamebook.Proofs.Session.Ways
import Gamebook.Proofs.Audit.Reach
import Gamebook.Proofs.Audit.DeadEnds
import Gamebook.Proofs.Audit.Warnings
import Gamebook.Proofs.Audit.Paths
import Gamebook.Proofs.Audit.Defects
import Gamebook.Proofs.Audit.Faults
import Gamebook.Proofs.Console.Operations
import Gamebook.Proofs.Settings.RoundTrip
import Gamebook.Proofs.Run.Saves
import Gamebook.Proofs.Lot.Law
import Gamebook.Proofs.Story.Diagnostics
import Gamebook.Proofs.Story.Concatenation
import Gamebook.Proofs.Story.Truncation
import Gamebook.Proofs.Story.Silence
import Gamebook.Proofs.Story.Drafts
import Gamebook.Proofs.Lot.Weights
import Gamebook.Proofs.Session.Choices
import Gamebook.Proofs.Loading.LineEndings
import Gamebook.Proofs.Text.Wrap
