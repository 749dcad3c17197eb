import Pyramid.Main
import Pyramid.Session.Run
import Pyramid.Proofs.Text.Pieces
import Pyramid.Proofs.Text.Padding
import Pyramid.Proofs.Grammar.Yield
import Pyramid.Proofs.Grammar.Rewriting
import Pyramid.Proofs.Chart.Coherence
import Pyramid.Proofs.Chart.Run
import Pyramid.Proofs.Chart.Shape
import Pyramid.Proofs.Chart.Membership
import Pyramid.Proofs.Chart.Table
import Pyramid.Proofs.Grammar.Bundled
import Pyramid.Proofs.Language.Palindromes
import Pyramid.Proofs.Chart.Accounts
import Pyramid.Proofs.Language.Brackets
import Pyramid.Proofs.Chart.Build
import Pyramid.Proofs.Chart.Interleaving
import Pyramid.Proofs.Chart.Ambiguity
import Pyramid.Proofs.Grammar.RoundTrip
import Pyramid.Proofs.Chart.Guard
import Pyramid.Proofs.Chart.Workshop
import Pyramid.Proofs.CommandLine.Transcript
import Pyramid.Proofs.CommandLine.Printing
import Pyramid.Proofs.CommandLine.Independence
import Pyramid.Proofs.CommandLine.StartUp
import Pyramid.Proofs.Grammar.Format
import Pyramid.Proofs.Grammar.Lookup
import Pyramid.Proofs.Chart.Silence
import Pyramid.Proofs.Chart.Monotone
import Pyramid.Proofs.Chart.Errand
import Pyramid.Proofs.Language.Generated
import Pyramid.Proofs.Chart.Listing
import Pyramid.Proofs.Toml.Keys
import Pyramid.Proofs.Settings.Layers
import Pyramid.Proofs.Text.Encoding
import Pyramid.Proofs.Grammar.LineEnds
import Pyramid.Proofs.Text.Wrapping
import Pyramid.Proofs.Grammar.Canonical
import Pyramid.Proofs.Disk.Files
import Pyramid.Proofs.Disk.Paths
import Pyramid.Proofs.Journal.Entries
import Pyramid.Proofs.Chart.Arrangement
