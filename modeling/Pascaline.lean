import Pascaline.Main
import Pascaline.Proofs.Completion
import Pascaline.Proofs.WellFormed
import Pascaline.Proofs.Typing
import Pascaline.Proofs.Values
import Pascaline.Proofs.Construction
import Pascaline.Proofs.Runs
import Pascaline.Proofs.MissingReturn
import Pascaline.Proofs.Encoding
import Pascaline.Proofs.Truncation
import Pascaline.Proofs.Anonymity
import Pascaline.Proofs.Renaming
import Pascaline.Proofs.Hygiene
import Pascaline.Proofs.Sessions
import Pascaline.Proofs.Scoping
import Pascaline.Proofs.Agreement
import Pascaline.Proofs.Guards
import Pascaline.Proofs.Conformance
import Pascaline.Proofs.Safety
import Pascaline.Proofs.Containment
import Pascaline.Proofs.Isolation
import Pascaline.Proofs.Ledger
import Pascaline.Proofs.Recording
import Pascaline.Proofs.Storage
import Pascaline.Proofs.Widths
import Pascaline.Proofs.Registers
import Pascaline.Proofs.Elements
import Pascaline.Proofs.Reporting
import Pascaline.Proofs.History
import Pascaline.Proofs.Arrays
import Pascaline.Proofs.Positions
import Pascaline.Proofs.Worklist
import Pascaline.Proofs.Bitmaps
import Pascaline.Proofs.Occurrences
import Pascaline.Proofs.Printing
import Pascaline.Proofs.Reading
import Pascaline.Proofs.RoundTrip
import Pascaline.Proofs.Equality
import Pascaline.Proofs.Folding
import Pascaline.Proofs.Documents
import Pascaline.Proofs.Names
import Pascaline.Proofs.Escapes
