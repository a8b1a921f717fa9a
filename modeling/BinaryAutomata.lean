import BinaryAutomata.Automaton.Reachable
import BinaryAutomata.Automaton.Walk
import BinaryAutomata.Error.Message
import BinaryAutomata.Session
import BinaryAutomata.Proofs.Editing
import BinaryAutomata.Proofs.Bookkeeping
import BinaryAutomata.Proofs.Views
import BinaryAutomata.Proofs.Run
import BinaryAutomata.Proofs.Past
import BinaryAutomata.Proofs.Handles
import BinaryAutomata.Proofs.Path
import BinaryAutomata.Proofs.Evaluation
import BinaryAutomata.Proofs.Search
import BinaryAutomata.Proofs.Emptiness
import BinaryAutomata.Proofs.Slots
import BinaryAutomata.Proofs.Roles
import BinaryAutomata.Proofs.Naming
import BinaryAutomata.Proofs.Abstraction
import BinaryAutomata.Proofs.Completeness
import BinaryAutomata.Proofs.Refusal
import BinaryAutomata.Proofs.Atomicity
import BinaryAutomata.Proofs.Absence
import BinaryAutomata.Proofs.Relabelling
import BinaryAutomata.Proofs.InStep
import BinaryAutomata.Proofs.Course
import BinaryAutomata.Proofs.Interference
import BinaryAutomata.Proofs.Visits
import BinaryAutomata.Proofs.Composition
import BinaryAutomata.Proofs.Removal
import BinaryAutomata.Proofs.WalkLog
import BinaryAutomata.Proofs.EditLog
import BinaryAutomata.Proofs.Summary
import BinaryAutomata.Proofs.Ledger
import BinaryAutomata.Proofs.Redirection
import BinaryAutomata.Proofs.Listing
import BinaryAutomata.Proofs.Addition
import BinaryAutomata.Proofs.Renaming
import BinaryAutomata.Proofs.Assembly
import BinaryAutomata.Proofs.Enumeration
import BinaryAutomata.Proofs.Messages
import BinaryAutomata.Proofs.ReachableSets
import BinaryAutomata.Proofs.Reading
import BinaryAutomata.Proofs.Splitting
import BinaryAutomata.Proofs.Printing
import BinaryAutomata.Proofs.WorkList
