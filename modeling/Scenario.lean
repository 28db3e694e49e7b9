import Scenario.Check
import Scenario.Condition
import Scenario.Main
import Scenario.Proofs.Abort
import Scenario.Proofs.Addresses
import Scenario.Proofs.Blocks
import Scenario.Proofs.Chaining
import Scenario.Proofs.Checks
import Scenario.Proofs.CommandLine.Cases
import Scenario.Proofs.Comment
import Scenario.Proofs.Company
import Scenario.Proofs.Comparison.Coherence
import Scenario.Proofs.Comparison.Integers
import Scenario.Proofs.Conditional
import Scenario.Proofs.Counting
import Scenario.Proofs.Counts
import Scenario.Proofs.Durations
import Scenario.Proofs.Folding
import Scenario.Proofs.Gate
import Scenario.Proofs.Json.Arrangement
import Scenario.Proofs.Json.Navigation
import Scenario.Proofs.Leaves
import Scenario.Proofs.Numbering
import Scenario.Proofs.Options
import Scenario.Proofs.Persistence
import Scenario.Proofs.Proceeding
import Scenario.Proofs.Quotation
import Scenario.Proofs.Readback
import Scenario.Proofs.Record.Entries
import Scenario.Proofs.Record.Forests
import Scenario.Proofs.Record.Readers
import Scenario.Proofs.Record.Slots
import Scenario.Proofs.Record.Survival
import Scenario.Proofs.Reordering
import Scenario.Proofs.Resolution.Idempotence
import Scenario.Proofs.Scopes
import Scenario.Proofs.Session
import Scenario.Proofs.Sources
import Scenario.Proofs.Spelling
import Scenario.Proofs.Splicing
import Scenario.Proofs.Termination
import Scenario.Proofs.Xml.Grammar
import Scenario.Structure
import Scenario.Proofs.RunningOrder
