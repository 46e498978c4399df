import ScreenReader.Constraint
import ScreenReader.Decimal.Notation
import ScreenReader.Decimal.Shortest
import ScreenReader.Declaration
import ScreenReader.Declaration.Json
import ScreenReader.Dictionary
import ScreenReader.FileTree
import ScreenReader.Focus.Display
import ScreenReader.Focus.History
import ScreenReader.Focus.Host
import ScreenReader.Focus.Scene
import ScreenReader.Json.Collection
import ScreenReader.Json.Compact
import ScreenReader.Json.Document
import ScreenReader.Json.Fault
import ScreenReader.Json.Ignored
import ScreenReader.Json.Mismatch
import ScreenReader.Json.Numeral
import ScreenReader.Json.Quoted
import ScreenReader.Json.Scanner
import ScreenReader.Log
import ScreenReader.Path
import ScreenReader.Rule
import ScreenReader.RuleBook
import ScreenReader.RuleBook.Load
import ScreenReader.RuleBook.Query
import ScreenReader.RuleBook.Shared
import ScreenReader.RuleBook.Write
import ScreenReader.RuleSet
import ScreenReader.Session
import ScreenReader.Session.Run
import ScreenReader.Settings
import ScreenReader.Sorted
import ScreenReader.Text.Blank
import ScreenReader.Text.CodePoint
import ScreenReader.Text.Number
import ScreenReader.Text.Printable
import ScreenReader.Text.Quoted
import ScreenReader.Text.Utf8
import ScreenReader.TextSet
import ScreenReader.Vocabulary
import ScreenReader.Vocabulary.Slots
import ScreenReader.Proofs.Focus.Calls
import ScreenReader.Proofs.Focus.Repeats
import ScreenReader.Proofs.Dictionary
import ScreenReader.Proofs.RuleBook.Definitions
import ScreenReader.Proofs.RuleBook.LastDefinition
import ScreenReader.Proofs.Constraint
import ScreenReader.Proofs.RuleSet.Insertion
import ScreenReader.Proofs.Mappings
import ScreenReader.Proofs.RuleSet.Wordings
import ScreenReader.Proofs.RuleSet.OfMappings
import ScreenReader.Proofs.RuleBook.RoundTrip
import ScreenReader.Proofs.Focus.Arrivals
import ScreenReader.Proofs.Focus.Recovery
import ScreenReader.Proofs.Focus.ArrivalFlag
import ScreenReader.Proofs.RuleBook.Scan
import ScreenReader.Proofs.Focus.LiveRecovery
import ScreenReader.Proofs.Focus.NewestArrivals
import ScreenReader.Proofs.Session.Focus
import ScreenReader.Proofs.RuleBook.Vocabulary
import ScreenReader.Proofs.FileTree
import ScreenReader.Proofs.RuleBook.Directory
import ScreenReader.Proofs.Json.Compact
import ScreenReader.Proofs.Declaration.Json
import ScreenReader.Proofs.RuleBook.Shared
import ScreenReader.Proofs.RuleBook.TextImport
import ScreenReader.Proofs.Session.Imports
import ScreenReader.Proofs.Focus.Faults
import ScreenReader.Proofs.RuleBook.Listing
import ScreenReader.Proofs.RuleBook.Names
import ScreenReader.Proofs.RuleBook.Repetition
import ScreenReader.Proofs.Focus.RepeatedRecovery
import ScreenReader.Proofs.Text.Number
import ScreenReader.Proofs.Text.CodePoint
import ScreenReader.Proofs.Vocabulary.Slots
import ScreenReader.Proofs.Text.Blank
import ScreenReader.Proofs.Session.HistoryLimit
import ScreenReader.Proofs.Json.Grammar
import ScreenReader.Proofs.Json.Spelled
import ScreenReader.Proofs.Json.Skipped
import ScreenReader.Proofs.Declaration.Members
