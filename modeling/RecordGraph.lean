import RecordGraph.Arena.Cycle
import RecordGraph.Arena.Preorder
import RecordGraph.Proofs.CommandLine
import RecordGraph.Main
import RecordGraph.Proofs.Document.Canonical
import RecordGraph.Proofs.Document.Planting
import RecordGraph.Proofs.Document.Recovery
import RecordGraph.Proofs.Document.Separation
import RecordGraph.Proofs.Document.Turns
import RecordGraph.Proofs.Evaluation.Reports
import RecordGraph.Proofs.Forks
import RecordGraph.Proofs.Path.Boundaries
import RecordGraph.Proofs.Registrations
import RecordGraph.Proofs.Registry.Bindings
import RecordGraph.Proofs.Session
import RecordGraph.Proofs.SymbolTable.Adding
import RecordGraph.Proofs.SymbolTable.Combs
import RecordGraph.Proofs.SymbolTable.Indexing
import RecordGraph.Proofs.SymbolTable.Limits
import RecordGraph.Proofs.SymbolTable.Lookups
import RecordGraph.Proofs.SymbolTable.SeparateAttributes
import RecordGraph.Proofs.SymbolTable.Templates
import RecordGraph.Proofs.Walk.Counters
import RecordGraph.Proofs.Walk.Tableless
import RecordGraph.Proofs.Walk.Typing
import RecordGraph.Proofs.Walk.Visits
import RecordGraph.Proofs.Arena.Cycles
import RecordGraph.Proofs.Arena.Exactness
import RecordGraph.Proofs.Arena.Cells
import RecordGraph.Proofs.Arena.Sharing
import RecordGraph.Proofs.NameTable.History
import RecordGraph.Proofs.Arena.AttrHistory
import RecordGraph.Proofs.Value.Arithmetic
import RecordGraph.Proofs.Value.Literals
import RecordGraph.Proofs.Value.Order
import RecordGraph.Proofs.Value.Saturation
