import Pascaline.Tree.Outline
import Pascaline.Tree.Spans
import Pascaline.Types.Compat
import Pascaline.Compilation
import Pascaline.Build.Progress
import Pascaline.Tool.Execute
import Pascaline.Main
import Pascaline.Proofs.Machine.Budgets
import Pascaline.Proofs.Lowering.Balance
import Pascaline.Proofs.Storage.Behaviour
import Pascaline.Proofs.Storage.Truncation
import Pascaline.Proofs.Classes.Overrides
import Pascaline.Proofs.Classes.Conversion
import Pascaline.Proofs.Classes.Hierarchy
import Pascaline.Proofs.Classes.Order
import Pascaline.Proofs.Machine.Validated
import Pascaline.Proofs.Heap.Reachability
import Pascaline.Proofs.Machine.HeapBudget
import Pascaline.Proofs.Machine.Calls
import Pascaline.Proofs.Graph.Layers
import Pascaline.Proofs.Graph.Slots
import Pascaline.Proofs.Graph.Digests
import Pascaline.Proofs.Graph.Order
import Pascaline.Proofs.Graph.Reordering
import Pascaline.Proofs.Build.Steps
import Pascaline.Proofs.Build.Digests
import Pascaline.Proofs.Interface.Descriptions
import Pascaline.Proofs.Interface.Restoring
import Pascaline.Proofs.Interface.Imports
import Pascaline.Proofs.Interface.Compat
import Pascaline.Proofs.Interface.Failures
import Pascaline.Proofs.Interface.Interning
import Pascaline.Proofs.Interface.Selectors
import Pascaline.Proofs.Binding.Frames
import Pascaline.Proofs.Parsing.Files
import Pascaline.Proofs.Build.Results
import Pascaline.Proofs.Build.Caches
import Pascaline.Proofs.Binding.Calls
import Pascaline.Proofs.Binding.Expressions
import Pascaline.Proofs.Binding.Layouts
import Pascaline.Proofs.Binding.Statements
import Pascaline.Proofs.Lowering.Folding
import Pascaline.Proofs.Lowering.Counting
import Pascaline.Proofs.Binding.Bodies
import Pascaline.Proofs.Binding.Files
import Pascaline.Proofs.Binding.Modules
import Pascaline.Proofs.Workspace.Reachable
import Pascaline.Proofs.Workspace.Sources
import Pascaline.Proofs.Workspace.Storage
import Pascaline.Proofs.Workspace.Linking
import Pascaline.Proofs.Workspace.Restoration
import Pascaline.Proofs.Binding.Overloads
import Pascaline.Proofs.Machine.WordCounts
import Pascaline.Proofs.Machine.NilCalls
import Pascaline.Proofs.Lowering.WellFormed
import Pascaline.Proofs.Lexing.Literals
import Pascaline.Proofs.Text.Substrings
import Pascaline.Proofs.Parsing.RoundTrip
import Pascaline.Proofs.Pool.Contents
import Pascaline.Proofs.Interface.Reentry
import Pascaline.Proofs.Scopes.Integrity
import Pascaline.Proofs.Lexing.Lookahead
import Pascaline.Proofs.Source.Places
import Pascaline.Proofs.Value.Integers
import Pascaline.Proofs.Typing.Soundness
