import SchemaGraph.Main
import SchemaGraph.Proofs.Name.Scopes
import SchemaGraph.Proofs.Registry.Operations
import SchemaGraph.Proofs.Binding.LexicalScope
import SchemaGraph.Proofs.Registry.Winners
import SchemaGraph.Proofs.Graph.Counting
import SchemaGraph.Proofs.Graph.References
import SchemaGraph.Proofs.Graph.Expansion
import SchemaGraph.Proofs.Import.Closure
import SchemaGraph.Proofs.Graph.MissingTypes
import SchemaGraph.Proofs.Graph.Methods
import SchemaGraph.Proofs.Graph.Closed
import SchemaGraph.Proofs.Files.Lookup
import SchemaGraph.Proofs.Graph.Order
import SchemaGraph.Proofs.Registry.Holding
import SchemaGraph.Proofs.Graph.Bodies
import SchemaGraph.Proofs.Graph.Placeholders
import SchemaGraph.Proofs.Graph.WellFormed
import SchemaGraph.Proofs.Schema.RoundTrip
import SchemaGraph.Proofs.Graph.Unchanged
import SchemaGraph.Proofs.Dot.Nodes
import SchemaGraph.Proofs.Graph.WholeDocument
import SchemaGraph.Proofs.Files.Opening
import SchemaGraph.Proofs.Files.Batches
import SchemaGraph.Proofs.Binding.Permanence
import SchemaGraph.Proofs.Import.Weak
import SchemaGraph.Proofs.Import.Termination
import SchemaGraph.Proofs.Import.Completion
import SchemaGraph.Proofs.Graph.ImportTree
import SchemaGraph.Proofs.Graph.Fragments
import SchemaGraph.Proofs.Schema.Matching
import SchemaGraph.Proofs.Schema.Numbers
import SchemaGraph.Proofs.Schema.Concatenation
import SchemaGraph.Proofs.Dot.Escaping
import SchemaGraph.Proofs.Files.Candidates
import SchemaGraph.Proofs.Schema.OptionTexts
import SchemaGraph.Proofs.Schema.ErrorLines
import SchemaGraph.Proofs.Name.Components
import SchemaGraph.Proofs.Graph.Statistics
