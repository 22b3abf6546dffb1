import CellGraph.Command.Bundler
import CellGraph.Command.Compiler
import CellGraph.Exchange.Graph
import CellGraph.Package.Plain
import CellGraph.Project
import CellGraph.Proofs.Inlining
import CellGraph.Proofs.Partition
import CellGraph.Proofs.Reachability
import CellGraph.Proofs.Session
import CellGraph.Proofs.History
import CellGraph.Proofs.Requests
import CellGraph.Proofs.Way
import CellGraph.Proofs.Provenance
import CellGraph.Proofs.Attachments
import CellGraph.Proofs.Cells
import CellGraph.Proofs.Dependence
import CellGraph.Proofs.Mending
import CellGraph.Proofs.Termination
import CellGraph.Proofs.Filenames
import CellGraph.Proofs.RawPaths
import CellGraph.Proofs.Findings
import CellGraph.Proofs.Spellings
import CellGraph.Proofs.Independence
import CellGraph.Proofs.Equivalence
import CellGraph.Proofs.Omission
import CellGraph.Proofs.Blocks
import CellGraph.Proofs.Continuation
import CellGraph.Proofs.Addresses
import CellGraph.Proofs.Attaching
import CellGraph.Proofs.Bundling
import CellGraph.Proofs.Payloads
import CellGraph.Proofs.Documents
import CellGraph.Proofs.Parents
import CellGraph.Proofs.Respelling
import CellGraph.Proofs.Exchange
