import Revng.ADT.SmallVector
import Revng.ADT.GenericGraph.MutableEdgeNode
import Revng.ADT.GenericGraph.GenericGraph
import Revng.ADT.GenericGraph.BidirectionalNode
import Revng.ADT.GenericGraph.GraphTraits
import Revng.ADT.GenericGraph.Proofs.Mirror
import Revng.ADT.GenericGraph.Proofs.Disconnect
import Revng.ADT.GenericGraph.Proofs.NodeStore
import Revng.ADT.GenericGraph.Proofs.Reachable
import Revng.ADT.GenericGraph.Proofs.Refinement
import Revng.ADT.GenericGraph.Proofs.Traversal
import Revng.Support.Assert
import Revng.Support.StdString
import Revng.Support.Debug
import Revng.Support.Proofs.Flush
import Revng.Support.Proofs.Indent
