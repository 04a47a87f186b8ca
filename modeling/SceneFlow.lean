import SceneFlow.CommandLine.Session
import SceneFlow.Graph.Cache
import SceneFlow.Main
import SceneFlow.Proofs.CommandLine.Batch
import SceneFlow.Proofs.Digraph.Acyclic
import SceneFlow.Proofs.Digraph.Counting
import SceneFlow.Proofs.Digraph.Reach
import SceneFlow.Proofs.Digraph.Schedule
import SceneFlow.Proofs.Digraph.Walk
import SceneFlow.Proofs.Color.Spelling
import SceneFlow.Proofs.Compile.Acceptance
import SceneFlow.Proofs.Compile.Births
import SceneFlow.Proofs.Compile.Capacity
import SceneFlow.Proofs.Compile.Cascade
import SceneFlow.Proofs.Compile.Colors
import SceneFlow.Proofs.Compile.Coverage
import SceneFlow.Proofs.Compile.Dangling
import SceneFlow.Proofs.Compile.DeadEnds
import SceneFlow.Proofs.Compile.Delivery
import SceneFlow.Proofs.Compile.Joining
import SceneFlow.Proofs.Compile.KeptMotions
import SceneFlow.Proofs.Compile.Labels
import SceneFlow.Proofs.Compile.Limits
import SceneFlow.Proofs.Compile.Locality
import SceneFlow.Proofs.Compile.Meeting
import SceneFlow.Proofs.Compile.Naming
import SceneFlow.Proofs.Compile.Numbers
import SceneFlow.Proofs.Compile.Ownership
import SceneFlow.Proofs.Compile.Path
import SceneFlow.Proofs.Compile.Rearrangement
import SceneFlow.Proofs.Compile.Removal
import SceneFlow.Proofs.Compile.Reordering
import SceneFlow.Proofs.Compile.Suggestions
import SceneFlow.Proofs.Compile.TimeBounds
import SceneFlow.Proofs.Compile.Turns
import SceneFlow.Proofs.Compile.Unchanged
import SceneFlow.Proofs.Compile.WellFormed
import SceneFlow.Proofs.Graph.Cache
import SceneFlow.Proofs.Graph.Cycles
import SceneFlow.Proofs.Graph.Fingerprint
import SceneFlow.Proofs.Graph.Requiring
import SceneFlow.Proofs.Graph.Upstream
import SceneFlow.Proofs.Graph.Walks
import SceneFlow.Proofs.Motion.Easing
import SceneFlow.Proofs.Motion.Ranks
import SceneFlow.Proofs.Override.Document
import SceneFlow.Proofs.Override.Foliage
import SceneFlow.Proofs.Override.Precedence
import SceneFlow.Proofs.Override.View
import SceneFlow.Proofs.Scene.Document
import SceneFlow.Proofs.Stages
import SceneFlow.Proofs.Value.Names
import SceneFlow.Proofs.Value.Operands
