import SolidClash.Job
import SolidClash.Polygon.Triangulation
import SolidClash.Quantities
import SolidClash.Proofs.Scalar.Binary64
import SolidClash.Proofs.Box
import SolidClash.Proofs.Octree.Region
import SolidClash.Proofs.Octree.Placement
import SolidClash.Proofs.Octree.Levels
import SolidClash.Proofs.Octree.Visited
import SolidClash.Proofs.Octree.Growth
import SolidClash.Proofs.Octree.Query
import SolidClash.Proofs.Mesh.Extent
import SolidClash.Proofs.Mesh.Shortcuts
import SolidClash.Proofs.Scalar.Real
import SolidClash.Proofs.Triangle.Symmetry
import SolidClash.Proofs.Mesh.Symmetry
import SolidClash.Proofs.Detection.Compare
import SolidClash.Proofs.Detection.Graph
import SolidClash.Proofs.Detection.Pairs
import SolidClash.Proofs.Detection.Input
import SolidClash.Proofs.Detection.Complete
import SolidClash.Proofs.Detection.Trace
import SolidClash.Proofs.Detection.Cancellation
import SolidClash.Proofs.Detection.Once
import SolidClash.Proofs.Detection.Counters
import SolidClash.Proofs.Detection.Findings
import SolidClash.Proofs.Detection.Volumes
import SolidClash.Proofs.Weld
import SolidClash.Proofs.Mesh.Watertight
import SolidClash.Proofs.Octree.Alike
import SolidClash.Proofs.Detection.Retyped
import SolidClash.Proofs.Detection.Skipped
import SolidClash.Proofs.Detection.Consistent
import SolidClash.Proofs.Octree.Arranged
import SolidClash.Proofs.Mesh.Pairing
import SolidClash.Proofs.Weld.Number
import SolidClash.Proofs.Mesh.Relisted
import SolidClash.Proofs.Triangle.Axial
import SolidClash.Proofs.Mesh.Contact
import SolidClash.Proofs.Rules.Meaning
import SolidClash.Proofs.Report
import SolidClash.Proofs.Mesh.Measure
import SolidClash.Proofs.Detection.Sizes
import SolidClash.Proofs.Triangle.Parting
import SolidClash.Proofs.Triangle.Touching
import SolidClash.Proofs.Triangle.Grazing
import SolidClash.Proofs.Mesh.Pruning
import SolidClash.Proofs.Weld.Scan
import SolidClash.Proofs.Detection.Advance
import SolidClash.Proofs.Detection.Pace
import SolidClash.Proofs.Job.Percent
import SolidClash.Proofs.Job.Answer
import SolidClash.Proofs.Mesh.Packed
import SolidClash.Proofs.Json.Decode
import SolidClash.Proofs.Json.Formats
import SolidClash.Proofs.Triangle.Points
import SolidClash.Proofs.Triangle.Piercing
import SolidClash.Proofs.Triangle.Separation
import SolidClash.Proofs.Triangle.Interior
import SolidClash.Proofs.Rules.Wildcard
import SolidClash.Proofs.Mesh.Unshared
import SolidClash.Proofs.Mesh.Bounds
import SolidClash.Proofs.Mesh.Decoded
import SolidClash.Proofs.Detection.Indexing
import SolidClash.Proofs.Triangle.Itself
import SolidClash.Proofs.Triangle.Translation
import SolidClash.Proofs.Mesh.Translation
import SolidClash.Proofs.Mesh.Volume
import SolidClash.Proofs.Octree.Canonical
import SolidClash.Proofs.Triangle.Spans
import SolidClash.Proofs.Octree.Order
import SolidClash.Proofs.Quantities
import SolidClash.Proofs.Polygon.Fan
