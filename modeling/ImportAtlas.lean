import ImportAtlas.Pipeline.Replay
import ImportAtlas.Service.Wire
import ImportAtlas.Settings.Assignments
import ImportAtlas.Proofs.Candidates
import ImportAtlas.Proofs.ImportMap
import ImportAtlas.Proofs.Meaning
import ImportAtlas.Proofs.Recursion
import ImportAtlas.Proofs.Reach
import ImportAtlas.Proofs.Turns
import ImportAtlas.Proofs.Faults
import ImportAtlas.Proofs.Canonical
import ImportAtlas.Proofs.Extensions
import ImportAtlas.Proofs.CanonicalReach
import ImportAtlas.Proofs.Seeds
import ImportAtlas.Proofs.Expansion
import ImportAtlas.Proofs.Reuse
import ImportAtlas.Proofs.Growth
import ImportAtlas.Proofs.NodePaths
import ImportAtlas.Proofs.Attempts
import ImportAtlas.Proofs.Statuses
import ImportAtlas.Proofs.Ascii
import ImportAtlas.Proofs.ReadBack
import ImportAtlas.Proofs.Listings
import ImportAtlas.Proofs.Start
import ImportAtlas.Proofs.Joining
import ImportAtlas.Proofs.ListedNodes
import ImportAtlas.Proofs.Answers
import ImportAtlas.Proofs.Rebuild
import ImportAtlas.Proofs.Spellings
import ImportAtlas.Proofs.Declarations
import ImportAtlas.Proofs.CrateRoots
import ImportAtlas.Proofs.Preorder
import ImportAtlas.Proofs.Segments
import ImportAtlas.Proofs.TwoListings
