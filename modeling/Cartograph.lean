import Cartograph.Main
import Cartograph.Proofs.Additions
import Cartograph.Proofs.Captures
import Cartograph.Proofs.Collisions
import Cartograph.Proofs.Command.Effects
import Cartograph.Proofs.Conservation
import Cartograph.Proofs.Endpoints
import Cartograph.Proofs.FileTree.Writing
import Cartograph.Proofs.Fragment.Calls
import Cartograph.Proofs.Fragment.Contents
import Cartograph.Proofs.FrontEnds
import Cartograph.Proofs.Graph.Accounts
import Cartograph.Proofs.Graph.Algebra
import Cartograph.Proofs.Graph.Settled
import Cartograph.Proofs.Imports.Candidates
import Cartograph.Proofs.Imports.Directories
import Cartograph.Proofs.Imports.Fronts
import Cartograph.Proofs.Imports.Joining
import Cartograph.Proofs.Imports.Passes
import Cartograph.Proofs.Imports.ShortNames
import Cartograph.Proofs.Imports.Siblings
import Cartograph.Proofs.Inheritance
import Cartograph.Proofs.Isolation
import Cartograph.Proofs.Methods
import Cartograph.Proofs.Noninterference
import Cartograph.Proofs.Python.Declarations
import Cartograph.Proofs.Python.Faults
import Cartograph.Proofs.Python.Marks
import Cartograph.Proofs.Python.Places
import Cartograph.Proofs.Reachability
import Cartograph.Proofs.ReadLimits
import Cartograph.Proofs.Roles
import Cartograph.Proofs.RoundTrip
import Cartograph.Proofs.Script.Names
import Cartograph.Proofs.Script.Routes
import Cartograph.Proofs.Settings.Overrides
import Cartograph.Proofs.Soundness
import Cartograph.Proofs.Spellings
import Cartograph.Proofs.Workers
import Cartograph.Service.Basic
