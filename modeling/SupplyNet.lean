import SupplyNet.Network.Query
import SupplyNet.Node.Draft
import SupplyNet.Proofs.Linear.Computed
import SupplyNet.Proofs.Linear.Edits
import SupplyNet.Proofs.Network.AddedStorage
import SupplyNet.Proofs.Network.BalanceRows
import SupplyNet.Proofs.Network.Blending
import SupplyNet.Proofs.Network.CapacityFactors
import SupplyNet.Proofs.Network.Connectivity
import SupplyNet.Proofs.Network.Conservation
import SupplyNet.Proofs.Network.Costs
import SupplyNet.Proofs.Network.Duplicates
import SupplyNet.Proofs.Network.History
import SupplyNet.Proofs.Network.Levels
import SupplyNet.Proofs.Network.Netting
import SupplyNet.Proofs.Network.Permutation
import SupplyNet.Proofs.Network.Proportions
import SupplyNet.Proofs.Network.Reexpressed
import SupplyNet.Proofs.Network.Refinement
import SupplyNet.Proofs.Network.Remaining
import SupplyNet.Proofs.Network.Resting
import SupplyNet.Proofs.Network.Smoothing
import SupplyNet.Proofs.Network.Storages
import SupplyNet.Proofs.Network.Structure
import SupplyNet.Proofs.Network.Tables
import SupplyNet.Proofs.Network.TiedInputs
import SupplyNet.Proofs.Network.Titles
import SupplyNet.Proofs.Network.TotalCost
import SupplyNet.Proofs.Network.Views
import SupplyNet.Proofs.Node.Finite
import SupplyNet.Proofs.Time.Reproduced
