import CallPlan.LogFilter
import CallPlan.MethodQuery
import CallPlan.Samples.Auxiliaries
import CallPlan.Samples.Conflicts
import CallPlan.Samples.Pools
import CallPlan.Proofs.Assignability
import CallPlan.Proofs.ElementTypes
import CallPlan.Proofs.Above
import CallPlan.Proofs.Layers
import CallPlan.Proofs.Flattening
import CallPlan.Proofs.Narrowing
import CallPlan.Proofs.TypeOrder
import CallPlan.Proofs.DescriptorText
import CallPlan.Proofs.Reachable
import CallPlan.Proofs.BridgeIndex
import CallPlan.Proofs.BridgeChain
import CallPlan.Proofs.NormalForm
import CallPlan.Proofs.Policies
import CallPlan.Proofs.Inheritance
import CallPlan.Proofs.InterfaceOrder
import CallPlan.Proofs.Selection
import CallPlan.Proofs.Linkage
import CallPlan.Proofs.OwnMethods
import CallPlan.Proofs.Competition
import CallPlan.Proofs.Extension
import CallPlan.Proofs.Registration
import CallPlan.Proofs.PlannerEquality
import CallPlan.Proofs.StepBound
import CallPlan.Proofs.AuxiliaryNames
import CallPlan.Proofs.Nesting
import CallPlan.Proofs.DeepChains
import CallPlan.Dynamic
import CallPlan.Proofs.DefaultCalls
import CallPlan.Proofs.CallEmission
import CallPlan.Proofs.HashContracts
import CallPlan.Proofs.StackTotals
import CallPlan.Proofs.DescriptorFaults
import CallPlan.Proofs.Drafts
import CallPlan.Proofs.DocumentKeys
import CallPlan.Proofs.SettingsOverlay
import CallPlan.Proofs.Signatures
import CallPlan.Proofs.Segments
import CallPlan.Proofs.DistinctParts
import CallPlan.Proofs.FilterMerging
import CallPlan.Proofs.GatheringLoops
