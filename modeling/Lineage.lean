import Lineage.Main
import Lineage.Proofs.CycleSearch
import Lineage.Proofs.LinkRun
import Lineage.Proofs.LinkedGraph
import Lineage.Proofs.Built
import Lineage.Proofs.Faults
import Lineage.Proofs.Chains
import Lineage.Proofs.OwedMethods
import Lineage.Proofs.Alike
import Lineage.Proofs.InputOrder
import Lineage.Proofs.MemberLookup
import Lineage.Proofs.NodeNames
import Lineage.Proofs.ClassTree
import Lineage.Proofs.Subtyping
import Lineage.Proofs.LinkInvariant
import Lineage.Proofs.SubtypeOrder
import Lineage.Proofs.Fallible
import Lineage.Proofs.LenientRun
import Lineage.Proofs.SameInheritance
import Lineage.Proofs.NestingFrame
import Lineage.Proofs.AddedMethod
import Lineage.Proofs.ScopeLimit
import Lineage.Proofs.CopiedNames
import Lineage.Proofs.Verdicts
import Lineage.Proofs.JsonTokens
import Lineage.Proofs.JsonRoundTrip
import Lineage.Proofs.Documents
import Lineage.Proofs.Drafts
import Lineage.Proofs.EnclosingTypes
import Lineage.Proofs.BreadthFirst
import Lineage.Proofs.InterfaceOrder
import Lineage.Proofs.DirectSubtypes
import Lineage.Proofs.WrittenDeclarations
import Lineage.Proofs.ExternalEvents
import Lineage.Proofs.TomlText
import Lineage.Proofs.TomlDocument
import Lineage.Proofs.TreeParts
import Lineage.Proofs.TomlTables
import Lineage.Proofs.PartialSettings
import Lineage.Proofs.WrittenFiles
import Lineage.Proofs.SavedSettings
