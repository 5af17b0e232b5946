import ResourceTypes.Catalog.File
import ResourceTypes.CommandLine.Run
import ResourceTypes.Files.Tree
import ResourceTypes.Main
import ResourceTypes.Registry.Call
import ResourceTypes.Session.Request
import ResourceTypes.Proofs.Members
import ResourceTypes.Proofs.Members.Order
import ResourceTypes.Proofs.Json
import ResourceTypes.Proofs.Json.Same
import ResourceTypes.Proofs.Registry.Acyclicity
import ResourceTypes.Proofs.Registry.Walk
import ResourceTypes.Proofs.Registry.Growth
import ResourceTypes.Proofs.Registry.Registration
import ResourceTypes.Proofs.Schema.Tree
import ResourceTypes.Proofs.Schema.Grammatical
import ResourceTypes.Proofs.Schema.Reading
import ResourceTypes.Proofs.Schema.Unbound
import ResourceTypes.Proofs.Schema.Verdict
import ResourceTypes.Proofs.Schema.Meaning
import ResourceTypes.Proofs.Schema.Described
import ResourceTypes.Proofs.Schema.Map
import ResourceTypes.Proofs.Schema.Language
import ResourceTypes.Proofs.Schema.Alike
import ResourceTypes.Proofs.Schema.Reordered
import ResourceTypes.Proofs.Descriptor.Alike
import ResourceTypes.Proofs.Compile
import ResourceTypes.Proofs.Acceptance
import ResourceTypes.Proofs.Catalog
import ResourceTypes.Proofs.TypeGraph
import ResourceTypes.Proofs.MemberOrder
import ResourceTypes.Proofs.Session
import ResourceTypes.Proofs.Descriptor.Same
import ResourceTypes.Proofs.Schema.Denotation
import ResourceTypes.Proofs.Normalisation
import ResourceTypes.Proofs.Canonical
import ResourceTypes.Proofs.Catalog.Growth
import ResourceTypes.Proofs.Schema.Offence
import ResourceTypes.Proofs.Schema.Findings
import ResourceTypes.Proofs.FailurePlaces
import ResourceTypes.Proofs.Schema.Address
import ResourceTypes.Proofs.CycleDetection
import ResourceTypes.Proofs.Schema.Breaches
import ResourceTypes.Proofs.GrammarReport
import ResourceTypes.Proofs.Schema.Relocation
import ResourceTypes.Proofs.Schema.Context
import ResourceTypes.Proofs.ReportLocality
import ResourceTypes.Proofs.Text.Octets
import ResourceTypes.Proofs.Decoding
import ResourceTypes.Proofs.Manifest
import ResourceTypes.Proofs.Manifest.Spelled
import ResourceTypes.Proofs.CommandLine
import ResourceTypes.Proofs.CommandLine.Inputs
import ResourceTypes.Proofs.Registry.Trail
import ResourceTypes.Proofs.ReportedCycles
import ResourceTypes.Proofs.Schema.Rebinding
import ResourceTypes.Proofs.DocumentIdentity
import ResourceTypes.Proofs.RecordedEdges
import ResourceTypes.Proofs.Registry.CycleTest
import ResourceTypes.Proofs.Text.Quoted
import ResourceTypes.Proofs.Path
import ResourceTypes.Proofs.DisplayedPaths
import ResourceTypes.Proofs.Json.Order
import ResourceTypes.Proofs.Schema.FirstOffence
import ResourceTypes.Proofs.Schema.Overlooked
import ResourceTypes.Proofs.Refusal
import ResourceTypes.Proofs.Schema.Same
import ResourceTypes.Proofs.Schema.Recovery
import ResourceTypes.Proofs.NothingDropped
import ResourceTypes.Proofs.Descriptor.Json
import ResourceTypes.Proofs.Text.Lines
import ResourceTypes.Proofs.ReportLines
import ResourceTypes.Proofs.DocumentIds
