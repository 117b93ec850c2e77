import TestLinker.OrderedMap.Basic
import TestLinker.OrderedMap.Lemmas
import TestLinker.LinkError.Location
import TestLinker.LinkError.Basic
import TestLinker.Pass
import TestLinker.Text.Quoted
import TestLinker.Text.Replace
import TestLinker.Catalog
import TestLinker.Reference
import TestLinker.Page.Basic
import TestLinker.Page.Parent
import TestLinker.Page.Expansion
import TestLinker.DataSet
import TestLinker.Component
import TestLinker.Statement.Basic
import TestLinker.Statement.Linking
import TestLinker.Step.Basic
import TestLinker.Step.Import
import TestLinker.Step.Linking
import TestLinker.Workspace
import TestLinker.Test.Basic
import TestLinker.Test.Linking
import TestLinker.Session
import TestLinker.Proofs.Outcome
import TestLinker.Proofs.Lineage
import TestLinker.Proofs.Linkage
import TestLinker.Proofs.Conservation
import TestLinker.Proofs.Answers
import TestLinker.Proofs.Components
import TestLinker.Proofs.Settled
import TestLinker.Proofs.Origin
import TestLinker.Proofs.FirstFailure
import TestLinker.Proofs.Scans
import TestLinker.Proofs.PlainText
import TestLinker.Proofs.PlainIdentifiers
import TestLinker.Proofs.Expansion
import TestLinker.Proofs.ImportChain
import TestLinker.Proofs.ExpandedPage
import TestLinker.Proofs.DeclarationOrder
import TestLinker.Proofs.Relinking
import TestLinker.Proofs.Enlargement
import TestLinker.Proofs.StepIndependence
import TestLinker.Proofs.ParentGraph
import TestLinker.Proofs.ScanCount
import TestLinker.Proofs.Blame
import TestLinker.Proofs.WrittenParents
import TestLinker.Proofs.Pipeline
import TestLinker.Proofs.StepMapping
import TestLinker.Proofs.StoredExpansion
import TestLinker.Proofs.ImportCalls
import TestLinker.Proofs.ImportOrder
import TestLinker.Proofs.SpellingOut
import TestLinker.Proofs.ReferenceGrammar
import TestLinker.Proofs.TokenPositions
import TestLinker.Proofs.PageAddress
import TestLinker.Proofs.SessionRuns
