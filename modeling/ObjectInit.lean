import ObjectInit.ExitCheck
import ObjectInit.FieldRead
import ObjectInit.Flow.Describe
import ObjectInit.Flow.Effect
import ObjectInit.Flow.Entry
import ObjectInit.Hierarchy.Bounds
import ObjectInit.LogFormat
import ObjectInit.Nullness
import ObjectInit.Options.Reader
import ObjectInit.Qualifier.Annotation
import ObjectInit.Report.Exemption
import ObjectInit.Report.Reporting
import ObjectInit.Proofs.FieldRead
import ObjectInit.Proofs.Flow.Body
import ObjectInit.Proofs.Flow.Loop
import ObjectInit.Proofs.Qualifier.Lattice
import ObjectInit.Proofs.Flow.Built
import ObjectInit.Proofs.Report.Constructor
import ObjectInit.Proofs.Hierarchy.Bounds
import ObjectInit.Proofs.Qualifier.Hierarchy
import ObjectInit.Proofs.Flow.Coherent
import ObjectInit.Proofs.Declaration.Members
import ObjectInit.Proofs.Declaration.Places
import ObjectInit.Proofs.Report.Buffer
import ObjectInit.Proofs.Report.Findings
import ObjectInit.Proofs.ImplicitConstructor
import ObjectInit.Proofs.AssumeInitialized
import ObjectInit.Proofs.Hierarchy.DepthLimit
import ObjectInit.Proofs.Hierarchy.SingleInheritance
import ObjectInit.Proofs.Qualifier.SingleInheritance
import ObjectInit.Proofs.Progress
import ObjectInit.Proofs.Hierarchy.Additions
import ObjectInit.Proofs.Qualifier.Additions
import ObjectInit.Proofs.Declaration.Requests
import ObjectInit.Proofs.Declaration.Consistency
import ObjectInit.Proofs.Declaration.History
import ObjectInit.Data.FirstOccurrence
import ObjectInit.Proofs.NameTable
import ObjectInit.Proofs.Report.Suppression
import ObjectInit.Proofs.Report.Deferral
import ObjectInit.Data.Climb
import ObjectInit.Proofs.Declaration.Nesting
import ObjectInit.Proofs.EnclosingObjects
import ObjectInit.Proofs.ClassIsolation
import ObjectInit.Proofs.Hierarchy.Worklist
import ObjectInit.Proofs.Hierarchy.OracleBounds
import ObjectInit.Proofs.EnclosingSites
import ObjectInit.Proofs.FieldWidening
import ObjectInit.Proofs.Flow.Call
import ObjectInit.Proofs.Flow.Exits
import ObjectInit.Proofs.Flow.Commitment
import ObjectInit.Proofs.NameTable.Bijection
import ObjectInit.Proofs.Text.Pieces
import ObjectInit.Proofs.Report.SuppressionGrammar
import ObjectInit.Proofs.Message.Reading
import ObjectInit.Proofs.Message.Verbatim
import ObjectInit.Proofs.Flow.NewObject
import ObjectInit.Proofs.Qualifier.Annotation
import ObjectInit.Proofs.Options.RoundTrip
import ObjectInit.Proofs.Hierarchy.NameBook
