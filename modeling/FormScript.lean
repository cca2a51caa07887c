import FormScript.Completion
import FormScript.Main
import FormScript.Proofs.Grammar
import FormScript.Proofs.Parts
import FormScript.Proofs.Evaluation
import FormScript.Proofs.Application
import FormScript.Proofs.Failure
import FormScript.Proofs.Reading
import FormScript.Proofs.FirstFault
import FormScript.Proofs.Layout
import FormScript.Proofs.Tokenization
import FormScript.Proofs.Readable
import FormScript.Proofs.Values
import FormScript.Proofs.Replay
import FormScript.Proofs.Joining
import FormScript.Proofs.FloatBits
import FormScript.Proofs.Rounding
import FormScript.Proofs.NumberText
import FormScript.Proofs.RoundTrip
import FormScript.Proofs.Acceptance
import FormScript.Proofs.Dependence
import FormScript.Proofs.Frame
import FormScript.Proofs.WellKinded
import FormScript.Proofs.OperandCounts
import FormScript.Proofs.ByteOrder
import FormScript.Proofs.OpenLists
import FormScript.Proofs.PromptReports
import FormScript.Proofs.History
import FormScript.Proofs.Recovery
import FormScript.Proofs.TypedLists
import FormScript.Proofs.LineByLine
import FormScript.Proofs.Completion
import FormScript.Proofs.FormOrder
import FormScript.Proofs.Transparency
import FormScript.Proofs.Commuting
import FormScript.Proofs.ReportLines
import FormScript.Proofs.ReportSpans
import FormScript.Proofs.Numerals
