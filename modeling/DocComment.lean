import DocComment.Main
import DocComment.Proofs.Command.Inputs
import DocComment.Proofs.Command.Outputs
import DocComment.Proofs.Comment.Layout
import DocComment.Proofs.Comment.Written
import DocComment.Proofs.FileSystem.Frame
import DocComment.Proofs.FileSystem.Locate
import DocComment.Proofs.Group
import DocComment.Proofs.Json.Document
import DocComment.Proofs.Report.Markdown
import DocComment.Proofs.Report.Tool
import DocComment.Proofs.Source.Agreement
import DocComment.Proofs.Command.Candidates
import DocComment.Proofs.Command.Failures
import DocComment.Proofs.Command.Isolation
import DocComment.Proofs.FileSystem.Relisted
import DocComment.Proofs.Command.Order
import DocComment.Proofs.Comment.Annotation
import DocComment.Proofs.Comment.Growth
import DocComment.Proofs.Comment.WellFormed
import DocComment.Proofs.Source.Upward
import DocComment.Proofs.Source.Attributes
import DocComment.Proofs.Source.Scopes
import DocComment.Proofs.Source.Remarks
import DocComment.Proofs.Source.Strings
import DocComment.Proofs.Source.Literals
import DocComment.Proofs.Source.Parameters
import DocComment.Proofs.Source.Placement
import DocComment.Proofs.Command.Occurrences
import DocComment.Proofs.Command.Naming
import DocComment.Proofs.Entries
import DocComment.Proofs.Comment.Pending
import DocComment.Proofs.Command.Representatives
import DocComment.Proofs.Source.Nesting
