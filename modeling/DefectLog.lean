import DefectLog.Main
import DefectLog.Proofs.Success
import DefectLog.Proofs.Running
import DefectLog.Proofs.Number.Nearest
import DefectLog.Proofs.Number.Decimal
import DefectLog.Proofs.Text.Hexadecimal
import DefectLog.Proofs.Sheet.Headings
import DefectLog.Proofs.Sheet.Sorting
import DefectLog.Proofs.Document.Tables
import DefectLog.Proofs.Document.Patches
import DefectLog.Proofs.Document.Erasure
import DefectLog.Proofs.Document.Paragraphs
import DefectLog.Proofs.Word.Color
import DefectLog.Proofs.Word.Length
import DefectLog.Proofs.Word.Row
import DefectLog.Proofs.Word.Merging
import DefectLog.Proofs.Word.Surviving
import DefectLog.Proofs.Word.Placing
import DefectLog.Proofs.Word.Standing
import DefectLog.Proofs.Word.Writing
import DefectLog.Proofs.Word.Content
import DefectLog.Proofs.Word.Finishes
import DefectLog.Proofs.Word.Filling
import DefectLog.Proofs.Word.Rearranging
import DefectLog.Proofs.Word.Nesting
import DefectLog.Proofs.Word.Written
import DefectLog.Proofs.Word.Elements
import DefectLog.Proofs.Word.Properties
import DefectLog.Proofs.Word.Shown
import DefectLog.Proofs.Word.Widths
import DefectLog.Proofs.Word.Ending
import DefectLog.Proofs.Word.Rendered
import DefectLog.Proofs.Word.Landing
import DefectLog.Proofs.Word.Settled
import DefectLog.Proofs.Word.Spilling
import DefectLog.Proofs.Word.Confined
import DefectLog.Proofs.Word.Reading
import DefectLog.Proofs.Word.Tracing
import DefectLog.Proofs.Word.Spelling
import DefectLog.Proofs.Word.RoundTrip
import DefectLog.Proofs.Word.Visiting
import DefectLog.Proofs.Word.Unresolved
import DefectLog.Proofs.Word.Preorder
import DefectLog.Proofs.Word.Warnings
import DefectLog.Proofs.Word.Legal
import DefectLog.Proofs.Word.Clean
import DefectLog.Proofs.Word.Admitted
import DefectLog.Proofs.Word.Legible
import DefectLog.Proofs.Word.Registered
import DefectLog.Proofs.Word.HeadingStyles
import DefectLog.Proofs.Word.Normalized
import DefectLog.Proofs.Word.Places
import DefectLog.Proofs.Word.Headings
import DefectLog.Proofs.Word.HeadingLooks
import DefectLog.Proofs.Disk.Making
import DefectLog.Proofs.Disk.Saving
import DefectLog.Proofs.Disk.Tree
import DefectLog.Proofs.Preview.Reading
import DefectLog.Proofs.Preview.Mirror
import DefectLog.Proofs.Preview.Seen
import DefectLog.Proofs.Report.Sequence
import DefectLog.Proofs.Report.Defects
import DefectLog.Proofs.Report.Recovery
import DefectLog.Proofs.Report.Independence
import DefectLog.Proofs.Report.Widths
import DefectLog.Proofs.Preview.Numbering
import DefectLog.Proofs.Preview.Matrices
import DefectLog.Proofs.Publishing
import DefectLog.Proofs.Preview.Moderate
import DefectLog.Proofs.Report.Previewed
import DefectLog.Proofs.Word.Writable
import DefectLog.Proofs.Report.Rendered
import DefectLog.Proofs.Exit
import DefectLog.Proofs.Word.Colors
import DefectLog.Proofs.Word.Measures
