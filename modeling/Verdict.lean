import Verdict.Archive.Blake3
import Verdict.Archive.Blob
import Verdict.Archive.Bytes
import Verdict.Archive.Payload
import Verdict.Combination
import Verdict.Comparator
import Verdict.Condition
import Verdict.Context
import Verdict.Engine
import Verdict.Evaluation
import Verdict.Event
import Verdict.Json.Attributes
import Verdict.Json.Document
import Verdict.Json.Entry
import Verdict.Json.Entry.Reader
import Verdict.Json.Entry.Writer
import Verdict.Json.Error
import Verdict.Json.Token
import Verdict.Number.Binary64
import Verdict.Number.Decimal
import Verdict.Number.Shortest
import Verdict.Proofs.Archive.Blob
import Verdict.Proofs.Archive.Bytes
import Verdict.Proofs.Archive.Canonical
import Verdict.Proofs.Archive.Damage
import Verdict.Proofs.Archive.Header
import Verdict.Proofs.Archive.Payload
import Verdict.Proofs.Archive.Shortest
import Verdict.Proofs.Check
import Verdict.Proofs.Checked
import Verdict.Proofs.Combination
import Verdict.Proofs.Comparison
import Verdict.Proofs.Condition
import Verdict.Proofs.Condition.Grammar
import Verdict.Proofs.Condition.Normal
import Verdict.Proofs.Condition.Trichotomy
import Verdict.Proofs.Context
import Verdict.Proofs.Context.Filling
import Verdict.Proofs.Counting
import Verdict.Proofs.Display
import Verdict.Proofs.Engine
import Verdict.Proofs.Evaluation
import Verdict.Proofs.Grouping
import Verdict.Proofs.Json.Check
import Verdict.Proofs.Json.Document
import Verdict.Proofs.Json.Entry
import Verdict.Proofs.Json.Node
import Verdict.Proofs.Json.Text
import Verdict.Proofs.Json.Token
import Verdict.Proofs.Json.Variation
import Verdict.Proofs.Limit
import Verdict.Proofs.Monotone
import Verdict.Proofs.Number.Numeral
import Verdict.Proofs.Number.Order
import Verdict.Proofs.Number.Rounding
import Verdict.Proofs.Number.Shortest
import Verdict.Proofs.Quotation
import Verdict.Proofs.Reading
import Verdict.Proofs.Rule.Assembly
import Verdict.Proofs.Rule.Delimiter
import Verdict.Proofs.Rule.Fault
import Verdict.Proofs.Rule.Formula
import Verdict.Proofs.Rule.Grammar
import Verdict.Proofs.Rule.Group
import Verdict.Proofs.Rule.Piece
import Verdict.Proofs.Rule.Reader
import Verdict.Proofs.Rule.Scan
import Verdict.Proofs.Rule.Turn
import Verdict.Proofs.Text
import Verdict.Proofs.Text.Order
import Verdict.Rule.Assembly
import Verdict.Rule.Formula
import Verdict.Rule.Token
import Verdict.Text.Blank
import Verdict.Text.Printable
import Verdict.Text.Quoted
import Verdict.Value
