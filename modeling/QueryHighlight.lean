import QueryHighlight.Cache
import QueryHighlight.Cursor
import QueryHighlight.Main
import QueryHighlight.Proofs.Scan.LiteralBody
import QueryHighlight.Proofs.Scan.MatchSize
import QueryHighlight.Proofs.Pattern.Basic
import QueryHighlight.Proofs.Pattern.Run
import QueryHighlight.Proofs.Scan.RuleTable
import QueryHighlight.Proofs.Scan.NumeralPatterns
import QueryHighlight.Proofs.Scan.StartState
import QueryHighlight.Proofs.Cache.History
import QueryHighlight.Proofs.Scan.Emission
import QueryHighlight.Proofs.Text.Boundary
import QueryHighlight.Proofs.Tokenizer.Coverage
import QueryHighlight.Proofs.Scan.Parity
import QueryHighlight.Proofs.Scan.PairedText
import QueryHighlight.Proofs.Scan.Opening
import QueryHighlight.Proofs.Scan.Closing
import QueryHighlight.Proofs.Scan.ParityLaw
import QueryHighlight.Proofs.Cache.AffectedRange
import QueryHighlight.Proofs.Cache.Spill
import QueryHighlight.Proofs.Scan.LiteralReading
import QueryHighlight.Proofs.Scan.Restart
import QueryHighlight.Proofs.Scan.Naming
import QueryHighlight.Proofs.Scan.TagRun
import QueryHighlight.Proofs.Scan.CommentSwitch
import QueryHighlight.Proofs.Tokenizer.ReachableWords
import QueryHighlight.Proofs.Document.Coverage
import QueryHighlight.Proofs.Scan.Lookalikes
import QueryHighlight.Proofs.Scan.Respacing
import QueryHighlight.Proofs.Scan.Spacing
import QueryHighlight.Proofs.Document.Lines
import QueryHighlight.Proofs.Report.Calls
import QueryHighlight.Proofs.Report.Styles
import QueryHighlight.Proofs.Report.Tiling
import QueryHighlight.Proofs.Report.Terminal
import QueryHighlight.Proofs.Json.Reader
import QueryHighlight.Proofs.Json.RoundTrip
import QueryHighlight.Proofs.Report.Json
import QueryHighlight.Proofs.Text.Unquoting
import QueryHighlight.Proofs.Report.Listing
import QueryHighlight.Proofs.Config.Validity
import QueryHighlight.Proofs.CommandLine.Outcome
import QueryHighlight.Proofs.Text.Concatenation
import QueryHighlight.Proofs.Document.Concatenation
import QueryHighlight.Proofs.Cache.TextRoundTrip
import QueryHighlight.Proofs.Highlight.Merging
import QueryHighlight.Proofs.Json.Spelling
import QueryHighlight.Proofs.Config.Symbols
import QueryHighlight.Proofs.Config.Reading
import QueryHighlight.Proofs.Config.Spelling
import QueryHighlight.Proofs.Config.Unfinished
import QueryHighlight.Proofs.Document.LineCut
import QueryHighlight.Proofs.CommandLine.Arguments
import QueryHighlight.Proofs.Vocabulary.Overlaps
import QueryHighlight.Proofs.Config.Refusals
import QueryHighlight.Proofs.Cursor.Restart
