import LineCensus.Json.Reader
import LineCensus.Json.Writer
import LineCensus.Main
import LineCensus.Selection.Codec
import LineCensus.Proofs.Encoding
import LineCensus.Proofs.TokenScan
import LineCensus.Proofs.Tokenised
import LineCensus.Proofs.CharacterTokens
import LineCensus.Proofs.Delimiter
import LineCensus.Proofs.Verdict
import LineCensus.Proofs.Run
import LineCensus.Proofs.OpenBlock
import LineCensus.Proofs.BlockSpan
import LineCensus.Proofs.Trimming
import LineCensus.Proofs.BuiltinBlocks
import LineCensus.Proofs.PhysicalLines
import LineCensus.Proofs.SymmetricSpan
import LineCensus.Proofs.InnerLine
import LineCensus.Proofs.Decoding
import LineCensus.Proofs.Indentation
import LineCensus.Proofs.Concatenation
import LineCensus.Proofs.Shielding
import LineCensus.Proofs.ReadAlike
import LineCensus.Proofs.Spacing
import LineCensus.Proofs.BlankLines
import LineCensus.Proofs.Reindentation
import LineCensus.Proofs.LineText
import LineCensus.Proofs.LineEnds
import LineCensus.Proofs.PathParts
import LineCensus.Proofs.EntryOrder
import LineCensus.Proofs.Following
import LineCensus.Proofs.IgnoreFree
import LineCensus.Proofs.Walking
import LineCensus.Proofs.WalkLaws
import LineCensus.Proofs.Acceptance
import LineCensus.Proofs.RegistrySearch
import LineCensus.Proofs.PlanFilters
import LineCensus.Proofs.DirectorySelection
import LineCensus.Proofs.DistinctFiles
import LineCensus.Proofs.EncodedText
import LineCensus.Proofs.MeasuredFile
import LineCensus.Proofs.Interruption
import LineCensus.Proofs.TreeChange
import LineCensus.Proofs.Sharing
import LineCensus.Proofs.Canonical
import LineCensus.Proofs.Overriding
import LineCensus.Proofs.Saturation
import LineCensus.Proofs.LanguageRows
import LineCensus.Proofs.Partition
import LineCensus.Proofs.Ranking
import LineCensus.Proofs.ReportOrder
import LineCensus.Proofs.Collecting
import LineCensus.Proofs.Completion
import LineCensus.Proofs.Lookup
import LineCensus.Proofs.LoadedTables
import LineCensus.Proofs.Precedence
import LineCensus.Proofs.Composition
import LineCensus.Proofs.Tracing
import LineCensus.Proofs.OpeningLine
import LineCensus.Proofs.InertPairs
import LineCensus.Proofs.Complexity
import LineCensus.Proofs.FileTable
import LineCensus.Proofs.LanguageFilter
import LineCensus.Proofs.DelimiterTokens
import LineCensus.Proofs.LineTotals
import LineCensus.Proofs.JsonText
import LineCensus.Proofs.WrittenDefinition
