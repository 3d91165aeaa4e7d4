import BraceMode.Main
import BraceMode.Session
import BraceMode.Tool.FileTree
import BraceMode.Proofs.LineEnds
import BraceMode.Proofs.Rewritten
import BraceMode.Proofs.Idempotence
import BraceMode.Proofs.ByteOffsets
import BraceMode.Proofs.Coverage
import BraceMode.Proofs.SameTokens
import BraceMode.Proofs.Brackets
import BraceMode.Proofs.BlockLine
import BraceMode.Proofs.BlockStyle
import BraceMode.Proofs.Resumption
import BraceMode.Proofs.SuggestedColumns
import BraceMode.Proofs.Outcomes
import BraceMode.Proofs.ReindentCheck
import BraceMode.Proofs.OpenBrackets
import BraceMode.Proofs.Walk
import BraceMode.Proofs.KeptColumns
import BraceMode.Proofs.FrameOrigins
import BraceMode.Proofs.ClosingLines
import BraceMode.Proofs.VerbatimLines
import BraceMode.Proofs.CommandsAgree
import BraceMode.Proofs.OpenLiterals
import BraceMode.Proofs.Alignments
import BraceMode.Proofs.ShiftedLines
import BraceMode.Proofs.EventLog
import BraceMode.Proofs.BlankLines
import BraceMode.Proofs.WordClasses
import BraceMode.Proofs.CommentForms
import BraceMode.Proofs.LiteralEnds
import BraceMode.Proofs.NumberGrammar
import BraceMode.Proofs.TokensAlone
import BraceMode.Proofs.TabStops
import BraceMode.Proofs.ColumnRange
import BraceMode.Proofs.CursorOffsets
import BraceMode.Proofs.ShortWrites
