import Asm65816.Encoding
import Asm65816.Main
import Asm65816.Proofs.Numerals
import Asm65816.Proofs.Reading
import Asm65816.Proofs.Tokens
import Asm65816.Proofs.Forms
import Asm65816.Proofs.Layout
import Asm65816.Proofs.Completeness
import Asm65816.Proofs.Shapes
import Asm65816.Proofs.Soundness
import Asm65816.Proofs.NormalForm
import Asm65816.Proofs.OperandRoundTrip
import Asm65816.Proofs.RoundTrip
import Asm65816.Proofs.ProgramLines
import Asm65816.Proofs.Alignment
import Asm65816.Proofs.DepthLimit
import Asm65816.Proofs.Separator
import Asm65816.Proofs.FatalFailures
import Asm65816.Proofs.Comment
import Asm65816.Proofs.WellFormed
import Asm65816.Proofs.UnambiguousExpressions
import Asm65816.Proofs.UnambiguousStatements
import Asm65816.Proofs.ProperFailures
import Asm65816.Proofs.FailureShape
import Asm65816.Proofs.FailureReach
import Asm65816.Proofs.FurthestFailure
import Asm65816.Proofs.Composition
import Asm65816.Proofs.DiagnosticLines
import Asm65816.Proofs.Listing
import Asm65816.Proofs.CommandOutcome
import Asm65816.Proofs.OperandDecision
import Asm65816.Proofs.Maximality
import Asm65816.Proofs.LineSpans
import Asm65816.Proofs.NestingLimit
import Asm65816.Proofs.StatementKinds
import Asm65816.Proofs.LoopTurns
import Asm65816.Proofs.Progress
import Asm65816.Proofs.Literals
import Asm65816.Proofs.WrittenIntegers
import Asm65816.Proofs.LimitLayers
