import Accumulator.Executor.Script
import Accumulator.Files.Tree
import Accumulator.Main
import Accumulator.Proofs.Pieces
import Accumulator.Proofs.Scanning
import Accumulator.Proofs.Meaning
import Accumulator.Proofs.Compilation
import Accumulator.Proofs.Entry
import Accumulator.Proofs.Returning
import Accumulator.Proofs.Division
import Accumulator.Proofs.Lossless
import Accumulator.Proofs.UniqueDecoding
import Accumulator.Proofs.Operators
import Accumulator.Proofs.Unbounded
import Accumulator.Proofs.Lexemes
import Accumulator.Proofs.SourceMap
import Accumulator.Proofs.Lines
import Accumulator.Proofs.Literals
import Accumulator.Proofs.Annotations
import Accumulator.Proofs.ListedCode
import Accumulator.Proofs.Execution
import Accumulator.Proofs.Agreement
import Accumulator.Proofs.LifeCycle
import Accumulator.Proofs.Counting
import Accumulator.Proofs.Evaluating
import Accumulator.Proofs.Reading
import Accumulator.Proofs.Blanks
import Accumulator.Proofs.Batch
import Accumulator.Proofs.ReleaseFailures
import Accumulator.Proofs.Turns
import Accumulator.Proofs.Courses
import Accumulator.Proofs.ReturnedFailures
import Accumulator.Proofs.PrintedOutcomes
import Accumulator.Proofs.BrokenLines
import Accumulator.Proofs.NumberedFailures
import Accumulator.Proofs.Transcript
import Accumulator.Proofs.TransparentCommands
import Accumulator.Proofs.Protections
import Accumulator.Proofs.RegionHistories
import Accumulator.Proofs.CommandLines
import Accumulator.Proofs.DependableHosts
import Accumulator.Proofs.ProgramFlag
import Accumulator.Proofs.Overriding
import Accumulator.Proofs.Continuing
import Accumulator.Proofs.FileBatches
