import Skript.Main
import Skript.Proofs.Keeping
import Skript.Proofs.DeclaredKinds
import Skript.Proofs.CallerFrame
import Skript.Proofs.Lockstep
import Skript.Proofs.Ending
import Skript.Proofs.Isolation
import Skript.Proofs.Grammar
import Skript.Proofs.Reading
import Skript.Proofs.GreedyGrammar
import Skript.Proofs.AcceptedPrograms
import Skript.Proofs.LoopFree
import Skript.Proofs.Patterns
import Skript.Proofs.LongestMatch
import Skript.Proofs.MaximalMunch
import Skript.Proofs.Lines
import Skript.Proofs.ScriptReading
import Skript.Proofs.Concatenation
import Skript.Proofs.PrintedTokens
import Skript.Proofs.PrintedPrograms
import Skript.Proofs.Resemblance
import Skript.Proofs.Interchange
import Skript.Proofs.WriteSet
import Skript.Proofs.Moments
import Skript.Proofs.CallDepth
import Skript.Proofs.MovedLexemes
import Skript.Proofs.MovedLines
import Skript.Proofs.ReportedLines
import Skript.Proofs.ConsoleUse
import Skript.Proofs.FullOutput
import Skript.Proofs.UnreadInput
import Skript.Proofs.DefinedFunctions
import Skript.Proofs.DeadCode
import Skript.Proofs.Assignment
import Skript.Proofs.CountedLoops
import Skript.Proofs.DebugMode
import Skript.Proofs.ExactIntegers
import Skript.Proofs.Respelling
import Skript.Proofs.ElseIfChains
import Skript.Proofs.Comparison
import Skript.Proofs.TextOrder
import Skript.Proofs.SpelledIntegers
import Skript.Proofs.TextAlgebra
import Skript.Proofs.TextLiterals
import Skript.Proofs.ShownTokens
import Skript.Proofs.InputLines
import Skript.Proofs.LookAhead
import Skript.Proofs.ReadingEnds
import Skript.Proofs.LastWrites
