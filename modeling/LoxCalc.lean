import LoxCalc.Main
import LoxCalc.Recovery
import LoxCalc.Proofs.Grammar
import LoxCalc.Proofs.Phrase
import LoxCalc.Proofs.MaximalMunch
import LoxCalc.Proofs.ParseGrammar
import LoxCalc.Proofs.SessionRun
import LoxCalc.Proofs.Outcome
import LoxCalc.Proofs.Unparse
import LoxCalc.Proofs.FirstFailure
import LoxCalc.Proofs.KindInference
import LoxCalc.Proofs.DeepNesting
import LoxCalc.Proofs.SessionHistory
import LoxCalc.Proofs.KnownOperators
import LoxCalc.Proofs.LineByLine
import LoxCalc.Proofs.Effects
import LoxCalc.Proofs.Observers
import LoxCalc.Proofs.PromptLines
import LoxCalc.Proofs.ReadingLimit
import LoxCalc.Proofs.SyntaxErrors
import LoxCalc.Proofs.Interpreting
import LoxCalc.Proofs.PrintedTree
import LoxCalc.Proofs.PieceEnds
import LoxCalc.Proofs.SourceLines
import LoxCalc.Proofs.StrayCharacters
import LoxCalc.Proofs.LineEndings
import LoxCalc.Proofs.Rescanning
import LoxCalc.Proofs.NumberBits
import LoxCalc.Proofs.StatementBoundaries
import LoxCalc.Proofs.Equality
import LoxCalc.Proofs.EndOfInput
import LoxCalc.Proofs.ReadingBack
