import Lookahead.Automaton.Clauses
import Lookahead.Automaton.Packed
import Lookahead.Automaton.Prediction
import Lookahead.Edit.Queue
import Lookahead.Grammar.Lexing
import Lookahead.Grammar.Parsing
import Lookahead.Grammar.Walking
import Lookahead.Scanner
import Lookahead.Tree.Green
import Lookahead.Proofs.Action
import Lookahead.Proofs.Stream.Lawful
import Lookahead.Proofs.Stream.Nodes
import Lookahead.Proofs.Stream.Characters
import Lookahead.Proofs.Automaton.Counting
import Lookahead.Proofs.Automaton.HopBound
import Lookahead.Proofs.Grammar.Parsing
import Lookahead.Proofs.Parser.Cascade
import Lookahead.Proofs.Parser.Silence
import Lookahead.Proofs.Stream.Laziness
import Lookahead.Proofs.Stream.Savepoints
import Lookahead.Proofs.Parser.Accounting
import Lookahead.Proofs.Stream.Abreast
import Lookahead.Proofs.Coupling
import Lookahead.Proofs.Grammar.Coupling
import Lookahead.Proofs.Parser.Replayable
import Lookahead.Proofs.Parser.Lockstep
import Lookahead.Proofs.Parser.Twins
import Lookahead.Proofs.Parser.Replay
import Lookahead.Proofs.Parser.Recall
import Lookahead.Proofs.Parser.Memoization
import Lookahead.Proofs.Tree.Forest
import Lookahead.Proofs.Grammar.RuleStack
import Lookahead.Proofs.Walker.FirstFailure
import Lookahead.Proofs.Parser.GivingUp
import Lookahead.Proofs.Recognizer.Guards
import Lookahead.Proofs.Automaton.Closed
import Lookahead.Proofs.Scanner
import Lookahead.Proofs.Lexer.Work
import Lookahead.Proofs.Grammar.Lexing
import Lookahead.Proofs.Lexer.Source
import Lookahead.Proofs.Edit.Deletions
import Lookahead.Proofs.Parser.Insertion
import Lookahead.Proofs.Stream.Skipping
import Lookahead.Proofs.Parser.Resynchronization
import Lookahead.Proofs.Parser.Turns
import Lookahead.Proofs.Parser.Progress
import Lookahead.Proofs.Parser.SkippedInput
import Lookahead.Proofs.Parser.ErrorNodes
import Lookahead.Proofs.Grammar.Soundness
import Lookahead.Proofs.Parser.Records
import Lookahead.Proofs.Walker.Records
import Lookahead.Proofs.Stream.Legible
import Lookahead.Proofs.Recognizer.Records
import Lookahead.Proofs.Grammar.Records
import Lookahead.Proofs.Parser.Upkeep
import Lookahead.Proofs.Grammar.Underway
import Lookahead.Proofs.Recollection
import Lookahead.Proofs.Automaton.Clauses
import Lookahead.Proofs.Automaton.DeadEnds
import Lookahead.Proofs.Automaton.Ambiguity
import Lookahead.Proofs.Automaton.Reporting
import Lookahead.Proofs.Automaton.Horizon
import Lookahead.Proofs.Automaton.Packed
import Lookahead.Proofs.TokenSet.Members
import Lookahead.Proofs.Walker.Wildcard
import Lookahead.Proofs.Tree.Traversals
import Lookahead.Proofs.Stream.Positions
import Lookahead.Proofs.Text.Slices
import Lookahead.Proofs.Recognizer.Depth
import Lookahead.Proofs.Grammar.Depth
import Lookahead.Proofs.SpeculationDepth
