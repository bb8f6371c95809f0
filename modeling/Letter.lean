import Letter.Json.Reader
import Letter.Main
import Letter.Proofs.Command.CommandLine
import Letter.Proofs.Command.FormatAgain
import Letter.Proofs.Grammar.Chain
import Letter.Proofs.Grammar.Context
import Letter.Proofs.Grammar.LongNumeral
import Letter.Proofs.Printing.Parentheses
import Letter.Proofs.Session.Balance
import Letter.Proofs.Session.History
import Letter.Proofs.Session.Verbose
import Letter.Proofs.Tree.Parsed
import Letter.Proofs.Tree.Interchange
import Letter.Proofs.Json.Scalar
import Letter.Proofs.Tree.NormalForm
import Letter.Proofs.Json.Compact
import Letter.Proofs.Json.Injective
import Letter.Proofs.Printing.Positions
import Letter.Proofs.Token.Stuck
import Letter.Proofs.Token.Word
import Letter.Proofs.Tree.Faults
import Letter.Proofs.Session.Stretch
import Letter.Proofs.Printing.BothQuotes
import Letter.Proofs.Printing.Depth
import Letter.Proofs.Printing.Dispatch
import Letter.Proofs.Grammar.Progress
