import Lox.Main
import Lox.Proofs.Command.Prompt
import Lox.Proofs.Environment.Refinement
import Lox.Proofs.Evaluation.Block
import Lox.Proofs.Evaluation.CallLimit
import Lox.Proofs.Evaluation.Equality
import Lox.Proofs.Evaluation.ErrorToken
import Lox.Proofs.Evaluation.ForLoop
import Lox.Proofs.Evaluation.Joined
import Lox.Proofs.Evaluation.Layout
import Lox.Proofs.Evaluation.Return
import Lox.Proofs.Evaluation.Scope
import Lox.Proofs.Evaluation.Termination
import Lox.Proofs.Evaluation.Truncation
import Lox.Proofs.Grammar.ErrorOrder
import Lox.Proofs.Grammar.Exact
import Lox.Proofs.Grammar.Height
import Lox.Proofs.Grammar.Incremental
import Lox.Proofs.Grammar.Recovery
import Lox.Proofs.Grammar.Reprint
import Lox.Proofs.Grammar.Unreadable
import Lox.Proofs.Token.Literal
import Lox.Proofs.Token.Spaced
import Lox.Proofs.Token.Stream
import Lox.Proofs.Token.Tiling
