import Frontend.CommandLine.Answer
import Frontend.Main
import Frontend.Source.Reading
import Frontend.Proofs.Diagnostic.Caret
import Frontend.Proofs.Grammar.Failure
import Frontend.Proofs.Grammar.FirstEnd
import Frontend.Proofs.Grammar.Nesting
import Frontend.Proofs.Grammar.Numeral
import Frontend.Proofs.Grammar.Statement
import Frontend.Proofs.Grammar.Writing
import Frontend.Proofs.Layout
import Frontend.Proofs.Resolving.Domain
import Frontend.Proofs.Resolving.Footprint
import Frontend.Proofs.Resolving.History
import Frontend.Proofs.Resolving.Verdict
import Frontend.Proofs.Simplification.Closed
import Frontend.Proofs.Simplification.Numbers
import Frontend.Proofs.Simplification.Output
import Frontend.Proofs.Simplification.Regular
import Frontend.Proofs.Source.Reading
import Frontend.Proofs.Token.Tiling
import Frontend.Proofs.Token.Concatenation
import Frontend.Proofs.Token.Munch
import Frontend.Proofs.Token.Failure
import Frontend.Proofs.Resolving.WellFormed
import Frontend.Proofs.Renaming.Basic
import Frontend.Proofs.Renaming.Resolving
import Frontend.Proofs.Renaming.Simplification
import Frontend.Proofs.Renaming.Parameter
import Frontend.Proofs.Simplification.Callees
import Frontend.Proofs.Simplification.Order
import Frontend.Proofs.Simplification.ZeroProduct
