import Parselet.Session
import Parselet.Result.Access
import Parselet.Grammar.Sample
import Parselet.Proofs.Parser.Calls
import Parselet.Proofs.Step.Family
import Parselet.Proofs.Parser.Depth
import Parselet.Proofs.Parser.Gives
import Parselet.Proofs.Text.Span
import Parselet.Proofs.Token.Lexeme
import Parselet.Proofs.Arithmetic.Grammar
import Parselet.Proofs.Arithmetic.Reading
import Parselet.Proofs.QuotedString.Format
import Parselet.Proofs.QuotedString.Reading
import Parselet.Proofs.Peg.Grammar
import Parselet.Proofs.Peg.Outcomes
import Parselet.Proofs.Peg.Steps
import Parselet.Proofs.Peg.Refinement
import Parselet.Proofs.Step.Within
import Parselet.Proofs.Parser.Built
import Parselet.Proofs.Grammar.Library
import Parselet.Proofs.Grammar.Built
import Parselet.Proofs.Session.Stability
import Parselet.Proofs.Grammar.Faultless
import Parselet.Proofs.Step.Safe
import Parselet.Proofs.Value.Fits
import Parselet.Proofs.Parser.Debug
import Parselet.Proofs.Parser.Yields
import Parselet.Proofs.Token.Conversion
import Parselet.Proofs.Parser.Stall
import Parselet.Proofs.Parser.Termination
import Parselet.Proofs.Step.Stall
import Parselet.Proofs.Step.Ends
import Parselet.Proofs.Parser.Ends
import Parselet.Proofs.Arithmetic.Answers
import Parselet.Proofs.Arithmetic.Longest
import Parselet.Proofs.Arithmetic.Division
import Parselet.Proofs.Parser.Active
import Parselet.Proofs.Parser.Log
import Parselet.Proofs.NestedList.Format
import Parselet.Proofs.NestedList.Reading
import Parselet.Proofs.Parser.Alike
import Parselet.Proofs.Text.Tokens
import Parselet.Proofs.Arithmetic.Spacing
import Parselet.Proofs.Step.Chain
import Parselet.Proofs.Parser.Repetition
import Parselet.Proofs.Parser.Separation
import Parselet.Proofs.Parser.Spells
import Parselet.Proofs.Grammar.Nameless
import Parselet.Proofs.Step.Spells
import Parselet.Proofs.Parser.Nameless
import Parselet.Proofs.Step.Longest
import Parselet.Proofs.Token.Integer
import Parselet.Proofs.Token.Decimal
import Parselet.Proofs.QuotedString.Closing
import Parselet.Proofs.Token.Name
import Parselet.Proofs.CommaList.Format
import Parselet.Proofs.CommaList.Reading
import Parselet.Proofs.Text.Ranges
import Parselet.Proofs.Text.Lower
import Parselet.Proofs.Parser.Anycase
import Parselet.Proofs.Parser.Choice
import Parselet.Proofs.Token.Maximal
