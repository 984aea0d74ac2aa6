import Pcfg.Binary64.Arith
import Pcfg.Binary64.Basic
import Pcfg.Binary64.Round
import Pcfg.CommandLine
import Pcfg.Conversion
import Pcfg.Decimal.Basic
import Pcfg.Decimal.Notation
import Pcfg.Decimal.Read
import Pcfg.Decimal.Shortest
import Pcfg.Error
import Pcfg.Grammar.Basic
import Pcfg.Listing.Homogenize
import Pcfg.Listing.Line
import Pcfg.Main
import Pcfg.Production
import Pcfg.Proofs.Binary64.Fields
import Pcfg.Proofs.Binary64.Nearest
import Pcfg.Proofs.Conversion.Acceptance
import Pcfg.Proofs.Conversion.Convert
import Pcfg.Proofs.Conversion.Feed
import Pcfg.Proofs.Conversion.Invariant
import Pcfg.Proofs.Conversion.Shape
import Pcfg.Proofs.Decimal.Literal
import Pcfg.Proofs.Decimal.Significant
import Pcfg.Proofs.Decimal.SixPlaces
import Pcfg.Proofs.Decimal.SixPlacesForm
import Pcfg.Proofs.Grammar.Frame
import Pcfg.Proofs.Grammar.Reference
import Pcfg.Proofs.Grammar.Update
import Pcfg.Proofs.Grammar.WellFormed
import Pcfg.Proofs.Listing.Homogenize
import Pcfg.Proofs.Listing.Line
import Pcfg.Proofs.RuleFile.Decode
import Pcfg.Proofs.RuleFile.Read
import Pcfg.Proofs.RuleFile.RoundTrip
import Pcfg.Proofs.RuleFile.Rule
import Pcfg.Proofs.RuleFile.Share
import Pcfg.Proofs.RuleFile.Verdict
import Pcfg.Proofs.RuleFile.Write
import Pcfg.Proofs.Text.ByteOrder
import Pcfg.Proofs.Text.Lines
import Pcfg.Proofs.Text.Words
import Pcfg.RuleFile.Read
import Pcfg.RuleFile.Rule
import Pcfg.RuleFile.Write
import Pcfg.Symbol
import Pcfg.Text.Blank
import Pcfg.Text.GraphemeExtend
import Pcfg.Text.Lines
import Pcfg.Text.Printable
import Pcfg.Text.Quoted
import Pcfg.Text.Ranges
import Pcfg.Text.UpperCase
