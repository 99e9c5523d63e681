import CanonicalTokens.Decoding
import CanonicalTokens.Encoding
import CanonicalTokens.Json.Printer
import CanonicalTokens.Main
import CanonicalTokens.Proofs.Parse.Budget
import CanonicalTokens.Proofs.Walk.Binders
import CanonicalTokens.Proofs.Walk.Braces
import CanonicalTokens.Proofs.Walk.Comments
import CanonicalTokens.Proofs.Walk.Coverage
import CanonicalTokens.Proofs.Walk.Nesting
import CanonicalTokens.Proofs.Walk.Options
import CanonicalTokens.Proofs.Walk.Recursion
import CanonicalTokens.Results
import CanonicalTokens.Sample
import CanonicalTokens.TokenCheck
import CanonicalTokens.Tree.Decoding
import CanonicalTokens.Proofs.Scope.Account
import CanonicalTokens.Proofs.Json.Reading
import CanonicalTokens.Proofs.Results.JsonLines
import CanonicalTokens.Proofs.Walk.Confinement
import CanonicalTokens.Proofs.CommandLine.Outcomes
import CanonicalTokens.Proofs.Damage.Extent
import CanonicalTokens.Proofs.Walk.Openings
import CanonicalTokens.Proofs.Literal.Numerals
import CanonicalTokens.Proofs.Walk.Balance
import CanonicalTokens.Proofs.Walk.Unwritten
import CanonicalTokens.Proofs.Names.Searches
import CanonicalTokens.Proofs.Names.Targets
import CanonicalTokens.Proofs.Names.LeftHandSides
import CanonicalTokens.Proofs.Names.Declarators
import CanonicalTokens.Proofs.Results.PlainText
import CanonicalTokens.Proofs.Pipeline
import CanonicalTokens.Proofs.Names.Outermost
import CanonicalTokens.Proofs.Damage.Counters
