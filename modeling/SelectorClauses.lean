import SelectorClauses.Catalogue.Operation
import SelectorClauses.Grammar.Language
import SelectorClauses.Grammar.Pattern
import SelectorClauses.Json.Read
import SelectorClauses.Main
import SelectorClauses.Proofs.Catalogue.Accounting
import SelectorClauses.Proofs.Catalogue.Find
import SelectorClauses.Proofs.Catalogue.FirstAppearances
import SelectorClauses.Proofs.Catalogue.Get
import SelectorClauses.Proofs.Catalogue.Growing
import SelectorClauses.Proofs.Catalogue.Identity
import SelectorClauses.Proofs.Catalogue.Interference
import SelectorClauses.Proofs.Catalogue.Lookups
import SelectorClauses.Proofs.Catalogue.Operations
import SelectorClauses.Proofs.Catalogue.Transparency
import SelectorClauses.Proofs.Catalogue.Trimmed
import SelectorClauses.Proofs.Catalogue.UntilFailure
import SelectorClauses.Proofs.CommandLine.AllOrNothing
import SelectorClauses.Proofs.CommandLine.ArgumentOrder
import SelectorClauses.Proofs.CommandLine.Batches
import SelectorClauses.Proofs.CommandLine.Choices
import SelectorClauses.Proofs.CommandLine.Contents
import SelectorClauses.Proofs.CommandLine.DecodedReport
import SelectorClauses.Proofs.CommandLine.InputPaths
import SelectorClauses.Proofs.CommandLine.Insertion
import SelectorClauses.Proofs.CommandLine.JsonReport
import SelectorClauses.Proofs.CommandLine.NamesReport
import SelectorClauses.Proofs.CommandLine.TextReport
import SelectorClauses.Proofs.CommandLine.Verbosity
import SelectorClauses.Proofs.Grammar.Backtracking
import SelectorClauses.Proofs.Grammar.Committed
import SelectorClauses.Proofs.Grammar.Ending
import SelectorClauses.Proofs.Grammar.Escape
import SelectorClauses.Proofs.Grammar.Greedy
import SelectorClauses.Proofs.Grammar.Identifier
import SelectorClauses.Proofs.Grammar.Quoting
import SelectorClauses.Proofs.Grammar.Reading
import SelectorClauses.Proofs.Grammar.Ways
import SelectorClauses.Proofs.Json.RoundTrip
import SelectorClauses.Proofs.Text.Lines
import SelectorClauses.Proofs.Text.Trimming
import SelectorClauses.Proofs.Text.Unquoting
import SelectorClauses.Proofs.Token.Display
import SelectorClauses.Proofs.Token.Locality
import SelectorClauses.Proofs.Token.Matching
import SelectorClauses.Proofs.Token.Next
import SelectorClauses.Proofs.Token.NormalForm
import SelectorClauses.Proofs.Tokenizing.Acceptance
import SelectorClauses.Proofs.Tokenizing.Alone
import SelectorClauses.Proofs.Tokenizing.AnyOrder
import SelectorClauses.Proofs.Tokenizing.Composition
import SelectorClauses.Proofs.Tokenizing.FaultPosition
import SelectorClauses.Proofs.Tokenizing.Progress
import SelectorClauses.Proofs.Tokenizing.Reads
import SelectorClauses.Proofs.Tokenizing.Run
import SelectorClauses.Proofs.Tokenizing.Stepwise
import SelectorClauses.Proofs.Tokenizing.Stray
import SelectorClauses.Proofs.Tokenizing.Trimmed
import SelectorClauses.Token.Pool
