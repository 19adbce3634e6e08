import DoubleEntry.Main
import DoubleEntry.Decimal.Shortest
import DoubleEntry.Statement.Written
import DoubleEntry.Load.Expansion
import DoubleEntry.Load.IncludeGraph
import DoubleEntry.Token.Place
import DoubleEntry.Account.ByName
import DoubleEntry.PriceHistory.Latest
import DoubleEntry.Transaction.Renaming
import DoubleEntry.Ledger.Entry
import DoubleEntry.Ledger.Reachable
import DoubleEntry.Amount.Worth
import DoubleEntry.Proofs.Decimal.Nominal
import DoubleEntry.Proofs.Token.Lexeme
import DoubleEntry.Proofs.Collection.Traversal
import DoubleEntry.Proofs.Token.ScanRules
import DoubleEntry.Proofs.Statement.Meaning
import DoubleEntry.Proofs.Ledger.Errors
import DoubleEntry.Proofs.Load.Expansion
import DoubleEntry.Proofs.Load.Failure
import DoubleEntry.Proofs.Token.Moved
import DoubleEntry.Proofs.Source.Append
import DoubleEntry.Proofs.Statement.Moved
import DoubleEntry.Proofs.Token.Append
import DoubleEntry.Proofs.Load.Accumulation
import DoubleEntry.Proofs.Statement.RoundTrip
import DoubleEntry.Proofs.Source.Written
import DoubleEntry.Proofs.Decimal.Value
import DoubleEntry.Proofs.Decimal.Exact
import DoubleEntry.Proofs.Amount.Totals
import DoubleEntry.Proofs.Transaction.Inferred
import DoubleEntry.Proofs.InPlace.Accounts
import DoubleEntry.Proofs.Collection.NameTable
import DoubleEntry.Proofs.Account.ByName
import DoubleEntry.Proofs.Account.Answers
import DoubleEntry.Proofs.Collection.SortedMap
import DoubleEntry.Proofs.InPlace.Statements
import DoubleEntry.Proofs.InPlace.Requests
import DoubleEntry.Proofs.Ledger.Filed
import DoubleEntry.Proofs.Ledger.References
import DoubleEntry.Proofs.Collection.Chronology
import DoubleEntry.Proofs.PriceHistory.Quotes
import DoubleEntry.Proofs.Ledger.Books
import DoubleEntry.Proofs.Ledger.Quotes
import DoubleEntry.Proofs.Ledger.Filing
import DoubleEntry.Proofs.Transaction.Audit
import DoubleEntry.Proofs.Account.Windows
import DoubleEntry.Proofs.Ledger.Audit
import DoubleEntry.Proofs.Ledger.Openings
import DoubleEntry.Load.Stage
import DoubleEntry.Proofs.Load.Stages
import DoubleEntry.Proofs.Load.Cycles
import DoubleEntry.Proofs.Statement.Readable
import DoubleEntry.Proofs.Ledger.Display
import DoubleEntry.Proofs.Token.Comment
import DoubleEntry.Proofs.Source.Comment
import DoubleEntry.Proofs.Source.Place
import DoubleEntry.Proofs.Token.Cover
import DoubleEntry.Proofs.Source.Cover
import DoubleEntry.Load.Site
import DoubleEntry.Proofs.Load.Notes
import DoubleEntry.Proofs.Statement.DatePlace
import DoubleEntry.Proofs.Token.Stray
import DoubleEntry.Proofs.Load.ErrorPlace
import DoubleEntry.Load.Session
import DoubleEntry.Proofs.Load.Verbosity
import DoubleEntry.Proofs.Load.Session
import DoubleEntry.Proofs.Collection.Lanes
import DoubleEntry.Proofs.Ledger.Commuting
import DoubleEntry.Proofs.Load.Reordering
import DoubleEntry.Amount.Refusal
import DoubleEntry.PriceHistory.Search
import DoubleEntry.Proofs.Amount.Exact
import DoubleEntry.Proofs.Transaction.Completed
import DoubleEntry.Proofs.Transaction.Totals
import DoubleEntry.Proofs.PriceHistory.Search
import DoubleEntry.Proofs.PriceHistory.Latest
import DoubleEntry.Proofs.Account.WindowOrder
import DoubleEntry.Proofs.Transaction.Renaming
import DoubleEntry.Proofs.Ledger.Renumbering
import DoubleEntry.Proofs.Account.Spelling
import DoubleEntry.Proofs.Source.Reread
import DoubleEntry.Source.Search
import DoubleEntry.Proofs.Source.TrailingComment
import DoubleEntry.Proofs.Source.Alone
import DoubleEntry.Proofs.Source.Located
import DoubleEntry.Token.Stage
import DoubleEntry.Proofs.Token.Progress
