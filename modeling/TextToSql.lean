import TextToSql.Text.Basic
import TextToSql.Unicode.WordChar
import TextToSql.Unicode.Cased
import TextToSql.Unicode.Lowercase
import TextToSql.Unicode.CaseFold
import TextToSql.Sql.Printer
import TextToSql.Json.Doc
import TextToSql.Normalize
import TextToSql.Lexicon.Comparison
import TextToSql.Pattern.Rule
import TextToSql.Lexicon.Cue
import TextToSql.Lexicon.Limit
import TextToSql.Schema.Declare
import TextToSql.Mention
import TextToSql.Plan
import TextToSql.Language.Cloud
import TextToSql.Service
import TextToSql.Sql.Check
import TextToSql.Http.Router
import TextToSql.Settings.Basic
import TextToSql.Proofs.Decimal
import TextToSql.Proofs.Sql.Parser
import TextToSql.Proofs.Sql.Scanning
import TextToSql.Proofs.Sql.Tokens
import TextToSql.Proofs.Sql.RoundTrip
import TextToSql.Proofs.Unicode.CaseFold
import TextToSql.Proofs.Pattern.Captures
import TextToSql.Proofs.Schema.Relationships
import TextToSql.Proofs.Intent.Selection
import TextToSql.Proofs.JoinPlan
import TextToSql.Proofs.Intent.Filter
import TextToSql.Proofs.Intent.Projection
import TextToSql.Proofs.Intent.Grouping
import TextToSql.Proofs.Intent.Ordering
import TextToSql.Proofs.Confinement
import TextToSql.Proofs.Scope
import TextToSql.Proofs.Text.Words
import TextToSql.Proofs.Text.Lower
import TextToSql.Proofs.Normalize
import TextToSql.Proofs.Pattern.Whole
import TextToSql.Proofs.Mention
import TextToSql.Proofs.Answer
import TextToSql.Proofs.Intent.Plain
import TextToSql.Proofs.Discipline
import TextToSql.Proofs.Coverage
import TextToSql.Proofs.JoinCondition
import TextToSql.Proofs.Tableless
import TextToSql.Proofs.Reach
import TextToSql.Proofs.Phrase
import TextToSql.Proofs.Schema.Route
import TextToSql.Proofs.Gathering
import TextToSql.Proofs.Translation
import TextToSql.Proofs.Pattern.Spaced
import TextToSql.Proofs.Threshold.Words
import TextToSql.Proofs.Threshold.Filter
import TextToSql.Proofs.Pattern.Place
import TextToSql.Proofs.Pattern.Occurrence
import TextToSql.Proofs.TableScan
import TextToSql.Proofs.ExactColumn
import TextToSql.Proofs.Pattern.Operand
import TextToSql.Proofs.Threshold.Operand
import TextToSql.Proofs.Intent.Showing
import TextToSql.Proofs.LetterCase
import TextToSql.Proofs.Search
import TextToSql.Proofs.Pattern.Extension
import TextToSql.Proofs.ShortCircuit
import TextToSql.Proofs.Sql.Closed
import TextToSql.Proofs.Sql.Logic
import TextToSql.Proofs.Sql.Undivided
import TextToSql.Proofs.Sql.Conjunction
import TextToSql.Proofs.PhraseScan
import TextToSql.Proofs.Plural
import TextToSql.Proofs.Singular
import TextToSql.Proofs.Ranking
import TextToSql.Proofs.Text.Lowered
import TextToSql.Proofs.NormalForm
import TextToSql.Proofs.SortRequest
import TextToSql.Proofs.ImpliedAggregate
import TextToSql.Proofs.Sql.Quotings
import TextToSql.Proofs.Schema.Merging
import TextToSql.Proofs.RowLimit
import TextToSql.Proofs.Pattern.Readings
import TextToSql.Proofs.Settings
