import AggregateQuery.Main
import AggregateQuery.Proofs.Condition.Concatenation
import AggregateQuery.Proofs.Condition.Rearranging
import AggregateQuery.Proofs.Condition.WrittenQuery
import AggregateQuery.Proofs.Request.BuiltRequest
import AggregateQuery.Proofs.Request.DimensionScope
import AggregateQuery.Proofs.Request.ExactReports
import AggregateQuery.Proofs.Request.ZoneChange
import AggregateQuery.Proofs.Catalog.Loading
import AggregateQuery.Proofs.Request.DefinitionOrder
import AggregateQuery.Proofs.Time.IntervalText
import AggregateQuery.Proofs.Request.ListedIntervals
import AggregateQuery.Proofs.Request.SortText
import AggregateQuery.Proofs.Request.SelectedNames
import AggregateQuery.Proofs.Request.DimensionHistory
import AggregateQuery.Proofs.Request.DataHistory
import AggregateQuery.Proofs.Request.ParameterParts
import AggregateQuery.Proofs.Condition.ClauseGrammar
import AggregateQuery.Proofs.Data.Union
import AggregateQuery.Proofs.Condition.Hashing
import AggregateQuery.Proofs.Time.WrittenTime
import AggregateQuery.Proofs.Time.Buckets
import AggregateQuery.Proofs.Request.PrintedParameters
import AggregateQuery.Proofs.Request.WrittenSorts
import AggregateQuery.Proofs.Condition.WrittenHaving
import AggregateQuery.Proofs.Text.Pieces
import AggregateQuery.Proofs.Request.SortViews
import AggregateQuery.Proofs.Settings.Expansion
import AggregateQuery.Proofs.Request.Suggestions
import AggregateQuery.Proofs.Condition.EncodedValues
import AggregateQuery.Proofs.Request.Pages
