import RecordQuery.Aggregate
import RecordQuery.Context
import RecordQuery.Paging
import RecordQuery.Proofs.Matching
import RecordQuery.Value.Equivalence
import RecordQuery.Proofs.Congruence
import RecordQuery.Proofs.EqualQueries
import RecordQuery.Proofs.Identity
import RecordQuery.Proofs.Reachable
import RecordQuery.Proofs.Lookup
import RecordQuery.Proofs.Narrowing
import RecordQuery.Proofs.ListLookup
import RecordQuery.Proofs.Retrieval
import RecordQuery.Proofs.DistinctValues
import RecordQuery.Proofs.Pages
import RecordQuery.Proofs.Grouping
import RecordQuery.Proofs.DrillDown
import RecordQuery.Proofs.Components
import RecordQuery.Proofs.PageNumber
import RecordQuery.Proofs.CollectionLookup
import RecordQuery.Proofs.SplitSources
import RecordQuery.Proofs.Rounding
import RecordQuery.Proofs.PageCount
import RecordQuery.Proofs.IdentitySymmetry
import RecordQuery.Proofs.PageBounds
import RecordQuery.Proofs.PlainSum
import RecordQuery.Proofs.GroupPartition
import RecordQuery.Proofs.MatchingOutcomes
import RecordQuery.Proofs.Override
import RecordQuery.Proofs.UuidSpellings
import RecordQuery.Proofs.ImpliedPage
import RecordQuery.Proofs.OrderedExtrema
import RecordQuery.Proofs.PageNavigation
import RecordQuery.Proofs.RefusedOptions
import RecordQuery.Proofs.DottedPaths
import RecordQuery.Proofs.GroupKeys
import RecordQuery.Proofs.OptionDicts
import RecordQuery.Proofs.Existence
import RecordQuery.Proofs.AverageBounds
