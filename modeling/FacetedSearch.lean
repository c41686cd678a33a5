import FacetedSearch.Main
import FacetedSearch.CommandLine.Directory
import FacetedSearch.CommandLine.Run
import FacetedSearch.Proofs.Success
import FacetedSearch.Proofs.Document
import FacetedSearch.Proofs.Permission
import FacetedSearch.Proofs.Naming
import FacetedSearch.Proofs.Grouping
import FacetedSearch.Proofs.Clauses
import FacetedSearch.Proofs.Demands
import FacetedSearch.Proofs.Meaning
import FacetedSearch.Proofs.Stripping
import FacetedSearch.Proofs.LeaveOneOut
import FacetedSearch.Proofs.WireForm
import FacetedSearch.Proofs.FiniteBounds
import FacetedSearch.Proofs.Numbers
import FacetedSearch.Proofs.RoundTrip
import FacetedSearch.Proofs.Aggregation
import FacetedSearch.Proofs.DerivedFilters
import FacetedSearch.Proofs.Intents
import FacetedSearch.Proofs.Collection
import FacetedSearch.Proofs.Narrowing
import FacetedSearch.Proofs.Selection
import FacetedSearch.Proofs.OwnFields
import FacetedSearch.Proofs.Audit
import FacetedSearch.Proofs.Absence
import FacetedSearch.Proofs.Contradiction
import FacetedSearch.Proofs.Outcomes
import FacetedSearch.Proofs.Compound
import FacetedSearch.Proofs.Octets
import FacetedSearch.Proofs.QueryString
import FacetedSearch.Proofs.Padding
import FacetedSearch.Proofs.Pieces
import FacetedSearch.Proofs.Ancestors
import FacetedSearch.Proofs.Placement
import FacetedSearch.Proofs.Scoping
import FacetedSearch.Proofs.Presence
import FacetedSearch.Proofs.Accounting
import FacetedSearch.Proofs.Rounding
import FacetedSearch.Proofs.Binary64
import FacetedSearch.Proofs.IntegerRanges
import FacetedSearch.Proofs.DateRanges
import FacetedSearch.Proofs.MissingZero
import FacetedSearch.Proofs.Wrappers
import FacetedSearch.Proofs.Flags
import FacetedSearch.Proofs.Merging
import FacetedSearch.Proofs.Vocabulary
import FacetedSearch.Proofs.Classification
import FacetedSearch.Proofs.Planning
import FacetedSearch.Proofs.Widening
import FacetedSearch.Proofs.SeveralFields
import FacetedSearch.Proofs.Instances
import FacetedSearch.Proofs.BoundRecords
import FacetedSearch.Proofs.NamedTypes
import FacetedSearch.Proofs.FieldNames
