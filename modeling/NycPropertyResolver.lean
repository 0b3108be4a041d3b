import NycPropertyResolver.Ingestion.CoverageAgreement
import NycPropertyResolver.Ingestion.EndToEnd
import NycPropertyResolver.Ingestion.TerminalDecision
import NycPropertyResolver.Ingestion.PublicationStatements
import NycPropertyResolver.Ingestion.BatchRequests
import NycPropertyResolver.Identity.RaceFreedom
import NycPropertyResolver.Identity.ResolutionPostcondition
import NycPropertyResolver.Library.Keyset
import NycPropertyResolver.Library.Base64Url
import NycPropertyResolver.Library.Json
import NycPropertyResolver.Query.Traversal
import NycPropertyResolver.Clients.Pluto
import NycPropertyResolver.Clients.BuildingFootprints
import NycPropertyResolver.Clients.CondoAgreement
import NycPropertyResolver.Clients.RetryOverlap
import NycPropertyResolver.Clients.RequestAccounting
import NycPropertyResolver.Ingestion.FailStop
import NycPropertyResolver.Ingestion.LivePromotion
import NycPropertyResolver.Ingestion.CoverageRows
import NycPropertyResolver.Ingestion.BoundedAttempts
import NycPropertyResolver.Ingestion.RowReplay
import NycPropertyResolver.Identity.IdentityTransactions
import NycPropertyResolver.Identity.AddressFixedPoint
import NycPropertyResolver.Identity.UnitAddress
import NycPropertyResolver.Identity.AddressSpelling
import NycPropertyResolver.Identity.BulkRefinement
import NycPropertyResolver.Ingestion.DateGrammar
import NycPropertyResolver.Ingestion.RowIdentity
import NycPropertyResolver.Identity.StoredState
import NycPropertyResolver.Ingestion.SupersededPublication
import NycPropertyResolver.Ingestion.PublishedSource
import NycPropertyResolver.Workers.IngestionWorker
import NycPropertyResolver.Workers.OperationalSummary
import NycPropertyResolver.Query.ServedListing
import NycPropertyResolver.Ingestion.SourceContract
import NycPropertyResolver.Identity.NamedParcel
import NycPropertyResolver.Http.Revalidation
import NycPropertyResolver.Query.PortfolioPolling
