import ActivityCatalog.Http.Exchange
import ActivityCatalog.Logging
import ActivityCatalog.Main
import ActivityCatalog.Proofs.Text.Bytes
import ActivityCatalog.Proofs.Version
import ActivityCatalog.Proofs.Activity.Embedded
import ActivityCatalog.Proofs.Activity.NormalForm
import ActivityCatalog.Proofs.Catalog.Contents
import ActivityCatalog.Proofs.Catalog.Flattening
import ActivityCatalog.Proofs.Catalog.Closure
import ActivityCatalog.Proofs.Catalog.Latest
import ActivityCatalog.Proofs.Catalog.Walk
import ActivityCatalog.Proofs.Catalog.Reach
import ActivityCatalog.Proofs.Navigation.Growth
import ActivityCatalog.Proofs.Navigation.Positions
import ActivityCatalog.Proofs.Navigation.Marks
import ActivityCatalog.Proofs.Navigation.Detours
import ActivityCatalog.Proofs.Directory.Answers
import ActivityCatalog.Proofs.Directory.Sessions
import ActivityCatalog.Proofs.Catalog.Issues
import ActivityCatalog.Proofs.Archive.Admission
import ActivityCatalog.Proofs.Archive.Calls
import ActivityCatalog.Proofs.Archive.Merging
import ActivityCatalog.Proofs.Archive.Serving
import ActivityCatalog.Proofs.Archive.Visits
import ActivityCatalog.Proofs.Import.Serving
import ActivityCatalog.Proofs.Import.Failing
import ActivityCatalog.Proofs.Import.Overriding
import ActivityCatalog.Proofs.Catalog.Acceptance
import ActivityCatalog.Proofs.Catalog.Rebuilding
import ActivityCatalog.Proofs.Catalog.Reordering
import ActivityCatalog.Proofs.Catalog.Greatest
import ActivityCatalog.Proofs.Catalog.Limits
import ActivityCatalog.Proofs.Navigation.Size
import ActivityCatalog.Proofs.Participation.Verbatim
import ActivityCatalog.Proofs.Listing.Layouts
import ActivityCatalog.Proofs.Rpc.Versions
import ActivityCatalog.Proofs.Settings.Defaults
import ActivityCatalog.Proofs.MediaType.Reading
import ActivityCatalog.Proofs.MediaType.RoundTrip
import ActivityCatalog.Proofs.MediaType.Quoted
import ActivityCatalog.Proofs.Timestamp.Calendar
import ActivityCatalog.Proofs.Timestamp.Numbers
import ActivityCatalog.Proofs.Timestamp.Written
import ActivityCatalog.Proofs.Activity.Periods
import ActivityCatalog.Proofs.Navigation.Labels
import ActivityCatalog.Proofs.Archive.SchemaVersions
