import Switchyard.Configuration
import Switchyard.Net.IntendedDestination
import Switchyard.Redirect.Runner
import Switchyard.Session
import Switchyard.Proofs.Redirect.Chain
import Switchyard.Proofs.Redirect.Following
import Switchyard.Proofs.Session
import Switchyard.Proofs.Supervision.Failures
import Switchyard.Proofs.Supervision.Names
import Switchyard.Proofs.Supervision.RetrySchedule
import Switchyard.Proofs.Timing
import Switchyard.Proofs.Supervision.LiveCount
import Switchyard.Proofs.Supervision.Cancellation
import Switchyard.Proofs.Reconciliation.Gathering
import Switchyard.Proofs.Reconciliation.Tending
import Switchyard.Proofs.Supervision.Draining
import Switchyard.Proofs.Reconciliation.Convergence
import Switchyard.Proofs.Redirect.Passes
import Switchyard.Proofs.Reconciliation.Ownership
import Switchyard.Proofs.Json.Literals
import Switchyard.Proofs.Json.Reading
import Switchyard.Proofs.Json.RoundTrip
import Switchyard.Proofs.Supervision.Mailing
import Switchyard.Proofs.Metrics
import Switchyard.Proofs.Redirect.Ledger
import Switchyard.Proofs.Redirect.Hooks
import Switchyard.Proofs.Supervision.Work
import Switchyard.Proofs.Redirect.Exclusion
import Switchyard.Proofs.Redirect.Teardown
import Switchyard.Proofs.Http.Rejection
import Switchyard.Proofs.Http.RoundTrip
import Switchyard.Proofs.Isolation.Siblings
import Switchyard.Proofs.Redirect.Forwarding
import Switchyard.Proofs.Supervision.Delivery
import Switchyard.Proofs.Supervision.Cleanup
import Switchyard.Proofs.Store.Spelling
import Switchyard.Proofs.Supervision.Surfacing
import Switchyard.Proofs.Supervision.SubUnitFailures
import Switchyard.Proofs.Redirect.Wording
import Switchyard.Proofs.Supervision.Missing
import Switchyard.Proofs.Reconciliation.Snapshots
import Switchyard.Proofs.Supervision.Scheduling
import Switchyard.Proofs.Startup
