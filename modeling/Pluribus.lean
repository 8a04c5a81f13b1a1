import Pluribus.Cognition.Origin
import Pluribus.Runtime.Confinement
import Pluribus.Runtime.Protocol
import Pluribus.Rlm.Activities
import Pluribus.Rlm.Authorship
import Pluribus.Rlm.Bounded
import Pluribus.Rlm.Budget
import Pluribus.Rlm.Capacity
import Pluribus.Rlm.Deferral
import Pluribus.Rlm.Routing
import Pluribus.Rlm.Wakes
import Pluribus.Storage.Revision
import Pluribus.Blobs.Agreement
import Pluribus.Http.Redirects
import Pluribus.Scheduler.Owners
import Pluribus.Email.Observed
import Pluribus.Cli.Observed
import Pluribus.Listen.Received
import Pluribus.Github.Replays
import Pluribus.Email.Fetched
import Pluribus.Telegram.Multipart
import Pluribus.Memory.Recall
import Pluribus.Email.Dates
import Pluribus.Cognition.Projector
import Pluribus.Cognition.Gate
import Pluribus.Core.Ranges
import Pluribus.Providers.ToolNames
import Pluribus.Packages.Overlay
import Pluribus.Scheduler.Runs
import Pluribus.Scheduler.Timers
