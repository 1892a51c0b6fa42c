import Conduit.Config.Duration
import Conduit.Upstream.Attempts
import Conduit.Upstream.Clones
import Conduit.Upstream.Prober
import Conduit.Upstream.Race
import Conduit.Upstream.Timed
import Conduit.Lifecycle.Ingress
import Conduit.Lifecycle.Deadline
import Conduit.Lifecycle.Settings
import Conduit.Lifecycle.Timeline
import Conduit.Binary.Reload
import Conduit.Binary.Shutdown
import Conduit.Binary.Health
import Conduit.Binary.Secure
import Conduit.Binary.Shards
import Conduit.Binary.Scrape
import Conduit.Binary.Buffered
import Conduit.Io.Bind
import Conduit.Io.Timing
import Conduit.Control.Admin
import Conduit.Upstream.Traffic
import Conduit.Upstream.Schedule
import Conduit.Binary.Swap
import Conduit.Binary.Exit
import Conduit.Binary.Upstreams
import Conduit.Config.Faults
import Conduit.Binary.Monitor
import Conduit.Binary.Isolation
import Conduit.Binary.Relay
import Conduit.Binary.Edits
