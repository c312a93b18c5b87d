import Nse.Cli.Attribution
import Nse.Cli.Drops
import Nse.Cli.Families
import Nse.Cli.Main
import Nse.Cli.Oracle
import Nse.Cli.ReductionSpec
import Nse.Cli.Suite
import Nse.Core.Blindness
import Nse.Core.CanaryFilter
import Nse.Core.CleanStop
import Nse.Core.Cleanup
import Nse.Core.ConntrackForm
import Nse.Core.Consumer
import Nse.Core.Deadline
import Nse.Core.Direction
import Nse.Core.Duration
import Nse.Core.ErrorLines
import Nse.Core.Gateway
import Nse.Core.Lifetime
import Nse.Core.LineAccounting
import Nse.Core.NamespaceEntry
import Nse.Core.PathCache
import Nse.Core.Paths
import Nse.Core.Probe
import Nse.Core.QueueBound
import Nse.Core.Script
import Nse.Core.Sweep
import Nse.Core.Together
