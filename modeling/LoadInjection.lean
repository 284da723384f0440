import LoadInjection.Value
import LoadInjection.Table
import LoadInjection.Selector
import LoadInjection.Cache
import LoadInjection.Plans
import LoadInjection.Gateway
import LoadInjection.Runs
import LoadInjection.Interleaving
import LoadInjection.Rest
import LoadInjection.Isolation
import LoadInjection.Outcomes
import LoadInjection.PlanMap
import LoadInjection.Serializable
import LoadInjection.Transitions
import LoadInjection.Archive
