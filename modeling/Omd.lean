import Omd.Agreement
import Omd.Delivery
import Omd.Dependencies
import Omd.DependencyGraph
import Omd.DeadTasks
import Omd.Latches
import Omd.Retirement
import Omd.Waiting
import Omd.Leadership
import Omd.Deadlines
import Omd.Generations
import Omd.Succession
import Omd.Intents
import Omd.Collection
import Omd.Semaphores
import Omd.Listeners
import Omd.Snapshots
import Omd.WriteSet
import Omd.OutboxTimer
import Omd.DecisionLedger
import Omd.Upgrade
import Omd.Batches
import Omd.Poison
import Omd.Conflicts
import Omd.Leases
import Omd.Overlap
import Omd.Aging
import Omd.Heartbeats
import Omd.BeginAgain
import Omd.Singulon
import Omd.Resumption
import Omd.Interleaving
import Omd.Trips
import Omd.Progress
import Omd.Replays
import Omd.Conservation
import Omd.Attempts
import Omd.Rollbacks
