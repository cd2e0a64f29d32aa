import Actors.Mailbox.BQueue
import Actors.Dispatch.HandlerCache
import Actors.Runtime.State
import Actors.Runtime.Step
import Actors.Runtime.Invariant
import Actors.Runtime.Preserve
import Actors.Runtime.Delivery
import Actors.Runtime.Handlers
import Actors.Runtime.Lifecycle
import Actors.Runtime.Blocking
import Actors.Runtime.Calls
import Actors.Runtime.Worker
import Actors.Runtime.GroupLoop
import Actors.Runtime.Timer
import Actors.Manage.Names
import Actors.Manage.Init
import Actors.Manage.Shutdown
import Actors.Remote.Serialization
import Actors.Remote.Zmq
import Actors.Remote.Net
