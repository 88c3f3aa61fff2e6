import Hyperbahn.JsObject
import Hyperbahn.JsBuiltins
import Hyperbahn.PartialRange
import Hyperbahn.Circuits
import Hyperbahn.Dispatcher.State
import Hyperbahn.Dispatcher.Channels
import Hyperbahn.Dispatcher.Affinity
import Hyperbahn.Dispatcher.Membership
import Hyperbahn.Dispatcher.Scans
import Hyperbahn.Dispatcher.Admission
import Hyperbahn.Dispatcher.Step
import Hyperbahn.Dispatcher.RemoteConfig
import Hyperbahn.Discovery
import Hyperbahn.Dispatcher.Correctness.Indices
import Hyperbahn.Dispatcher.Correctness.Channels
import Hyperbahn.Dispatcher.Correctness.Membership
import Hyperbahn.Dispatcher.Correctness.Affinity
import Hyperbahn.Dispatcher.Correctness.Admission
import Hyperbahn.Dispatcher.Correctness.Legacy
import Hyperbahn.Dispatcher.Correctness.Reconcile
import Hyperbahn.Dispatcher.Correctness.Drains
import Hyperbahn.Dispatcher.Correctness.PartialConnections
import Hyperbahn.Dispatcher.Correctness.Blocking
import Hyperbahn.Dispatcher.Correctness.RemoteConfig
import Hyperbahn.Handler.Advertise
import Hyperbahn.Handler.Correctness.Advertise
import Hyperbahn.Correctness.Circuits
import Hyperbahn.Handler.Cluster
import Hyperbahn.Handler.Correctness.Cluster
import Hyperbahn.Dispatcher.Correctness.Reaper
