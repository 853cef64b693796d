import Firehose.Foundation.Map
import Firehose.Foundation.Channel
import Firehose.Foundation.Run
import Firehose.Foundation.Lockstep
import Firehose.Foundation.Merging
import Firehose.Foundation.Ledger
import Firehose.Foundation.Loop
import Firehose.Foundation.Varint
import Firehose.Foundation.WireFormat
import Firehose.Foundation.OrderedMultiset
import Firehose.Foundation.Cyclic
import Firehose.Foundation.StringStream
import Firehose.Foundation.Pool
import Firehose.Foundation.Draining
import Firehose.Api.Proto
import Firehose.Api.RoundTrip
import Firehose.Api.Size
import Firehose.Api.Serialization
import Firehose.Api.SerializedSize
import Firehose.Util.SlidingWindow
import Firehose.Util.Split
import Firehose.Util.CoreManager
import Firehose.Node.Pump
import Firehose.Node.Engine
import Firehose.Node.Nuzzle
import Firehose.Node.Client
import Firehose.Node.Decoding
import Firehose.Node.Relaying
import Firehose.Node.TopicRange
import Firehose.Node.RoundRobin
import Firehose.Cluster.State
import Firehose.Cluster.Projection
import Firehose.Cluster.NuzzleRun
import Firehose.Cluster.Subscriptions
import Firehose.Cluster.EngineRun
import Firehose.Cluster.PumpRun
import Firehose.Cluster.Identity
import Firehose.Cluster.Replication
import Firehose.Cluster.Integrity
import Firehose.Cluster.Delivery
import Firehose.Cluster.Joining
import Firehose.Cluster.Ordering
import Firehose.Cluster.DeliveryLaw
import Firehose.Cluster.Listing
import Firehose.Cluster.Reclaiming
import Firehose.Cluster.Closing
import Firehose.Cluster.Forwarding
import Firehose.Cluster.Independence
import Firehose.Cluster.Unsolicited
import Firehose.Cluster.Sequence
import Firehose.Cluster.Definedness
import Firehose.Cluster.Draining
import Firehose.Cluster.Availability
import Firehose.Cluster.Retention
import Firehose.Cluster.SendOrder
import Firehose.Cluster.Routing
import Firehose.Cluster.Noninterference
import Firehose.Network.SendQueue
import Firehose.Network.Framing
import Firehose.Network.MessageClasses
import Firehose.Network.Containment
import Firehose.Network.Connection
import Firehose.Network.Link
import Firehose.Cluster.Links
import Firehose.Cluster.Deployed
import Firehose.Cluster.Fitting
import Firehose.Cluster.Settling
import Firehose.Network.Listening
import Firehose.Network.ClockSync
import Firehose.Node.Statistics
import Firehose.Node.Schedule
import Firehose.Cluster.Standing
