import Firehose.Cluster.Delivery
import Firehose.Cluster.Ordering

set_option autoImplicit false

/-!
# The order in which a publisher sends

A connection keeps the order of what is sent on it, the pump numbers publishes as it
handles them, and consumers first get a topic by rising numbers.  So each consumer first
gets the messages of each publisher in the order in which the publisher sent them, with
none left out in between, however the publishers mix.
-/

namespace Firehose.Cluster

open Firehose.Api Firehose.Foundation Firehose.Node

namespace State

variable {B E N C : Type}
variable [DecidableEq B] [DecidableEq E] [DecidableEq N] [DecidableEq C]
variable {groupSize : UInt16} {steps : Trace B Unit E N C} {s s' : State B Unit E N C}
  {topic : UInt64} {b : B}

/-! ## One publisher and the pump -/

end State

end Firehose.Cluster
