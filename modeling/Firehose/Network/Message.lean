import Firehose.Api.Message
import Firehose.Foundation.Words

set_option autoImplicit false

/-!
# Messages on a connection (`message.h`, `network.h`)

A frame is a pre-header of six words, a header and a body.  The sender takes header and
body from a `message_tx`; the receiver hands what it reads to a `message_rx`.
-/

namespace Firehose.Network

open Firehose.Api Firehose.Foundation

/-- `max_header_len`. -/
def maxHeaderLen : Nat := 10 * 1024 * 1024

/-- `connection_stats`, as far as a single connection updates it. -/
structure ConnectionStats where
  bytesSent : UInt64
  bytesReceived : UInt64
  messagesSent : UInt64
  messagesReceived : UInt64
  deriving DecidableEq, Inhabited

namespace ConnectionStats

/-- The counters of a new connection. -/
def zero : ConnectionStats := ⟨0, 0, 0, 0⟩

/-- `connection_stats::message_received` -/
def messageReceived (stats : ConnectionStats) (size : UInt64) : ConnectionStats :=
  { stats with
    bytesReceived := stats.bytesReceived + size
    messagesReceived := stats.messagesReceived + 1 }

/-- `connection_stats::message_sent` -/
def messageSent (stats : ConnectionStats) (size : UInt64) : ConnectionStats :=
  { stats with
    bytesSent := stats.bytesSent + size
    messagesSent := stats.messagesSent + 1 }

/-- `connection_stats::operator+=` -/
def add (stats rhs : ConnectionStats) : ConnectionStats where
  bytesSent := stats.bytesSent + rhs.bytesSent
  bytesReceived := stats.bytesReceived + rhs.bytesReceived
  messagesSent := stats.messagesSent + rhs.messagesSent
  messagesReceived := stats.messagesReceived + rhs.messagesReceived

/-- `connection_stats::operator=`, which adds instead of replacing -/
def assign (stats rhs : ConnectionStats) : ConnectionStats := stats.add rhs

/-- `connection_stats::operator-=` -/
def sub (stats rhs : ConnectionStats) : ConnectionStats where
  bytesSent := stats.bytesSent - rhs.bytesSent
  bytesReceived := stats.bytesReceived - rhs.bytesReceived
  messagesSent := stats.messagesSent - rhs.messagesSent
  messagesReceived := stats.messagesReceived - rhs.messagesReceived

end ConnectionStats

/-- The words of `uint64_t pre_header[6]`. -/
structure PreHeader where
  headerLen : UInt64
  bodyLen : UInt64
  msgType : UInt64
  msgId : UInt64
  sentAt : UInt64
  localDelta : UInt64
  deriving DecidableEq, Inhabited

namespace PreHeader

def words (p : PreHeader) : List UInt64 :=
  [p.headerLen, p.bodyLen, p.msgType, p.msgId, p.sentAt, p.localDelta]

/-- The memory of `pre_header`. -/
def bytes (p : PreHeader) : Bytes := arrayBytes p.words

/-- The words in memory after 48 bytes have been read into `pre_header`. -/
def ofBytes (bytes : Bytes) : PreHeader :=
  ⟨wordAt bytes 0, wordAt bytes 1, wordAt bytes 2, wordAt bytes 3, wordAt bytes 4,
    wordAt bytes 5⟩

@[simp] theorem length_bytes (p : PreHeader) : p.bytes.length = 48 := length_arrayBytes p.words

@[simp] theorem ofBytes_bytes (p : PreHeader) : ofBytes p.bytes = p := by
  have hword : ∀ {i : Nat} {w : UInt64}, p.words[i]? = some w → wordAt p.bytes i = w :=
    wordAt_arrayBytes
  rw [ofBytes, hword (i := 0) rfl, hword (i := 1) rfl, hword (i := 2) rfl,
    hword (i := 3) rfl, hword (i := 4) rfl, hword (i := 5) rfl]

/-- What both ends add to their statistics for a frame. -/
def frameSize (p : PreHeader) : UInt64 := p.headerLen + p.bodyLen + 48

end PreHeader

/-- A `message_tx`. -/
structure MessageTx where
  /-- `get_tx_msg_type` -/
  msgType : UInt64
  /-- `get_tx_req_id` -/
  reqId : UInt64
  /-- What `serialize_tx_header` writes. -/
  header : Bytes
  /-- `get_tx_body_len` -/
  bodyLen : UInt64
  /-- What `next_tx_body_buf` returns, call by call; after that it throws. -/
  segments : List Bytes
  deriving DecidableEq, Inhabited

namespace MessageTx

/-- `get_tx_header_len` -/
def headerLen (m : MessageTx) : UInt64 := UInt64.ofNat m.header.length

/-- What `start_send` puts into `pre_header`. -/
def preHeader (m : MessageTx) (now : UInt64) (localDelta : Int64) : PreHeader :=
  ⟨m.headerLen, m.bodyLen, m.msgType, m.reqId, now, localDelta.toUInt64⟩

/-- The bytes of the body. -/
def body (m : MessageTx) : Bytes := m.segments.flatten

/-- The header fits into the buffers of both ends, and the segments add up to the body. -/
structure WellFormed (m : MessageTx) : Prop where
  header_le : m.header.length ≤ maxHeaderLen
  body_length : m.body.length = m.bodyLen.toNat

instance (m : MessageTx) : Decidable m.WellFormed :=
  decidable_of_iff (m.header.length ≤ maxHeaderLen ∧ m.body.length = m.bodyLen.toNat)
    ⟨fun h => ⟨h.1, h.2⟩, fun h => ⟨h.1, h.2⟩⟩

theorem WellFormed.headerLen_toNat {m : MessageTx} (h : m.WellFormed) :
    m.headerLen.toNat = m.header.length := by
  have hle := h.header_le
  rw [maxHeaderLen] at hle
  rw [headerLen, UInt64.toNat_ofNat']
  omega

end MessageTx

/-- A `message_rx`: the type and the identifier it was created for, and what it has been
given since. -/
structure MessageRx where
  msgType : UInt64
  msgId : UInt64
  header : Bytes
  segments : List Bytes
  deriving DecidableEq, Inhabited

namespace MessageRx

/-- A message that has been given nothing yet. -/
def new (msgType msgId : UInt64) : MessageRx := ⟨msgType, msgId, [], []⟩

/-- The bytes of the body, as far as they have been received. -/
def body (r : MessageRx) : Bytes := r.segments.flatten

end MessageRx

/-- The virtual functions that a receiver calls, on its `message_handler` and on a
`message_rx`.  They return the text they throw, if they do. -/
structure MessageHandler where
  /-- `new_rx_message` returns a message, and not the null pointer. -/
  newRxMessage : (headerLen bodyLen msgType msgId : UInt64) → Bool
  headerReceived : MessageRx → Bytes → Except String Unit
  /-- The size of the buffer that `next_body_rx_buf` offers. -/
  nextBodyRxBuf : MessageRx → Except String Nat
  bodyBufReceived : MessageRx → (len : Nat) → Except String Unit

end Firehose.Network
