import Firehose.Foundation.Channel
import Firehose.Network.Framing

set_option autoImplicit false

/-!
# Input from the network

All connections of a component share a process.  A handler that leaves by an exception
ends it through the `exit(0)` of the server's `run`, and a call through a null pointer
ends it at once.  `close` is among what throws: the socket of a connection that has been
reset is no longer connected, and cannot be shut down.
-/

namespace Firehose.Network

open Firehose.Api Firehose.Foundation
open Function (update)

/-! ## The connection classes -/

/-- `RequestType` of `firehose.proto`, as far as a connection receives it. -/
def mReqPublish : UInt64 := 3
def mRspPublish : UInt64 := 4
def mReqAccept : UInt64 := 7
def mReqPrepare : UInt64 := 9
def mRspPrepare : UInt64 := 10
def mReqUpdateSubscription : UInt64 := 11

/-- A class whose `new_rx_message` creates a `msg_protobuf_rx` for the types listed, and
returns the null pointer for others.  `parses` is what `ParseFromArray` returns for the
message class of a type. -/
def protobufConnection (supported : List UInt64) (parses : UInt64 → Bytes → Bool) :
    MessageHandler where
  newRxMessage _ _ msgType _ := decide (msgType ∈ supported)
  headerReceived r header := if parses r.msgType header then .ok () else .error "parsing failed"
  nextBodyRxBuf _ := .error "Should not be called"
  bodyBufReceived _ _ := .error "Should not be called"

/-- `pump::PublisherConnection::new_rx_message` -/
def Pump.PublisherConnection.supported : List UInt64 := [mReqPublish]

/-- `pump::EngineConnection::new_rx_message` -/
def Pump.EngineConnection.supported : List UInt64 := [mRspPrepare]

/-- `engine::PumpConnection::new_rx_message` -/
def Engine.PumpConnection.supported : List UInt64 := [mReqPrepare, mReqAccept]

/-- `engine::NuzzleConnection::new_rx_message` -/
def Engine.NuzzleConnection.supported : List UInt64 := [mReqUpdateSubscription]

/-- `engine::EngineConnection::new_rx_message`, which has no case left. -/
def Engine.EngineConnection.supported : List UInt64 := []

/-- `nuzzle::ConsumerConnection::new_rx_message` -/
def Nuzzle.ConsumerConnection.supported : List UInt64 := [mRspPublish, mReqUpdateSubscription]

/-- `nuzzle::EngineConnection::new_rx_message` -/
def Nuzzle.EngineConnection.supported : List UInt64 := [mReqPublish]

/-- `publisher::PumpConnection::new_rx_message` -/
def Publisher.PumpConnection.supported : List UInt64 := [mRspPublish]

/-- `consumer::NuzzleConnection::new_rx_message` -/
def Consumer.NuzzleConnection.supported : List UInt64 := [mReqPublish]

inductive ConnectionClass
  | pumpPublisher
  | pumpEngine
  | enginePump
  | engineNuzzle
  | engineEngine
  | nuzzleConsumer
  | nuzzleEngine
  | publisherPump
  | consumerNuzzle
  deriving DecidableEq

/-- The message types a class has a `message_rx` for. -/
def ConnectionClass.supported : ConnectionClass → List UInt64
  | pumpPublisher => Pump.PublisherConnection.supported
  | pumpEngine => Pump.EngineConnection.supported
  | enginePump => Engine.PumpConnection.supported
  | engineNuzzle => Engine.NuzzleConnection.supported
  | engineEngine => Engine.EngineConnection.supported
  | nuzzleConsumer => Nuzzle.ConsumerConnection.supported
  | nuzzleEngine => Nuzzle.EngineConnection.supported
  | publisherPump => Publisher.PumpConnection.supported
  | consumerNuzzle => Consumer.NuzzleConnection.supported

/-! ## A process and its connections -/

inductive Status
  | running
  /-- `exit(0)` after an exception in the network thread -/
  | exited (text : String)
  /-- a call through a null pointer -/
  | crashed
  deriving DecidableEq

/-- What comes from the peer of a connection: its bytes, their end (FIN), and a reset of the
connection (RST, or the error by which TCP gives up a peer that no longer answers). -/
structure Peer where
  bytes : Bytes
  finishes : Bool
  resets : Bool

/-- A connection, its flag `is_closed`, and whether a reset has arrived. -/
structure Socket extends Inbound where
  isClosed : Bool
  reset : Bool

/-- The connection after a handler of its receiver, with the input that is left. -/
def Socket.received (s : Socket) (receiving : Receiving) (input : Bytes) : Socket :=
  ⟨⟨receiving, input⟩, s.isClosed, s.reset⟩

/-- The connections of a component, the component's own state, and whether the process is
still there. -/
structure Process (κ σ : Type) where
  connection : κ → Socket
  component : σ
  status : Status

inductive ProcessAction (κ : Type)
  /-- The pending read of a connection completes. -/
  | read (c : κ) (now : UInt64)
  /-- It cannot be filled any more, for the peer has finished. -/
  | endOfFile (c : κ)
  /-- A reset arrives. -/
  | reset (c : κ)
  /-- The pending read of a connection that has been reset fails. -/
  | fail (c : κ) (error : String) (part : Bytes)

/-- The connection a step is about. -/
def ProcessAction.connection {κ : Type} : ProcessAction κ → κ
  | read c _ => c
  | endOfFile c => c
  | reset c => c
  | fail c _ _ => c

/-- What a component does: the class of each connection, the parsers of its messages, and
`completed_receive`. -/
structure Component (κ σ : Type) where
  connectionClass : κ → ConnectionClass
  parses : UInt64 → Bytes → Bool
  completedReceive : κ → MessageRx → σ → σ

namespace Component

variable {κ σ : Type}

def handler (k : Component κ σ) (c : κ) : MessageHandler :=
  protobufConnection (k.connectionClass c).supported k.parses

/-- The state of the component after the calls of `completed_receive` that are new. -/
def receive (k : Component κ σ) (c : κ) (before after : Receiving) (component : σ) : σ :=
  (after.completed.drop before.completed.length).foldl (fun s m => k.completedReceive c m s)
    component

variable [DecidableEq κ]

/-- `message_connection::close`; `shutdown` throws where the socket is not connected. -/
def close (p : Process κ σ) (c : κ) : Process κ σ :=
  if (p.connection c).isClosed then p
  else { p with
    connection := update p.connection c { p.connection c with isClosed := true }
    status :=
      if (p.connection c).reset then .exited "shutdown: Transport endpoint is not connected"
      else p.status }

/-- The handler of a read has run on a connection, and `input` is left to be read. -/
def settle (k : Component κ σ) (p : Process κ σ) (c : κ) (input : Bytes) :
    Except Stop Receiving → Process κ σ
  | .ok receiving =>
      { p with
        connection := update p.connection c ((p.connection c).received receiving input)
        component := k.receive c (p.connection c).receiving receiving p.component }
  | .error (.closes reason) =>
      close { p with
        connection := update p.connection c
          ((p.connection c).received ((p.connection c).receiving.abortConnection reason)
            input) } c
  | .error .nullCall => { p with status := .crashed }
  | .error (.throws text) => { p with status := .exited text }

def next (k : Component κ σ) (peer : κ → Peer) (p : Process κ σ) :
    ProcessAction κ → Option (Process κ σ)
  | .read c now =>
      match p.status, (p.connection c).receiving.read with
      | .running, some read =>
          if read.size ≤ (p.connection c).input.length then
            some (k.settle p c ((p.connection c).input.drop read.size)
              ((p.connection c).receiving.handleRead (k.handler c) now none
                ((p.connection c).input.take read.size) read))
          else none
      | _, _ => none
  | .endOfFile c =>
      match p.status, (p.connection c).receiving.read with
      | .running, some read =>
          if (peer c).finishes = true ∧ (p.connection c).input.length < read.size then
            some (k.settle p c []
              ((p.connection c).receiving.handleRead (k.handler c) 0 (some "End of file")
                (p.connection c).input read))
          else none
      | _, _ => none
  | .reset c =>
      if p.status = .running ∧ (peer c).resets = true then
        some { p with
          connection := update p.connection c { p.connection c with reset := true } }
      else none
  | .fail c error part =>
      match p.status, (p.connection c).receiving.read with
      | .running, some read =>
          if (p.connection c).reset = true then
            some (k.settle p c (p.connection c).input
              ((p.connection c).receiving.handleRead (k.handler c) 0 (some error) part read))
          else none
      | _, _ => none

/-- Every connection has just been established. -/
def start (buffers : κ → Bytes × PreHeader) (peer : κ → Peer) (component : σ) :
    Process κ σ :=
  ⟨fun c => ⟨.start (buffers c).1 (buffers c).2 (peer c).bytes, false, false⟩, component,
    .running⟩

/-- A message that the class of a connection supports, with a header that parses. -/
structure Supports (k : Component κ σ) (c : κ) (m : MessageRx) : Prop where
  msgType : m.msgType ∈ (k.connectionClass c).supported
  parses : k.parses m.msgType m.header = true
  body : m.segments = []

/-- A step of the process that is confined to its connection: it hands at most one
supported message to `completed_receive` and touches the component in no other way. -/
structure Confined (k : Component κ σ) (p : Process κ σ) (a : ProcessAction κ)
    (p' : Process κ σ) : Prop where
  running : p'.status = .running
  others : ∀ d, d ≠ a.connection → p'.connection d = p.connection d
  component : (p'.component = p.component ∧
      (p'.connection a.connection).receiving.completed =
        (p.connection a.connection).receiving.completed) ∨
    ∃ m, k.Supports a.connection m ∧
      (p'.connection a.connection).receiving.completed =
        (p.connection a.connection).receiving.completed ++ [m] ∧
      p'.component = k.completedReceive a.connection m p.component

end Component

/-! ## Input that does no harm -/

/-- Bytes that a connection can be sent: whole frames without a body whose type is
supported and whose header parses, and at the end a frame that is not complete, or one
whose header is too long, behind which anything may follow. -/
inductive WellFramed (supported : List UInt64) (parses : UInt64 → Bytes → Bool) : Bytes → Prop
  | cutPreHeader {bytes : Bytes} (h : bytes.length < 48) : WellFramed supported parses bytes
  | headerTooLong {preHeader rest : Bytes} (hlen : preHeader.length = 48)
      (h : maxHeaderLen < (PreHeader.ofBytes preHeader).headerLen.toNat) :
      WellFramed supported parses (preHeader ++ rest)
  | cutHeader {preHeader rest : Bytes} (hlen : preHeader.length = 48)
      (h : rest.length < (PreHeader.ofBytes preHeader).headerLen.toNat) :
      WellFramed supported parses (preHeader ++ rest)
  | frame {preHeader header rest : Bytes} (hlen : preHeader.length = 48)
      (hheader : header.length = (PreHeader.ofBytes preHeader).headerLen.toNat)
      (htype : (PreHeader.ofBytes preHeader).msgType ∈ supported)
      (hparses : parses (PreHeader.ofBytes preHeader).msgType header = true)
      (hbody : (PreHeader.ofBytes preHeader).bodyLen = 0)
      (hrest : WellFramed supported parses rest) :
      WellFramed supported parses (preHeader ++ (header ++ rest))

section Handlers

variable {supported : List UInt64} {parses : UInt64 → Bytes → Bool}

/-- The receiver after the header of a message without a body. -/
def Receiving.takeHeader (s : Receiving) (header : Bytes) : Receiving :=
  readNewMessage { s with
    receiver := { s.receiver with
      headerBuf := header ++ s.receiver.headerBuf.drop header.length
      req := none
      bodyLeft := s.receiver.preHeader.bodyLen.toNat }
    synchronized := s.synchronized ++
      [((s.receiver.rxBegin - s.receiver.preHeader.sentAt).toInt64,
        s.receiver.preHeader.localDelta.toInt64)]
    obtained := s.obtained ++ [.new s.receiver.preHeader.msgType s.receiver.preHeader.msgId]
    completed := s.completed ++
      [⟨s.receiver.preHeader.msgType, s.receiver.preHeader.msgId, header, []⟩] }

/-- What a complete header leads to, by what is wrong with its frame. -/
theorem handleHeaderRead_protobuf {s : Receiving} {header : Bytes}
    (hlen : header.length = s.receiver.preHeader.headerLen.toNat) :
    s.handleHeaderRead (protobufConnection supported parses) none header =
      if s.receiver.preHeader.msgType ∈ supported then
        if parses s.receiver.preHeader.msgType header = true then
          if s.receiver.preHeader.bodyLen = 0 then .ok (s.takeHeader header)
          else .error (.throws "Should not be called")
        else .error (.throws "parsing failed")
      else .error .nullCall := by
  have htake : (header ++ s.receiver.headerBuf.drop header.length).take
      s.receiver.preHeader.headerLen.toNat = header := List.take_left' hlen
  by_cases htype : s.receiver.preHeader.msgType ∈ supported
  · rw [← hlen] at htake
    by_cases hparses : parses s.receiver.preHeader.msgType header = true
    · simp only [Receiving.handleHeaderRead, protobufConnection, ← hlen, ne_eq,
        not_true_eq_false, if_false, htype, decide_true, if_true, MessageRx.new, htake, hparses]
      by_cases hbody : s.receiver.preHeader.bodyLen = 0
      · rw [if_pos hbody, Receiving.nextBodySeg_done rfl (by rw [hbody]; rfl)]
        rfl
      · have hpos : 0 < s.receiver.preHeader.bodyLen.toNat := by
          rw [Nat.pos_iff_ne_zero]
          exact fun hzero => hbody (UInt64.toNat_inj.mp hzero)
        simp only [Receiving.nextBodySeg, hpos, if_true, hbody, if_false]
    · simp only [Receiving.handleHeaderRead, protobufConnection, ← hlen, ne_eq,
        not_true_eq_false, if_false, htype, decide_true, if_true, MessageRx.new, htake, hparses,
        Bool.false_eq_true]
  · simp only [Receiving.handleHeaderRead, protobufConnection, hlen, ne_eq, not_true_eq_false,
      if_false, htype, decide_false, Bool.false_eq_true]

/-- What is left to be read on a connection does no harm, at the point it has reached. -/
def Harmless (supported : List UInt64) (parses : UInt64 → Bytes → Bool) (s : Inbound) : Prop :=
  match s.receiving.read with
  | none => True
  | some .preHeader => WellFramed supported parses s.input
  | some (.header len) =>
      len = s.receiving.receiver.preHeader.headerLen.toNat ∧
        (s.input.length < len ∨ ∃ header rest, s.input = header ++ rest ∧ header.length = len ∧
          s.receiving.receiver.preHeader.msgType ∈ supported ∧
          parses s.receiving.receiver.preHeader.msgType header = true ∧
          s.receiving.receiver.preHeader.bodyLen = 0 ∧ WellFramed supported parses rest)
  | some (.bodySeg _) => False

/-- What the handler of a read does when there is nothing wrong: it closes the connection,
or it goes on, perhaps with a message for `completed_receive`. -/
def Proceeds (supported : List UInt64) (parses : UInt64 → Bytes → Bool) (s : Receiving)
    (input : Bytes) (out : Except Stop Receiving) : Prop :=
  (∃ reason, out = .error (.closes reason)) ∨
    ∃ s', out = .ok s' ∧ Harmless supported parses ⟨s', input⟩ ∧
      (s'.completed = s.completed ∨
        ∃ m : MessageRx, m.msgType ∈ supported ∧ parses m.msgType m.header = true ∧
          m.segments = [] ∧ s'.completed = s.completed ++ [m])

/-- A whole pre-header. -/
theorem handlePreRead_eq {s : Receiving} {now : UInt64} {bytes : Bytes}
    (hlen : bytes.length = 48) :
    s.handlePreRead now none bytes =
      if maxHeaderLen < (PreHeader.ofBytes bytes).headerLen.toNat then
        .error (.closes "Specified header length larger than supported maximum")
      else
        .ok { s with
          receiver := { s.receiver with preHeader := PreHeader.ofBytes bytes, rxBegin := now }
          stats := s.stats.messageReceived (PreHeader.ofBytes bytes).frameSize
          read := some (.header (PreHeader.ofBytes bytes).headerLen.toNat) } := by
  simp only [Receiving.handlePreRead, hlen, ne_eq, not_true_eq_false, if_false]

/-- A pre-header with harmless bytes behind it. -/
theorem handlePreRead_proceeds {s : Receiving} {now : UInt64} {input : Bytes}
    (h : WellFramed supported parses input) (hlen : 48 ≤ input.length) :
    Proceeds supported parses s (input.drop 48) (s.handlePreRead now none (input.take 48)) := by
  have htake : (input.take 48).length = 48 := List.length_take_of_le hlen
  rw [handlePreRead_eq htake]
  split
  · exact Or.inl ⟨_, rfl⟩
  · rename_i hfits
    refine Or.inr ⟨_, rfl, ⟨rfl, ?_⟩, Or.inl rfl⟩
    cases h with
    | cutPreHeader h => omega
    | headerTooLong hpre h =>
        rw [List.take_left' hpre] at hfits
        exact absurd h hfits
    | cutHeader hpre h =>
        rw [List.take_left' hpre, List.drop_left' hpre]
        exact Or.inl h
    | frame hpre hheader htype hparses hbody hrest =>
        rw [List.take_left' hpre, List.drop_left' hpre]
        exact Or.inr ⟨_, _, rfl, hheader, htype, hparses, hbody, hrest⟩

/-- A read of a connection with harmless input, whether it is filled or fails. -/
theorem handleRead_proceeds {s : Inbound} {read : Read}
    (h : Harmless supported parses s) (hread : s.receiving.read = some read)
    (hsize : read.size ≤ s.input.length) (now : UInt64) :
    Proceeds supported parses s.receiving (s.input.drop read.size)
      (s.receiving.handleRead (protobufConnection supported parses) now none
        (s.input.take read.size) read) := by
  cases read with
  | preHeader =>
      simp only [Harmless, hread] at h
      exact handlePreRead_proceeds h hsize
  | header len =>
      simp only [Harmless, hread] at h
      obtain ⟨hlen, hshort | ⟨header, rest, hinput, hheader, htype, hparses, hbody, hrest⟩⟩ := h
      · simp only [Read.size] at hsize
        omega
      · have hout : s.receiving.handleRead (protobufConnection supported parses) now none
            (s.input.take (Read.header len).size) (.header len) =
              .ok (s.receiving.takeHeader header) := by
          rw [hinput, Read.size, List.take_left' hheader, Receiving.handleRead,
            handleHeaderRead_protobuf (hheader.trans hlen), if_pos htype, if_pos hparses,
            if_pos hbody]
        refine Or.inr ⟨_, hout, ?_, Or.inr ⟨_, htype, hparses, rfl, rfl⟩⟩
        rw [hinput, Read.size, List.drop_left' hheader]
        exact hrest
  | bodySeg len => simp [Harmless, hread] at h

theorem handleRead_error {h : MessageHandler} {s : Receiving} {now : UInt64} {error : String}
    {part : Bytes} {read : Read} :
    s.handleRead h now (some error) part read = .error (.closes error) := by
  cases read <;> rfl

end Handlers

namespace Component

variable {κ σ : Type} [DecidableEq κ] {k : Component κ σ} {peer : κ → Peer}
  {p p' : Process κ σ}

/-- Closing a connection that is still there marks it, and does nothing else. -/
theorem close_of_connected {c : κ} (hconnected : (p.connection c).reset = false) :
    close p c =
      { p with connection := update p.connection c { p.connection c with isClosed := true } } := by
  cases hclosed : (p.connection c).isClosed with
  | true =>
      have hsame : { p.connection c with isClosed := true } = p.connection c := by
        rw [← hclosed]
      rw [hsame, Function.update_eq_self, close, hclosed, if_pos rfl]
  | false =>
      simp only [close, hclosed, hconnected, Bool.false_eq_true, if_false]

/-- The process runs, no connection has been reset, and the input of every connection does
no harm. -/
structure Safe (k : Component κ σ) (p : Process κ σ) : Prop where
  running : p.status = .running
  connected : ∀ c, (p.connection c).reset = false
  harmless : ∀ c, Harmless (k.connectionClass c).supported k.parses (p.connection c).toInbound

/-- One connection goes on, with input that does no harm. -/
theorem Safe.harmless_update (h : k.Safe p) {c : κ} {s : Socket}
    (hs : Harmless (k.connectionClass c).supported k.parses s.toInbound) (d : κ) :
    Harmless (k.connectionClass d).supported k.parses
      (update p.connection c s d).toInbound := by
  by_cases hd : d = c
  · subst hd
    rwa [Function.update_self]
  · rw [Function.update_of_ne hd]
    exact h.harmless d

/-- One connection goes on, and is still there. -/
theorem Safe.connected_update (h : k.Safe p) {c : κ} {s : Socket} (hs : s.reset = false)
    (d : κ) : (update p.connection c s d).reset = false := by
  by_cases hd : d = c
  · subst hd
    rwa [Function.update_self]
  · rw [Function.update_of_ne hd]
    exact h.connected d

/-- A handler that closes the connection leaves everything else as it was. -/
theorem Safe.settle_closes (h : k.Safe p) (c : κ) (input : Bytes) (reason : String) :
    k.settle p c input (.error (.closes reason)) =
      { p with
        connection := update p.connection c
          { (p.connection c).received ((p.connection c).receiving.abortConnection reason)
              input with
            isClosed := true } } := by
  have hconnected : (update p.connection c
      ((p.connection c).received ((p.connection c).receiving.abortConnection reason) input)
        c).reset = false := by
    rw [Function.update_self]
    exact h.connected c
  rw [settle, close_of_connected hconnected]
  simp only [Function.update_self, Function.update_idem]

/-- Settling a handler that proceeds. -/
theorem Safe.settle (h : k.Safe p) {c : κ} {input : Bytes} {out : Except Stop Receiving}
    (hout : Proceeds (k.connectionClass c).supported k.parses (p.connection c).receiving input
      out) {a : ProcessAction κ} (ha : a.connection = c) :
    k.Safe (k.settle p c input out) ∧ k.Confined p a (k.settle p c input out) := by
  subst ha
  have hstill := h.connected a.connection
  rcases hout with ⟨reason, rfl⟩ | ⟨s', rfl, hharmless, hcompleted⟩
  · rw [h.settle_closes]
    refine ⟨⟨h.running, h.connected_update hstill, h.harmless_update trivial⟩,
      ⟨h.running, fun d hd => Function.update_of_ne hd _ _, Or.inl ⟨rfl, ?_⟩⟩⟩
    simp only [Function.update_self]
    rfl
  · refine ⟨⟨h.running, h.connected_update hstill, h.harmless_update hharmless⟩,
      ⟨h.running, fun d hd => Function.update_of_ne hd _ _, ?_⟩⟩
    simp only [Component.settle, Function.update_self, Socket.received, receive]
    rcases hcompleted with hsame | ⟨m, htype, hparses, hbody, hnew⟩
    · exact Or.inl ⟨by rw [hsame, List.drop_length, List.foldl_nil], hsame⟩
    · exact Or.inr ⟨m, ⟨htype, hparses, hbody⟩, hnew, by
        rw [hnew, List.drop_left, List.foldl_cons, List.foldl_nil]⟩

/-- Where no peer resets its connection, a step is confined. -/
theorem Safe.next (h : k.Safe p) (hpeer : ∀ c, (peer c).resets = false) {a : ProcessAction κ}
    (hstep : k.next peer p a = some p') : k.Safe p' ∧ k.Confined p a p' := by
  cases a with
  | read c now =>
      simp only [Component.next, h.running] at hstep
      cases hread : (p.connection c).receiving.read with
      | none => simp [hread] at hstep
      | some read =>
          simp only [hread] at hstep
          split at hstep
          · rename_i hsize
            simp only [Option.some.injEq] at hstep
            subst hstep
            exact h.settle (handleRead_proceeds (h.harmless c) hread hsize now) rfl
          · simp at hstep
  | endOfFile c =>
      simp only [Component.next, h.running] at hstep
      cases hread : (p.connection c).receiving.read with
      | none => simp [hread] at hstep
      | some read =>
          simp only [hread] at hstep
          split at hstep
          · simp only [Option.some.injEq] at hstep
            subst hstep
            exact h.settle (Or.inl ⟨_, handleRead_error⟩) rfl
          · simp at hstep
  | reset c => simp [Component.next, hpeer c] at hstep
  | fail c error part =>
      simp only [Component.next, h.running, h.connected c] at hstep
      cases hread : (p.connection c).receiving.read with
      | none => simp [hread] at hstep
      | some read => simp [hread] at hstep

/-! ## Input that does harm -/

/-- No run from here ends the process. -/
def StaysUp (k : Component κ σ) (peer : κ → Peer) (p : Process κ σ) : Prop :=
  ∀ trace p', Run (Steps (k.next peer)) p trace p' → p'.status = .running

theorem StaysUp.next (h : k.StaysUp peer p) {a : ProcessAction κ}
    (hstep : k.next peer p a = some p') : k.StaysUp peer p' :=
  fun _ _ hrun => h _ _ ((Run.single hstep).trans hrun)

theorem StaysUp.running (h : k.StaysUp peer p) : p.status = .running := h [] p .refl

/-- A read that can be filled, in a process that stays up: its handler goes on or closes the
connection. -/
theorem StaysUp.handleRead (h : k.StaysUp peer p) {c : κ} {read : Read} {bytes rest : Bytes}
    (hread : (p.connection c).receiving.read = some read)
    (hinput : (p.connection c).input = bytes ++ rest) (hsize : bytes.length = read.size)
    {out : Except Stop Receiving}
    (hout : (p.connection c).receiving.handleRead (k.handler c) 0 none bytes read = out) :
    (∃ reason, out = .error (.closes reason)) ∨
      ∃ s', out = .ok s' ∧
        ∃ p', k.StaysUp peer p' ∧ (p'.connection c).toInbound = ⟨s', rest⟩ := by
  have hle : bytes.length ≤ (bytes ++ rest).length := by
    rw [List.length_append]
    exact Nat.le_add_right _ _
  have hstep : k.next peer p (.read c 0) = some (k.settle p c rest out) := by
    simp only [Component.next, h.running, hread, hinput, ← hsize, if_pos hle, List.take_left,
      List.drop_left, hout]
  have hup := h.next hstep
  have hafter := hup.running
  cases out with
  | ok s' =>
      refine Or.inr ⟨s', rfl, _, hup, ?_⟩
      simp only [Component.settle, Function.update_self, Socket.received]
  | error stop =>
      cases stop with
      | closes reason => exact Or.inl ⟨reason, rfl⟩
      | nullCall => simp [Component.settle] at hafter
      | throws text => simp [Component.settle] at hafter

/-- A whole pre-header with a supported header length. -/
theorem StaysUp.preHeader (h : k.StaysUp peer p) {c : κ} {preHeader rest : Bytes}
    (hread : (p.connection c).receiving.read = some .preHeader)
    (hinput : (p.connection c).input = preHeader ++ rest) (hlen : preHeader.length = 48)
    (hmax : ¬ maxHeaderLen < (PreHeader.ofBytes preHeader).headerLen.toNat) :
    ∃ p', k.StaysUp peer p' ∧
      (p'.connection c).receiving.read =
        some (.header (PreHeader.ofBytes preHeader).headerLen.toNat) ∧
      (p'.connection c).receiving.receiver.preHeader = PreHeader.ofBytes preHeader ∧
      (p'.connection c).input = rest := by
  have hout : (p.connection c).receiving.handlePreRead 0 none preHeader = _ :=
    handlePreRead_eq hlen
  rw [if_neg hmax] at hout
  rcases h.handleRead hread hinput hlen hout with ⟨reason, hclosed⟩ | ⟨s', hs', p', hup, hc⟩
  · cases hclosed
  · cases hs'
    exact ⟨p', hup, by rw [hc], by rw [hc], by rw [hc]⟩

/-- A whole header: what its handler does tells what the frame is. -/
theorem StaysUp.header (h : k.StaysUp peer p) {c : κ} {preHeader : PreHeader}
    {header rest : Bytes}
    (hread : (p.connection c).receiving.read = some (.header preHeader.headerLen.toNat))
    (hpreHeader : (p.connection c).receiving.receiver.preHeader = preHeader)
    (hinput : (p.connection c).input = header ++ rest)
    (hlen : header.length = preHeader.headerLen.toNat) :
    (preHeader.msgType ∈ (k.connectionClass c).supported ∧
        k.parses preHeader.msgType header = true ∧ preHeader.bodyLen = 0) ∧
      ∃ p', k.StaysUp peer p' ∧ (p'.connection c).receiving.read = some .preHeader ∧
        (p'.connection c).input = rest := by
  subst hpreHeader
  have hcases := h.handleRead hread hinput hlen (handleHeaderRead_protobuf hlen)
  by_cases htype : (p.connection c).receiving.receiver.preHeader.msgType ∈
      (k.connectionClass c).supported
  · by_cases hparses : k.parses (p.connection c).receiving.receiver.preHeader.msgType header =
        true
    · by_cases hbody : (p.connection c).receiving.receiver.preHeader.bodyLen = 0
      · rw [if_pos htype, if_pos hparses, if_pos hbody] at hcases
        rcases hcases with ⟨reason, hclosed⟩ | ⟨s', hs', p', hup, hc⟩
        · cases hclosed
        · cases hs'
          exact ⟨⟨htype, hparses, hbody⟩, p', hup, by rw [hc]; rfl, by rw [hc]⟩
      · simp [if_pos htype, if_pos hparses, if_neg hbody] at hcases
    · simp [if_pos htype, if_neg hparses] at hcases
  · simp [if_neg htype] at hcases

/-- Where the process stays up, every connection that waits for a pre-header has harmless
input. -/
theorem StaysUp.wellFramed (h : k.StaysUp peer p) {c : κ}
    (hread : (p.connection c).receiving.read = some .preHeader) :
    WellFramed (k.connectionClass c).supported k.parses (p.connection c).input := by
  -- by induction on the length of the input: what follows a whole frame is shorter
  induction hn : (p.connection c).input.length using Nat.strong_induction_on generalizing p with
  | _ n ih =>
    rcases Nat.lt_or_ge (p.connection c).input.length 48 with hshort | hlong
    · exact .cutPreHeader hshort
    · obtain ⟨preHeader, rest, hinput, hlen⟩ : ∃ preHeader rest,
          (p.connection c).input = preHeader ++ rest ∧ preHeader.length = 48 :=
        ⟨_, _, (List.take_append_drop 48 _).symm, List.length_take_of_le hlong⟩
      rw [hinput]
      by_cases hmax : maxHeaderLen < (PreHeader.ofBytes preHeader).headerLen.toNat
      · exact .headerTooLong hlen hmax
      · obtain ⟨p₁, hup₁, hread₁, hpreHeader₁, hinput₁⟩ := h.preHeader hread hinput hlen hmax
        rcases Nat.lt_or_ge rest.length (PreHeader.ofBytes preHeader).headerLen.toNat with
          hcut | hwhole
        · exact .cutHeader hlen hcut
        · obtain ⟨header, rest', rfl, hheader⟩ : ∃ header rest', rest = header ++ rest' ∧
              header.length = (PreHeader.ofBytes preHeader).headerLen.toNat :=
            ⟨_, _, (List.take_append_drop _ _).symm, List.length_take_of_le hwhole⟩
          obtain ⟨⟨htype, hparses, hbody⟩, p₂, hup₂, hread₂, hinput₂⟩ :=
            hup₁.header hread₁ hpreHeader₁ hinput₁ hheader
          have hless : (p₂.connection c).input.length < n := by
            rw [hinput₂, ← hn, hinput, List.length_append, List.length_append]
            omega
          have hrest := ih _ hless hup₂ hread₂ rfl
          rw [hinput₂] at hrest
          exact .frame hlen hheader htype hparses hbody hrest

/-- Where the process stays up, no peer resets a connection that waits for something: the
failure of its read would close it, and the exception of `close` end the process. -/
theorem StaysUp.not_resets (h : k.StaysUp peer p) {c : κ}
    (hread : (p.connection c).receiving.read = some .preHeader)
    (hopen : (p.connection c).isClosed = false) : (peer c).resets = false := by
  rw [← Bool.not_eq_true]
  intro hresets
  obtain ⟨p₁, hreset, hc⟩ : ∃ p₁, k.next peer p (.reset c) = some p₁ ∧
      p₁.connection c = { p.connection c with reset := true } :=
    ⟨_, if_pos ⟨h.running, hresets⟩, Function.update_self _ _ _⟩
  have hup := h.next hreset
  have hfail : k.next peer p₁ (.fail c "Connection reset by peer" []) =
      some (k.settle p₁ c (p₁.connection c).input
        (.error (.closes "Connection reset by peer"))) := by
    simp only [Component.next, hup.running, hc, hread, if_true, handleRead_error]
  have hafter := (hup.next hfail).running
  simp [Component.settle, close, Socket.received, hc, hopen] at hafter

/-- Every input of every connection is contained exactly when the input of each connection
is well framed and no connection is reset. -/
theorem contained_iff (k : Component κ σ) (buffers : κ → Bytes × PreHeader)
    (peer : κ → Peer) (component : σ) :
    (∀ trace p, Run (Steps (k.next peer)) (start buffers peer component) trace p →
      p.status = .running ∧
        ∀ x ∈ trace, ∀ p', k.next peer x.1 x.2 = some p' → k.Confined x.1 x.2 p') ↔
      ∀ c, WellFramed (k.connectionClass c).supported k.parses (peer c).bytes ∧
        (peer c).resets = false := by
  constructor
  · intro hall c
    have hup : k.StaysUp peer (start buffers peer component) :=
      fun trace p hrun => (hall trace p hrun).1
    exact ⟨hup.wellFramed (c := c) rfl, hup.not_resets rfl rfl⟩
  · intro hpeer trace p hrun
    have hresets : ∀ c, (peer c).resets = false := fun c => (hpeer c).2
    have hsafe : Throughout k.Safe trace p :=
      hrun.keeps_throughout ⟨rfl, fun _ => rfl, fun c => (hpeer c).1⟩
        fun _ _ _ hinv hstep => (hinv.next hresets hstep).1
    exact ⟨hsafe.2.running, fun x hx p' hstep => ((hsafe.1 x hx).next hresets hstep).2⟩

end Component

/-- A pump connection of an engine and 48 bytes from its peer: the pre-header of a
heartbeat, which no class supports. -/
def oneHeartbeat : Component Unit Unit := ⟨fun _ => .enginePump, fun _ _ => true, fun _ _ s => s⟩

def heartbeatPeer : Peer := ⟨PreHeader.bytes ⟨0, 0, 1, 0, 0, 0⟩, false, false⟩

theorem oneHeartbeat_not_contained :
    ¬ ∀ trace p, Run (Steps (oneHeartbeat.next fun _ => heartbeatPeer))
        (Component.start (fun _ => ([], default)) (fun _ => heartbeatPeer) ()) trace p →
      p.status = .running ∧
        ∀ x ∈ trace, ∀ p', oneHeartbeat.next (fun _ => heartbeatPeer) x.1 x.2 = some p' →
          oneHeartbeat.Confined x.1 x.2 p' := by
  intro hclaim
  obtain ⟨trace, p, hrun, hcrashed⟩ :=
    exists_run_of_execute [ProcessAction.read () 0, .read () 0]
      (oneHeartbeat.next fun _ => heartbeatPeer)
      (Component.start (fun _ => ([], default)) (fun _ => heartbeatPeer) () : Process Unit Unit)
      (fun _ p => p.status = .crashed) (by decide +kernel)
  have hrunning := (hclaim trace p hrun).1
  rw [hcrashed] at hrunning
  cases hrunning

end Firehose.Network
