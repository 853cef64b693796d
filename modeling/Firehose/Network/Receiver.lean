import Firehose.Foundation.Run
import Firehose.Network.Message

set_option autoImplicit false

/-!
# The receiver of a connection (`message_receiver`)

Every handler runs on the thread of the `io_service` and either starts the next read,
closes the connection, or leaves the handler by an exception or a call through a null
pointer.
-/

namespace Firehose.Network

open Firehose.Api Firehose.Foundation

/-- An `async_read`, by its completion handler and the size of its buffer. -/
inductive Read
  /-- into `pre_header`, then `handle_pre_read` -/
  | preHeader
  /-- into `header_buf`, then `handle_header_read` -/
  | header (len : Nat)
  /-- into a buffer of the message, then `handle_body_seg_read` -/
  | bodySeg (len : Nat)
  deriving DecidableEq

namespace Read

def size : Read → Nat
  | preHeader => 48
  | header len => len
  | bodySeg len => len

end Read

/-- The members of `message_receiver`.  `req_` is not initialised by the constructor; no
handler reads it before `handle_header_read` has set it. -/
structure MessageReceiver where
  headerBuf : Bytes
  preHeader : PreHeader
  req : Option MessageRx
  bodyLeft : Nat
  rxBegin : UInt64
  deriving DecidableEq

/-- A receiver with what it has called on its connection and on its handler. -/
structure Receiving where
  receiver : MessageReceiver
  /-- The read that has been started and not completed. -/
  read : Option Read
  /-- `start` has been called. -/
  started : Bool
  stats : ConnectionStats
  /-- The calls of `synchronize`. -/
  synchronized : List (Int64 × Int64)
  /-- The messages that `new_rx_message` has returned. -/
  obtained : List MessageRx
  /-- The calls of `completed_receive`. -/
  completed : List MessageRx
  /-- The calls of `aborted_receive`. -/
  aborted : List MessageRx
  /-- The calls of `close`, with their reasons. -/
  closes : List String
  deriving DecidableEq

/-- Why a handler starts no further read. -/
inductive Stop
  /-- `abort_connection` -/
  | closes (reason : String)
  /-- A method is called through a null `message_rx`. -/
  | nullCall
  /-- An exception leaves the handler. -/
  | throws (text : String)
  deriving DecidableEq

namespace Receiving

def new (headerBuf : Bytes) (preHeader : PreHeader) : Receiving :=
  ⟨⟨headerBuf, preHeader, none, 0, 0⟩, none, false, .zero, [], [], [], [], []⟩

/-- `message_receiver::read_new_message` -/
def readNewMessage (s : Receiving) : Receiving := { s with read := some .preHeader }

/-- `message_receiver::next_body_seg` -/
def nextBodySeg (h : MessageHandler) (s : Receiving) : Except Stop Receiving :=
  match s.receiver.req with
  | none => .error .nullCall
  | some m =>
      if 0 < s.receiver.bodyLeft then
        match h.nextBodyRxBuf m with
        | .error text => .error (.throws text)
        | .ok size => .ok { s with read := some (.bodySeg (min size s.receiver.bodyLeft)) }
      else
        .ok (readNewMessage { s with
          receiver := { s.receiver with req := none }
          completed := s.completed ++ [m] })

/-- `message_receiver::handle_pre_read`, after `bytes` have been read into `pre_header`. -/
def handlePreRead (s : Receiving) (now : UInt64) (error : Option String) (bytes : Bytes) :
    Except Stop Receiving :=
  match error with
  | some reason => .error (.closes reason)
  | none =>
      if bytes.length ≠ 48 then
        .error (.closes "Invalid number of bytes read for header lengths")
      else if maxHeaderLen < (PreHeader.ofBytes bytes).headerLen.toNat then
        .error (.closes "Specified header length larger than supported maximum")
      else
        .ok { s with
          receiver := { s.receiver with preHeader := PreHeader.ofBytes bytes, rxBegin := now }
          stats := s.stats.messageReceived (PreHeader.ofBytes bytes).frameSize
          read := some (.header (PreHeader.ofBytes bytes).headerLen.toNat) }

/-- `message_receiver::handle_header_read`, after `bytes` have been read into
`header_buf`. -/
def handleHeaderRead (h : MessageHandler) (s : Receiving) (error : Option String)
    (bytes : Bytes) : Except Stop Receiving :=
  match error with
  | some reason => .error (.closes reason)
  | none =>
      let p := s.receiver.preHeader
      let headerBuf := bytes ++ s.receiver.headerBuf.drop bytes.length
      if bytes.length ≠ p.headerLen.toNat then .error (.closes "Header incomplete")
      else if h.newRxMessage p.headerLen p.bodyLen p.msgType p.msgId then
        let m := MessageRx.new p.msgType p.msgId
        match h.headerReceived m (headerBuf.take p.headerLen.toNat) with
        | .error text => .error (.throws text)
        | .ok () =>
            nextBodySeg h { s with
              receiver := { s.receiver with
                headerBuf := headerBuf
                req := some { m with header := headerBuf.take p.headerLen.toNat }
                bodyLeft := p.bodyLen.toNat }
              synchronized := s.synchronized ++
                [((s.receiver.rxBegin - p.sentAt).toInt64, p.localDelta.toInt64)]
              obtained := s.obtained ++ [m] }
      else .error .nullCall

/-- `message_receiver::handle_body_seg_read`, after `bytes` have been read into the buffer
of the message. -/
def handleBodySegRead (h : MessageHandler) (s : Receiving) (error : Option String)
    (bytes : Bytes) : Except Stop Receiving :=
  match error with
  | some reason => .error (.closes reason)
  | none =>
      match s.receiver.req with
      | none => .error .nullCall
      | some m =>
          let m' := { m with segments := m.segments ++ [bytes] }
          match h.bodyBufReceived m' bytes.length with
          | .error text => .error (.throws text)
          | .ok () =>
              nextBodySeg h { s with
                receiver := { s.receiver with
                  req := some m'
                  bodyLeft := s.receiver.bodyLeft - bytes.length } }

/-- The completion handler of a read. -/
def handleRead (h : MessageHandler) (s : Receiving) (now : UInt64) (error : Option String)
    (bytes : Bytes) : Read → Except Stop Receiving
  | .preHeader => handlePreRead s now error bytes
  | .header _ => handleHeaderRead h s error bytes
  | .bodySeg _ => handleBodySegRead h s error bytes

/-- The connection after a call of `close` from the receiver. -/
def abortConnection (s : Receiving) (reason : String) : Receiving :=
  { s with read := none, closes := s.closes ++ [reason] }

/-! ## The body -/

/-- Taking up the body with nothing left of it: the message is complete. -/
theorem nextBodySeg_done {h : MessageHandler} {s : Receiving} {m : MessageRx}
    (hreq : s.receiver.req = some m) (hleft : s.receiver.bodyLeft = 0) :
    nextBodySeg h s = .ok (readNewMessage { s with
      receiver := { s.receiver with req := none }
      completed := s.completed ++ [m] }) := by
  simp only [nextBodySeg, hreq, hleft, Nat.lt_irrefl, if_false]

/-- Taking up the body with some of it left: a read into the buffer that is offered. -/
theorem nextBodySeg_more {h : MessageHandler} {s : Receiving} {m : MessageRx} {size : Nat}
    (hreq : s.receiver.req = some m) (hleft : 0 < s.receiver.bodyLeft)
    (hbuf : h.nextBodyRxBuf m = .ok size) :
    nextBodySeg h s =
      .ok { s with read := some (.bodySeg (min size s.receiver.bodyLeft)) } := by
  simp only [nextBodySeg, hreq, hleft, if_true, hbuf]

/-- What taking up the body can lead to, other than a stop. -/
theorem nextBodySeg_cases {h : MessageHandler} {s s' : Receiving}
    (hstep : nextBodySeg h s = .ok s') :
    ∃ m, s.receiver.req = some m ∧
      ((s.receiver.bodyLeft = 0 ∧ s' = readNewMessage { s with
          receiver := { s.receiver with req := none }
          completed := s.completed ++ [m] }) ∨
        ∃ len, s' = { s with read := some (.bodySeg len) }) := by
  rw [nextBodySeg] at hstep
  cases hreq : s.receiver.req with
  | none => simp [hreq] at hstep
  | some m =>
      refine ⟨m, rfl, ?_⟩
      simp only [hreq] at hstep
      split at hstep
      · rename_i hleft
        cases hbuf : h.nextBodyRxBuf m with
        | error text => simp [hbuf] at hstep
        | ok size =>
            simp only [hbuf, Except.ok.injEq] at hstep
            exact Or.inr ⟨_, hstep.symm⟩
      · rename_i hleft
        simp only [Except.ok.injEq] at hstep
        exact Or.inl ⟨by omega, hstep.symm⟩

end Receiving

end Firehose.Network
