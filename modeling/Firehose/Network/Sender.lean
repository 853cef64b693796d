import Firehose.Foundation.Run
import Firehose.Network.Message

set_option autoImplicit false

/-!
# The sender of a connection (`message_sender`)

`send_message` may be called by any thread.  It pushes the message on `tx_queue_` and posts
a `try_send` to the `io_service`; everything else runs on the thread of the `io_service`.
Pushes may fall between any two steps of that thread, also between the steps of one
handler, so a handler that takes the next message from the queue is several steps here.
-/

namespace Firehose.Network

open Firehose.Api Firehose.Foundation

/-! ## The functions of `message_sender` -/

/-- An `async_write`, by its completion handler and its buffer. -/
inductive Write
  /-- `asio::buffer(pre_header)`, then `handle_prehdr_sent` -/
  | prehdr
  /-- `asio::buffer(header_buf, len)`, then `handle_hdr_sent` -/
  | hdr (len : Nat)
  /-- a buffer of the message, then `handle_body_seg_sent` -/
  | bodySeg (buf : Bytes)
  deriving DecidableEq

/-- The members of `message_sender`, and what `next_tx_body_buf` of `*req_` has yet to
return. -/
structure MessageSender where
  headerBuf : Bytes
  preHeader : PreHeader
  req : Option MessageTx
  segments : List Bytes
  bodyLeft : Nat
  bodySegSent : Nat
  txQueue : List MessageTx
  deriving DecidableEq

/-- How a handler goes on. -/
inductive SendOutcome
  /-- It starts a write. -/
  | writes (w : Write)
  /-- The message is out: `tx_complete` and `completed_transmit`. -/
  | completes
  /-- `abort_connection` -/
  | aborts (reason : String)

namespace MessageSender

/-- The members after construction; only `req_` is initialised. -/
def new (headerBuf : Bytes) (preHeader : PreHeader) : MessageSender :=
  ⟨headerBuf, preHeader, none, [], 0, 0, []⟩

/-- What a write sends: the contents of its buffer, which the sender still owns. -/
def memory (s : MessageSender) : Write → Bytes
  | .prehdr => s.preHeader.bytes
  | .hdr len => s.headerBuf.take (min len maxHeaderLen)
  | .bodySeg buf => buf

/-- `message_sender::start_send`, up to its write; what it tells the statistics is done by
the caller. -/
def startSend (s : MessageSender) (m : MessageTx) (now : UInt64) (localDelta : Int64) :
    MessageSender :=
  { s with
    preHeader := m.preHeader now localDelta
    headerBuf := m.header ++ s.headerBuf.drop m.header.length
    req := some m
    segments := m.segments }

/-- `message_sender::next_body_seg`.  There is no result when `next_tx_body_buf` throws or
the assertion fails. -/
def nextBodySeg (s : MessageSender) : Option (MessageSender × SendOutcome) :=
  if 0 < s.bodyLeft then
    match s.segments with
    | [] => none
    | buf :: rest =>
        if buf.length ≤ s.bodyLeft then
          some ({ s with segments := rest, bodySegSent := buf.length }, .writes (.bodySeg buf))
        else none
  else some (s, .completes)

/-- `message_sender::handle_prehdr_sent` -/
def handlePrehdrSent (s : MessageSender) (error : Option String) (bytesTransferred : Nat) :
    Option (MessageSender × SendOutcome) :=
  match error with
  | some reason => some (s, .aborts reason)
  | none =>
      if bytesTransferred ≠ 48 then
        some (s, .aborts "Invalid number of bytes sent for header lengths")
      else
        match s.req with
        | none => none
        | some m => some (s, .writes (.hdr m.headerLen.toNat))

/-- `message_sender::handle_hdr_sent` -/
def handleHdrSent (s : MessageSender) (error : Option String) (bytesTransferred : Nat) :
    Option (MessageSender × SendOutcome) :=
  match error with
  | some reason => some (s, .aborts reason)
  | none =>
      match s.req with
      | none => none
      | some m =>
          if bytesTransferred ≠ m.headerLen.toNat then
            some (s, .aborts "Invalid number of bytes sent for header")
          else nextBodySeg { s with bodyLeft := m.bodyLen.toNat }

/-- `message_sender::handle_body_seg_sent` -/
def handleBodySegSent (s : MessageSender) (error : Option String) (bytesTransferred : Nat) :
    Option (MessageSender × SendOutcome) :=
  match error with
  | some reason => some (s, .aborts reason)
  | none =>
      if bytesTransferred ≠ s.bodySegSent then
        some (s, .aborts "Invalid number of bytes sent for body segment")
      else nextBodySeg { s with bodyLeft := s.bodyLeft - bytesTransferred }

/-- The completion handler of a write. -/
def handleSent (s : MessageSender) : Write → Option String → Nat →
    Option (MessageSender × SendOutcome)
  | .prehdr => s.handlePrehdrSent
  | .hdr _ => s.handleHdrSent
  | .bodySeg _ => s.handleBodySegSent

/-- Two senders with the same buffers, message and queue. -/
structure SameBuffers (s s' : MessageSender) : Prop where
  preHeader : s'.preHeader = s.preHeader
  headerBuf : s'.headerBuf = s.headerBuf
  req : s'.req = s.req
  txQueue : s'.txQueue = s.txQueue

theorem nextBodySeg_sameBuffers {s s' : MessageSender} {o : SendOutcome}
    (h : s.nextBodySeg = some (s', o)) : SameBuffers s s' := by
  rw [nextBodySeg] at h
  split at h
  · split at h
    · simp at h
    · split at h
      · simp only [Option.some.injEq, Prod.mk.injEq] at h
        obtain ⟨rfl, rfl⟩ := h
        exact ⟨rfl, rfl, rfl, rfl⟩
      · simp at h
  · simp only [Option.some.injEq, Prod.mk.injEq] at h
    obtain ⟨rfl, rfl⟩ := h
    exact ⟨rfl, rfl, rfl, rfl⟩

/-- What a completion handler does, by its cases: it aborts, it goes on from the pre-header
to the header, or it takes up the body. -/
theorem handleSent_cases {s s' : MessageSender} {w : Write} {error : Option String}
    {n : Nat} {o : SendOutcome} (h : s.handleSent w error n = some (s', o)) :
    (∃ reason, o = .aborts reason ∧ s' = s) ∨
      (w = .prehdr ∧ error = none ∧ n = 48 ∧ s' = s ∧
        ∃ m, s.req = some m ∧ o = .writes (.hdr m.headerLen.toNat)) ∨
      (error = none ∧ ∃ left,
        ((∃ len m, w = .hdr len ∧ s.req = some m ∧ n = m.headerLen.toNat ∧
            left = m.bodyLen.toNat) ∨
          ∃ buf, w = .bodySeg buf ∧ n = s.bodySegSent ∧ left = s.bodyLeft - n) ∧
        nextBodySeg { s with bodyLeft := left } = some (s', o)) := by
  cases error with
  | some reason =>
      refine Or.inl ⟨reason, ?_⟩
      cases w with
      | prehdr | hdr | bodySeg =>
          simp only [handleSent, handlePrehdrSent, handleHdrSent, handleBodySegSent,
            Option.some.injEq, Prod.mk.injEq] at h
          exact ⟨h.2.symm, h.1.symm⟩
  | none =>
      cases w with
      | prehdr =>
          simp only [handleSent, handlePrehdrSent] at h
          split at h
          · simp only [Option.some.injEq, Prod.mk.injEq] at h
            exact Or.inl ⟨_, h.2.symm, h.1.symm⟩
          · rename_i hn
            cases hreq : s.req with
            | none => simp [hreq] at h
            | some m =>
                simp only [hreq, Option.some.injEq, Prod.mk.injEq] at h
                exact Or.inr (Or.inl ⟨rfl, rfl, by omega, h.1.symm, m, rfl, h.2.symm⟩)
      | hdr len =>
          simp only [handleSent, handleHdrSent] at h
          cases hreq : s.req with
          | none => simp [hreq] at h
          | some m =>
              simp only [hreq] at h
              split at h
              · simp only [Option.some.injEq, Prod.mk.injEq] at h
                exact Or.inl ⟨_, h.2.symm, h.1.symm⟩
              · rename_i hn
                refine Or.inr (Or.inr ⟨rfl, m.bodyLen.toNat, ?_, ?_⟩)
                · exact Or.inl ⟨len, m, rfl, rfl, by omega, rfl⟩
                · exact h
      | bodySeg buf =>
          simp only [handleSent, handleBodySegSent] at h
          split at h
          · simp only [Option.some.injEq, Prod.mk.injEq] at h
            exact Or.inl ⟨_, h.2.symm, h.1.symm⟩
          · rename_i hn
            refine Or.inr (Or.inr ⟨rfl, s.bodyLeft - n, ?_, h⟩)
            exact Or.inr ⟨buf, rfl, by omega, rfl⟩

/-- No completion handler touches the buffers, the message or the queue. -/
theorem handleSent_sameBuffers {s s' : MessageSender} {w : Write} {error : Option String}
    {n : Nat} {o : SendOutcome} (h : s.handleSent w error n = some (s', o)) :
    SameBuffers s s' := by
  rcases handleSent_cases h with ⟨-, -, rfl⟩ | ⟨-, -, -, rfl, -⟩ | ⟨-, left, -, hnext⟩
  · exact ⟨rfl, rfl, rfl, rfl⟩
  · exact ⟨rfl, rfl, rfl, rfl⟩
  · obtain ⟨hpre, hbuf, hreq, hqueue⟩ := nextBodySeg_sameBuffers hnext
    exact ⟨hpre, hbuf, hreq, hqueue⟩

end MessageSender

/-! ## Threads, posted calls and writes -/

/-- Where the thread of the `io_service` is. -/
inductive IoPoint
  /-- between two handlers -/
  | idle
  /-- in `next_body_seg`, after `completed_transmit` and before the lock -/
  | finishing
  /-- with the lock held, before `try_pop` -/
  | popping
  deriving DecidableEq

/-- A sender with the threads that use it.  The last fields record what happened. -/
structure Sending (T : Type) where
  sender : MessageSender
  /-- The threads that have pushed a message and not yet posted `try_send`. -/
  between : List T
  /-- How many calls of `try_send` are posted. -/
  posted : Nat
  io : IoPoint
  /-- The writes that have been started and not completed. -/
  writes : List Write
  stats : ConnectionStats
  /-- What has been written to the socket. -/
  wire : Bytes
  pushed : List MessageTx
  /-- The calls of `completed_transmit`. -/
  completed : List MessageTx
  /-- The calls of `aborted_transmit`. -/
  aborted : List MessageTx
  /-- The calls of `close`, with their reasons. -/
  closes : List String

inductive SendAction (T : Type)
  /-- `tx_queue_.push` in `send_message` -/
  | push (t : T) (m : MessageTx)
  /-- `io_service_.post` in `send_message` -/
  | post (t : T)
  /-- A posted `try_send` takes the lock and tests `req_`. -/
  | trySend
  /-- A write completes and its handler runs. -/
  | written (w : Write) (error : Option String) (bytesTransferred : Nat)
  /-- `next_body_seg` takes the lock and resets `req_`. -/
  | reset
  /-- `send_next_message`, with the clock and the clock difference it finds -/
  | sendNext (now : UInt64) (localDelta : Int64)

namespace Sending

variable {T : Type}

def start (headerBuf : Bytes) (preHeader : PreHeader) : Sending T :=
  ⟨.new headerBuf preHeader, [], 0, .idle, [], .zero, [], [], [], [], []⟩

/-- What `async_write` reports: the whole buffer, or an error and a part of it. -/
def Reported (size : Nat) (error : Option String) (bytesTransferred : Nat) : Prop :=
  bytesTransferred ≤ size ∧ (error = none → bytesTransferred = size)

instance (size : Nat) (error : Option String) (bytesTransferred : Nat) :
    Decidable (Reported size error bytesTransferred) :=
  inferInstanceAs (Decidable (_ ∧ _))

/-- The state in which the handler of a completed write starts. -/
def take (s : Sending T) (w : Write) (bytesTransferred : Nat) : Sending T :=
  { s with
    writes := s.writes.erase w
    wire := s.wire ++ (s.sender.memory w).take bytesTransferred }

/-- The state in which it ends. -/
def finish (s : Sending T) (sender : MessageSender) : SendOutcome → Sending T
  | .writes w => { s with sender := sender, writes := s.writes ++ [w] }
  | .completes =>
      { s with
        sender := sender
        io := .finishing
        completed := s.completed ++ sender.req.toList }
  | .aborts reason => { s with sender := sender, closes := s.closes ++ [reason] }

section Next

variable [DecidableEq T]

def next (s : Sending T) : SendAction T → Option (Sending T)
  | .push t m =>
      if t ∈ s.between then none
      else
        some { s with
          sender := { s.sender with txQueue := s.sender.txQueue ++ [m] }
          between := t :: s.between
          pushed := s.pushed ++ [m] }
  | .post t =>
      if t ∈ s.between then
        some { s with between := s.between.erase t, posted := s.posted + 1 }
      else none
  | .trySend =>
      if s.io = .idle ∧ 0 < s.posted then
        some { s with
          posted := s.posted - 1
          io := if s.sender.req = none then .popping else .idle }
      else none
  | .written w error n =>
      if s.io = .idle ∧ w ∈ s.writes ∧ Reported (s.sender.memory w).length error n then
        (s.sender.handleSent w error n).map fun r => (s.take w n).finish r.1 r.2
      else none
  | .reset =>
      if s.io = .finishing then
        some { s with sender := { s.sender with req := none }, io := .popping }
      else none
  | .sendNext now localDelta =>
      if s.io = .popping then
        match s.sender.txQueue with
        | [] => some { s with io := .idle }
        | m :: rest =>
            some { s with
              sender := { s.sender.startSend m now localDelta with txQueue := rest }
              io := .idle
              writes := s.writes ++ [.prehdr]
              stats := s.stats.messageSent (m.preHeader now localDelta).frameSize }
      else none

end Next

/-- The message whose `completed_transmit` is still to come. -/
def inTransmission (s : Sending T) : List MessageTx :=
  if s.io = .finishing then [] else s.sender.req.toList

/-- What holds of the queue, the current message, the posted calls and the point the
thread of the `io_service` has reached, in every state. -/
structure Consistent (s : Sending T) : Prop where
  order : s.completed ++ s.inTransmission ++ s.sender.txQueue = s.pushed
  one : s.writes.length ≤ 1
  writing : s.writes ≠ [] → s.io = .idle ∧ s.sender.req ≠ none
  finishing : s.io = .finishing → s.sender.req ≠ none
  popping : s.io = .popping → s.sender.req = none
  awake : s.sender.txQueue ≠ [] → s.sender.req = none →
    0 < s.posted ∨ s.between ≠ [] ∨ s.io = .popping
  unaborted : s.aborted = []

theorem consistent_start (headerBuf : Bytes) (preHeader : PreHeader) :
    Consistent (start headerBuf preHeader : Sending T) where
  order := rfl
  one := by simp [start]
  writing := by simp [start]
  finishing := by simp [start]
  popping := fun _ => rfl
  awake := by simp [start, MessageSender.new]
  unaborted := rfl

section Step

variable [DecidableEq T] {s s' : Sending T}

/-! ### What each step does -/

omit [DecidableEq T] in
theorem inTransmission_of_idle (hio : s.io = .idle) :
    s.inTransmission = s.sender.req.toList := by
  simp only [inTransmission, hio, reduceCtorEq, if_false]

omit [DecidableEq T] in
theorem inTransmission_eq_nil (hreq : s.sender.req = none) : s.inTransmission = [] := by
  simp only [inTransmission, hreq, Option.toList_none, ite_self]

theorem push_next {t : T} {m : MessageTx} (hstep : s.next (.push t m) = some s') :
    t ∉ s.between ∧ s' = { s with
      sender := { s.sender with txQueue := s.sender.txQueue ++ [m] }
      between := t :: s.between
      pushed := s.pushed ++ [m] } := by
  rw [next] at hstep
  split at hstep
  · simp at hstep
  · rename_i hfree
    exact ⟨hfree, (Option.some.inj hstep).symm⟩

theorem post_next {t : T} (hstep : s.next (.post t) = some s') :
    t ∈ s.between ∧
      s' = { s with between := s.between.erase t, posted := s.posted + 1 } := by
  rw [next] at hstep
  split at hstep
  · rename_i hcalled
    exact ⟨hcalled, (Option.some.inj hstep).symm⟩
  · simp at hstep

/-- A posted call that finds a message in transmission is over at once. -/
theorem trySend_next (hstep : s.next .trySend = some s') :
    s.io = .idle ∧ 0 < s.posted ∧ s' = { s with
      posted := s.posted - 1
      io := if s.sender.req = none then .popping else .idle } := by
  rw [next] at hstep
  split at hstep
  · rename_i hguard
    exact ⟨hguard.1, hguard.2, (Option.some.inj hstep).symm⟩
  · simp at hstep

theorem written_next {w : Write} {error : Option String} {n : Nat}
    (hstep : s.next (.written w error n) = some s') :
    s.io = .idle ∧ w ∈ s.writes ∧ Reported (s.sender.memory w).length error n ∧
      ∃ sender o, s.sender.handleSent w error n = some (sender, o) ∧
        s' = (s.take w n).finish sender o := by
  rw [next] at hstep
  split at hstep
  · rename_i hguard
    obtain ⟨hio, hw, hreported⟩ := hguard
    simp only [Option.map_eq_some_iff, Prod.exists] at hstep
    obtain ⟨sender, o, hhandle, rfl⟩ := hstep
    exact ⟨hio, hw, hreported, sender, o, hhandle, rfl⟩
  · simp at hstep

theorem reset_next (hstep : s.next .reset = some s') :
    s.io = .finishing ∧
      s' = { s with sender := { s.sender with req := none }, io := .popping } := by
  rw [next] at hstep
  split at hstep
  · rename_i hio
    exact ⟨hio, (Option.some.inj hstep).symm⟩
  · simp at hstep

theorem sendNext_next {now : UInt64} {localDelta : Int64}
    (hstep : s.next (.sendNext now localDelta) = some s') :
    s.io = .popping ∧ ((s.sender.txQueue = [] ∧ s' = { s with io := .idle }) ∨
      ∃ m rest, s.sender.txQueue = m :: rest ∧ s' = { s with
        sender := { s.sender.startSend m now localDelta with txQueue := rest }
        io := .idle
        writes := s.writes ++ [.prehdr]
        stats := s.stats.messageSent (m.preHeader now localDelta).frameSize }) := by
  rw [next] at hstep
  split at hstep
  · rename_i hio
    refine ⟨hio, ?_⟩
    split at hstep
    · rename_i hempty
      exact Or.inl ⟨hempty, (Option.some.inj hstep).symm⟩
    · rename_i m rest hqueue
      exact Or.inr ⟨m, rest, hqueue, (Option.some.inj hstep).symm⟩
  · simp at hstep

/-! ### The invariant -/

omit [DecidableEq T] in
/-- The one write that is pending is the one that completes. -/
theorem Consistent.writes_eq (h : Consistent s) {w : Write} (hw : w ∈ s.writes) :
    s.writes = [w] := by
  have hone := h.one
  cases hs : s.writes with
  | nil => simp [hs] at hw
  | cons v rest =>
      rw [hs] at hone hw
      have hrest : rest = [] := by
        cases rest with
        | nil => rfl
        | cons => simp at hone
      subst hrest
      simp only [List.mem_singleton] at hw
      rw [hw]

omit [DecidableEq T] in
/-- Inside a handler nothing is pending. -/
theorem Consistent.writes_eq_nil (h : Consistent s) (hbusy : s.io ≠ .idle) :
    s.writes = [] := by
  by_contra hne
  exact hbusy (h.writing hne).1

omit [DecidableEq T] in
/-- With nothing in transmission and nobody about to take a message, none waits. -/
theorem Consistent.txQueue_eq_nil (h : Consistent s) (hreq : s.sender.req = none)
    (hposted : s.posted = 0) (hbetween : s.between = []) (hio : s.io = .idle) :
    s.sender.txQueue = [] := by
  by_contra hne
  rcases h.awake hne hreq with hsome | hcalled | hpopping
  · exact absurd hposted (by omega)
  · exact hcalled hbetween
  · rw [hio] at hpopping
    cases hpopping

/-- A completed write, in the one way it can have been pending. -/
theorem Consistent.written_cases (h : Consistent s) {w : Write} {error : Option String}
    {n : Nat} (hstep : s.next (.written w error n) = some s') :
    s.io = .idle ∧ s.writes = [w] ∧ Reported (s.sender.memory w).length error n ∧
      ∃ sender o, s.sender.handleSent w error n = some (sender, o) ∧
        s' = (s.take w n).finish sender o ∧ (s.take w n).writes = [] := by
  obtain ⟨hio, hw, hreported, sender, o, hhandle, rfl⟩ := written_next hstep
  have hwrites := h.writes_eq hw
  refine ⟨hio, hwrites, hreported, sender, o, hhandle, rfl, ?_⟩
  rw [take, hwrites]
  exact List.erase_cons_head w []

theorem Consistent.push (h : Consistent s) {t : T} {m : MessageTx}
    (hstep : s.next (.push t m) = some s') : Consistent s' := by
  obtain ⟨-, rfl⟩ := push_next hstep
  exact {
    order := by
      have horder := h.order
      simp only [inTransmission] at horder ⊢
      rw [← horder, List.append_assoc, List.append_assoc, List.append_assoc]
    one := h.one
    writing := h.writing
    finishing := h.finishing
    popping := h.popping
    awake := fun _ _ => Or.inr (Or.inl (List.cons_ne_nil _ _))
    unaborted := h.unaborted }

theorem Consistent.post (h : Consistent s) {t : T}
    (hstep : s.next (.post t) = some s') : Consistent s' := by
  obtain ⟨-, rfl⟩ := post_next hstep
  exact {
    order := h.order
    one := h.one
    writing := h.writing
    finishing := h.finishing
    popping := h.popping
    awake := fun _ _ => Or.inl (Nat.succ_pos _)
    unaborted := h.unaborted }

theorem Consistent.trySend (h : Consistent s) (hstep : s.next .trySend = some s') :
    Consistent s' := by
  obtain ⟨hidle, -, rfl⟩ := trySend_next hstep
  have horder := h.order
  rw [inTransmission_of_idle hidle] at horder
  cases hreq : s.sender.req with
  | none =>
      have hwrites : s.writes = [] := by
        by_contra hne
        exact (h.writing hne).2 hreq
      exact {
        order := by simpa [inTransmission, hreq] using horder
        one := h.one
        writing := fun hne => absurd hwrites hne
        finishing := by simp
        popping := fun _ => hreq
        awake := fun _ _ => Or.inr (Or.inr (by simp))
        unaborted := h.unaborted }
  | some m =>
      exact {
        order := by simpa [inTransmission, hreq] using horder
        one := h.one
        writing := by simp [hreq]
        finishing := by simp
        popping := by simp
        awake := by simp [hreq]
        unaborted := h.unaborted }

theorem Consistent.written (h : Consistent s) {w : Write} {error : Option String} {n : Nat}
    (hstep : s.next (.written w error n) = some s') : Consistent s' := by
  obtain ⟨hidle, hwrites, -, sender, o, hhandle, rfl, hnone⟩ := h.written_cases hstep
  obtain ⟨hpre, hbuf, hreq, hqueue⟩ := MessageSender.handleSent_sameBuffers hhandle
  have hsome : s.sender.req ≠ none := (h.writing (by simp [hwrites])).2
  have horder := h.order
  rw [inTransmission_of_idle hidle] at horder
  cases o with
  | writes w' =>
      exact {
        order := by simpa [finish, take, inTransmission, hidle, hreq, hqueue] using horder
        one := by simp [finish, hnone]
        writing := fun _ => ⟨hidle, by rw [finish, hreq]; exact hsome⟩
        finishing := by simp [finish, take, hidle]
        popping := by simp [finish, take, hidle]
        awake := fun _ hnot => absurd hnot (by rw [finish, hreq]; exact hsome)
        unaborted := h.unaborted }
  | completes =>
      exact {
        order := by
          simpa [finish, take, inTransmission, hidle, hreq, hqueue] using horder
        one := by simp [finish, hnone]
        writing := by simp [finish, hnone]
        finishing := fun _ => by rw [finish, hreq]; exact hsome
        popping := by simp [finish]
        awake := fun _ hnot => absurd hnot (by rw [finish, hreq]; exact hsome)
        unaborted := h.unaborted }
  | aborts reason =>
      exact {
        order := by simpa [finish, take, inTransmission, hidle, hreq, hqueue] using horder
        one := by simp [finish, hnone]
        writing := by simp [finish, hnone]
        finishing := by simp [finish, take, hidle]
        popping := by simp [finish, take, hidle]
        awake := fun _ hnot => absurd hnot (by rw [finish, hreq]; exact hsome)
        unaborted := h.unaborted }

theorem Consistent.reset (h : Consistent s) (hstep : s.next .reset = some s') :
    Consistent s' := by
  obtain ⟨hio, rfl⟩ := reset_next hstep
  have hwrites := h.writes_eq_nil (by simp [hio])
  exact {
    order := by simpa [inTransmission, hio] using h.order
    one := h.one
    writing := fun hne => absurd hwrites hne
    finishing := by simp
    popping := fun _ => rfl
    awake := fun _ _ => Or.inr (Or.inr rfl)
    unaborted := h.unaborted }

theorem Consistent.sendNext (h : Consistent s) {now : UInt64} {localDelta : Int64}
    (hstep : s.next (.sendNext now localDelta) = some s') : Consistent s' := by
  obtain ⟨hio, hcases⟩ := sendNext_next hstep
  have hreq := h.popping hio
  have hwrites := h.writes_eq_nil (by simp [hio])
  have horder := h.order
  rw [inTransmission_eq_nil hreq, List.append_nil] at horder
  rcases hcases with ⟨hempty, rfl⟩ | ⟨m, rest, hqueue, rfl⟩
  · exact {
      order := by simpa [inTransmission, hreq] using horder
      one := h.one
      writing := fun hne => absurd hwrites hne
      finishing := by simp
      popping := by simp
      awake := fun hne => absurd hempty hne
      unaborted := h.unaborted }
  · exact {
      order := by simpa [inTransmission, MessageSender.startSend, hqueue] using horder
      one := by simp [hwrites]
      writing := fun _ => ⟨rfl, by simp [MessageSender.startSend]⟩
      finishing := by simp
      popping := by simp
      awake := by simp [MessageSender.startSend]
      unaborted := h.unaborted }

theorem Consistent.next (h : Consistent s) {a : SendAction T} (hstep : s.next a = some s') :
    Consistent s' := by
  cases a with
  | push t m => exact h.push hstep
  | post t => exact h.post hstep
  | trySend => exact h.trySend hstep
  | written w error n => exact h.written hstep
  | reset => exact h.reset hstep
  | sendNext now localDelta => exact h.sendNext hstep

end Step

end Sending

end Firehose.Network
