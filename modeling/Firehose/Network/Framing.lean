import Firehose.Network.Receiver
import Firehose.Network.Transmission

set_option autoImplicit false

/-!
# Framing

A receiver that reads what a sender has written cuts the bytes at the same places,
whatever segments the sender took the bodies from and whatever buffers the receiver reads
them into.
-/

namespace Firehose.Network

open Firehose.Api Firehose.Foundation

/-- A receiver and the bytes that have arrived and have not been read.  A read completes
as soon as its whole buffer can be filled. -/
structure Inbound where
  receiving : Receiving
  input : Bytes

namespace Inbound

/-- A connection just established, with everything it will receive. -/
def start (headerBuf : Bytes) (preHeader : PreHeader) (input : Bytes) : Inbound :=
  ⟨{ Receiving.new headerBuf preHeader with started := true }.readNewMessage, input⟩

/-- The pending read completes and its handler runs, at a time on the clock. -/
def next (h : MessageHandler) (s : Inbound) (now : UInt64) : Option Inbound :=
  match s.receiving.read with
  | none => none
  | some read =>
      if read.size ≤ s.input.length then
        match s.receiving.handleRead h now none (s.input.take read.size) read with
        | .ok receiving => some ⟨receiving, s.input.drop read.size⟩
        | .error (.closes reason) =>
            some ⟨s.receiving.abortConnection reason, s.input.drop read.size⟩
        | .error _ => none
      else none

/-- A read that can be filled completes with the bytes at the front of the input. -/
theorem next_ok {h : MessageHandler} {s : Inbound} {now : UInt64} {read : Read}
    {receiving : Receiving} {bytes input : Bytes} (hread : s.receiving.read = some read)
    (hinput : s.input = bytes ++ input) (hsize : bytes.length = read.size)
    (hhandle : s.receiving.handleRead h now none bytes read = .ok receiving) :
    next h s now = some ⟨receiving, input⟩ := by
  have hle : read.size ≤ s.input.length := by
    rw [hinput, List.length_append, hsize]
    exact Nat.le_add_right _ _
  have htake : s.input.take read.size = bytes := by
    rw [hinput]
    exact List.take_left' hsize
  have hdrop : s.input.drop read.size = input := by
    rw [hinput]
    exact List.drop_left' hsize
  simp only [next, hread, hle, if_true, htake, hhandle, hdrop]

end Inbound

/-- What a message is to the other end: its type, its identifier, its header and its
body. -/
def MessageTx.contents (m : MessageTx) : UInt64 × UInt64 × Bytes × Bytes :=
  (m.msgType, m.reqId, m.header, m.body)

def MessageRx.contents (r : MessageRx) : UInt64 × UInt64 × Bytes × Bytes :=
  (r.msgType, r.msgId, r.header, r.body)

/-- A message that is being received as `m`, with some of the body still to come. -/
structure MessageRx.Partial (r : MessageRx) (m : MessageTx) : Prop where
  msgType : r.msgType = m.msgType
  msgId : r.msgId = m.reqId
  header : r.header = m.header
  body : r.body.length < m.body.length

/-- The receiver takes the message: `new_rx_message` accepts its type, `header_received`
its header, and `next_body_rx_buf` offers buffers that are not empty until the body has
been received. -/
structure MessageHandler.Accepts (h : MessageHandler) (m : MessageTx) : Prop where
  newRxMessage : h.newRxMessage m.headerLen m.bodyLen m.msgType m.reqId = true
  headerReceived : h.headerReceived (.new m.msgType m.reqId) m.header = .ok ()
  bodyBuf : ∀ r : MessageRx, r.Partial m →
    ∃ size, 0 < size ∧ h.nextBodyRxBuf r = .ok size ∧
      ∀ bytes, bytes.length = min size (m.body.length - r.body.length) →
        h.bodyBufReceived { r with segments := r.segments ++ [bytes] } bytes.length = .ok ()

namespace Inbound

/-- The frames in `done` have been received, and those in `counted` are in the
statistics. -/
structure Progress (s : Receiving) (done counted : List Frame) : Prop where
  completed : s.completed.map MessageRx.contents = done.map fun f => f.message.contents
  bytesReceived : s.stats.bytesReceived = Frame.totalSize counted
  messagesReceived : s.stats.messagesReceived = UInt64.ofNat counted.length
  open_ : s.closes = []

theorem Progress.of_eq {s s' : Receiving} {done counted : List Frame}
    (h : Progress s done counted) (hcompleted : s'.completed = s.completed)
    (hstats : s'.stats = s.stats) (hcloses : s'.closes = s.closes) :
    Progress s' done counted := by
  obtain ⟨completed, bytesReceived, messagesReceived, open_⟩ := h
  rw [← hcompleted] at completed
  rw [← hstats] at bytesReceived messagesReceived
  rw [← hcloses] at open_
  exact ⟨completed, bytesReceived, messagesReceived, open_⟩

/-- Where in the frames the receiver is, by the read that is pending. -/
def Follows (h : MessageHandler) (frames : List Frame) (s : Inbound) : Prop :=
  match s.receiving.read with
  | none => False
  | some .preHeader =>
      ∃ done rest, frames = done ++ rest ∧ Progress s.receiving done done ∧
        s.input = rest.flatMap Frame.bytes
  | some (.header len) =>
      ∃ done f rest, frames = done ++ f :: rest ∧
        Progress s.receiving done (done ++ [f]) ∧
        s.receiving.receiver.preHeader = f.preHeader ∧ len = f.message.header.length ∧
        s.input = f.payload ++ rest.flatMap Frame.bytes
  | some (.bodySeg len) =>
      ∃ done f rest, frames = done ++ f :: rest ∧
        Progress s.receiving done (done ++ [f]) ∧
        ∃ m size, s.receiving.receiver.req = some m ∧ m.Partial f.message ∧
          m.body ++ s.input = f.message.body ++ rest.flatMap Frame.bytes ∧
          s.receiving.receiver.bodyLeft = f.message.body.length - m.body.length ∧
          h.nextBodyRxBuf m = .ok size ∧ len = min size s.receiving.receiver.bodyLeft

/-- What is left to be done: a byte to be read counts twice, for a header may be empty. -/
def toRead (s : Inbound) : Nat :=
  2 * s.input.length +
    match s.receiving.read with
    | some (.header _) => 1
    | _ => 0

/-- Taking up a body of which `m` has received the beginning. -/
theorem nextBodySeg_follows {h : MessageHandler} {frames done rest : List Frame} {f : Frame}
    {s : Receiving} {input : Bytes} {m : MessageRx} (hframes : frames = done ++ f :: rest)
    (haccepts : h.Accepts f.message) (hprogress : Progress s done (done ++ [f]))
    (hreq : s.receiver.req = some m) (htype : m.msgType = f.message.msgType)
    (hid : m.msgId = f.message.reqId) (hheader : m.header = f.message.header)
    (hbody : m.body ++ input = f.message.body ++ rest.flatMap Frame.bytes)
    (hle : m.body.length ≤ f.message.body.length)
    (hleft : s.receiver.bodyLeft = f.message.body.length - m.body.length) :
    ∃ s', s.nextBodySeg h = .ok s' ∧ Follows h frames ⟨s', input⟩ ∧
      toRead ⟨s', input⟩ = 2 * input.length := by
  rcases Nat.lt_or_ge m.body.length f.message.body.length with hmore | hover
  · -- some of the body is left, and a buffer is offered
    have hunfinished : m.Partial f.message := ⟨htype, hid, hheader, hmore⟩
    obtain ⟨size, -, hbuf, -⟩ := haccepts.bodyBuf m hunfinished
    refine ⟨_, Receiving.nextBodySeg_more hreq (by omega) hbuf, ?_, rfl⟩
    exact ⟨done, f, rest, hframes, hprogress.of_eq rfl rfl rfl, m, size, hreq, hunfinished, hbody,
      hleft, hbuf, rfl⟩
  · -- the body is complete, and the next frame begins
    have hlen : m.body.length = f.message.body.length := by omega
    obtain ⟨hsame, hrest⟩ := List.append_inj hbody hlen
    refine ⟨_, Receiving.nextBodySeg_done hreq (by omega), ?_, rfl⟩
    refine ⟨done ++ [f], rest, by simp [hframes], ?_, hrest⟩
    exact {
      completed := by
        simp only [Receiving.readNewMessage, List.map_append, hprogress.completed,
          List.map_singleton, MessageRx.contents, MessageTx.contents, htype, hid, hheader,
          hsame]
      bytesReceived := hprogress.bytesReceived
      messagesReceived := hprogress.messagesReceived
      open_ := hprogress.open_ }

/-- The pre-header of a frame. -/
theorem handlePreRead_follows {h : MessageHandler} {frames done rest : List Frame} {f : Frame}
    {s : Receiving} (now : UInt64) (hframes : frames = done ++ f :: rest)
    (hfits : f.message.WellFormed) (hprogress : Progress s done done) :
    ∃ s', s.handlePreRead now none f.preHeader.bytes = .ok s' ∧
      Follows h frames ⟨s', f.payload ++ rest.flatMap Frame.bytes⟩ ∧
      toRead ⟨s', f.payload ++ rest.flatMap Frame.bytes⟩ =
        2 * (f.payload ++ rest.flatMap Frame.bytes).length + 1 := by
  have hlen : f.preHeader.headerLen.toNat = f.message.header.length := hfits.headerLen_toNat
  have hmax : ¬ maxHeaderLen < f.preHeader.headerLen.toNat := by
    rw [hlen]
    exact Nat.not_lt.mpr hfits.header_le
  have hhandle : s.handlePreRead now none f.preHeader.bytes = .ok { s with
      receiver := { s.receiver with preHeader := f.preHeader, rxBegin := now }
      stats := s.stats.messageReceived f.preHeader.frameSize
      read := some (.header f.preHeader.headerLen.toNat) } := by
    simp only [Receiving.handlePreRead, PreHeader.length_bytes, ne_eq, not_true_eq_false,
      if_false, PreHeader.ofBytes_bytes, hmax]
  refine ⟨_, hhandle, ⟨done, f, rest, hframes, ?_, rfl, hlen, rfl⟩, rfl⟩
  exact {
    completed := hprogress.completed
    bytesReceived := by
      rw [Frame.totalSize_snoc, ← hprogress.bytesReceived]
      rfl
    messagesReceived := by
      rw [List.length_append, List.length_singleton, UInt64.ofNat_add,
        ← hprogress.messagesReceived]
      rfl
    open_ := hprogress.open_ }

/-- The header of a frame. -/
theorem handleHeaderRead_follows {h : MessageHandler} {frames done rest : List Frame}
    {f : Frame} {s : Receiving} (hframes : frames = done ++ f :: rest)
    (hfits : f.message.WellFormed) (haccepts : h.Accepts f.message)
    (hprogress : Progress s done (done ++ [f]))
    (hpreHeader : s.receiver.preHeader = f.preHeader) :
    ∃ s', s.handleHeaderRead h none f.message.header = .ok s' ∧
      Follows h frames ⟨s', f.message.body ++ rest.flatMap Frame.bytes⟩ ∧
      toRead ⟨s', f.message.body ++ rest.flatMap Frame.bytes⟩ =
        2 * (f.message.body ++ rest.flatMap Frame.bytes).length := by
  have hlen : f.preHeader.headerLen.toNat = f.message.header.length := hfits.headerLen_toNat
  have htake : (f.message.header ++ s.receiver.headerBuf.drop f.message.header.length).take
      f.message.header.length = f.message.header := List.take_left
  have hnew : h.newRxMessage f.preHeader.headerLen f.preHeader.bodyLen f.preHeader.msgType
      f.preHeader.msgId = true := haccepts.newRxMessage
  have hreceived : h.headerReceived (.new f.preHeader.msgType f.preHeader.msgId)
      f.message.header = .ok () := haccepts.headerReceived
  simp only [Receiving.handleHeaderRead, hpreHeader, hlen, htake, ne_eq, not_true_eq_false,
    if_false, hnew, if_true, hreceived]
  exact nextBodySeg_follows hframes haccepts (hprogress.of_eq rfl rfl rfl) rfl rfl rfl rfl rfl
    (Nat.zero_le _) hfits.body_length.symm

/-- A segment of the body of a frame. -/
theorem handleBodySegRead_follows {h : MessageHandler} {frames done rest : List Frame}
    {f : Frame} {s : Receiving} {m : MessageRx} {size : Nat} {bytes input : Bytes}
    (hframes : frames = done ++ f :: rest) (haccepts : h.Accepts f.message)
    (hprogress : Progress s done (done ++ [f])) (hreq : s.receiver.req = some m)
    (hunfinished : m.Partial f.message)
    (hbody : m.body ++ (bytes ++ input) = f.message.body ++ rest.flatMap Frame.bytes)
    (hleft : s.receiver.bodyLeft = f.message.body.length - m.body.length)
    (hbuf : h.nextBodyRxBuf m = .ok size)
    (hlen : bytes.length = min size s.receiver.bodyLeft) :
    ∃ s', s.handleBodySegRead h none bytes = .ok s' ∧ Follows h frames ⟨s', input⟩ ∧
      toRead ⟨s', input⟩ = 2 * input.length := by
  obtain ⟨size', -, hbuf', hreceived⟩ := haccepts.bodyBuf m hunfinished
  rw [hbuf] at hbuf'
  simp only [Except.ok.injEq] at hbuf'
  subst hbuf'
  have hgrown : MessageRx.body { m with segments := m.segments ++ [bytes] } =
      m.body ++ bytes := by
    simp [MessageRx.body]
  simp only [Receiving.handleBodySegRead, hreq, hreceived bytes (by rw [hlen, hleft])]
  refine nextBodySeg_follows hframes haccepts (hprogress.of_eq rfl rfl rfl) rfl hunfinished.msgType
    hunfinished.msgId hunfinished.header ?_ ?_ ?_
  · rw [hgrown, List.append_assoc, hbody]
  · rw [hgrown, List.length_append]
    have hpart := hunfinished.body
    omega
  · simp only [hgrown, List.length_append]
    omega

/-- The receiver is between two frames, with nothing left to read. -/
structure Finished (frames : List Frame) (s : Inbound) : Prop where
  read : s.receiving.read = some .preHeader
  input : s.input = []
  progress : Progress s.receiving frames frames

/-- A pending read completes, the receiver still follows the frames, and less is to be
done. -/
def Advances (h : MessageHandler) (frames : List Frame) (s : Inbound) : Prop :=
  ∀ now, ∃ s', next h s now = some s' ∧ Follows h frames s' ∧ toRead s' < toRead s

theorem Follows.preHeader {h : MessageHandler} {frames : List Frame} {s : Inbound}
    (hfollows : Follows h frames s)
    (hframes : ∀ f ∈ frames, f.message.WellFormed ∧ h.Accepts f.message)
    (hread : s.receiving.read = some .preHeader) :
    Finished frames s ∨ Advances h frames s := by
  simp only [Follows, hread] at hfollows
  obtain ⟨done, rest, hsplit, hprogress, hinput⟩ := hfollows
  cases rest with
  | nil =>
      rw [List.append_nil] at hsplit
      subst hsplit
      exact Or.inl ⟨hread, hinput, hprogress⟩
  | cons f rest =>
      refine Or.inr fun now => ?_
      have hcons : s.input = f.preHeader.bytes ++ (f.payload ++ rest.flatMap Frame.bytes) := by
        rw [hinput, List.flatMap_cons, Frame.bytes, List.append_assoc]
      obtain ⟨s', hhandle, hnext, hmeasure⟩ := handlePreRead_follows (h := h) now hsplit
        (hframes f (by simp [hsplit])).1 hprogress
      refine ⟨_, next_ok hread hcons f.preHeader.length_bytes hhandle, hnext, ?_⟩
      have hlonger := congrArg List.length hcons
      rw [List.length_append, PreHeader.length_bytes] at hlonger
      rw [hmeasure]
      simp only [toRead, hread]
      omega

theorem Follows.header {h : MessageHandler} {frames : List Frame} {s : Inbound} {len : Nat}
    (hfollows : Follows h frames s)
    (hframes : ∀ f ∈ frames, f.message.WellFormed ∧ h.Accepts f.message)
    (hread : s.receiving.read = some (.header len)) : Advances h frames s := by
  simp only [Follows, hread] at hfollows
  obtain ⟨done, f, rest, hsplit, hprogress, hpreHeader, rfl, hinput⟩ := hfollows
  intro now
  obtain ⟨hfits, haccepts⟩ := hframes f (by simp [hsplit])
  have hcons : s.input = f.message.header ++ (f.message.body ++ rest.flatMap Frame.bytes) := by
    rw [hinput, Frame.payload, List.append_assoc]
  obtain ⟨s', hhandle, hnext, hmeasure⟩ :=
    handleHeaderRead_follows hsplit hfits haccepts hprogress hpreHeader
  refine ⟨_, next_ok hread hcons rfl hhandle, hnext, ?_⟩
  -- an empty header takes nothing from the input, but the read is over
  have hlonger := congrArg List.length hcons
  rw [List.length_append] at hlonger
  rw [hmeasure]
  simp only [toRead, hread]
  omega

theorem Follows.bodySeg {h : MessageHandler} {frames : List Frame} {s : Inbound} {len : Nat}
    (hfollows : Follows h frames s)
    (hframes : ∀ f ∈ frames, f.message.WellFormed ∧ h.Accepts f.message)
    (hread : s.receiving.read = some (.bodySeg len)) : Advances h frames s := by
  simp only [Follows, hread] at hfollows
  obtain ⟨done, f, rest, hsplit, hprogress, m, size, hreq, hunfinished, hbody, hleft, hbuf, hlen⟩ :=
    hfollows
  intro now
  obtain ⟨-, haccepts⟩ := hframes f (by simp [hsplit])
  -- the read asks for at least one byte, and for no more than the body has left
  obtain ⟨size', hpositive, hbuf', -⟩ := haccepts.bodyBuf m hunfinished
  rw [hbuf] at hbuf'
  simp only [Except.ok.injEq] at hbuf'
  subst hbuf'
  have hpart := hunfinished.body
  have hbytes := congrArg List.length hbody
  simp only [List.length_append] at hbytes
  have hle : len ≤ s.input.length := by omega
  have hcut : s.input = s.input.take len ++ s.input.drop len :=
    (List.take_append_drop len s.input).symm
  have htake : (s.input.take len).length = len := List.length_take_of_le hle
  have hbody' : m.body ++ (s.input.take len ++ s.input.drop len) =
      f.message.body ++ rest.flatMap Frame.bytes := by rw [← hcut, hbody]
  obtain ⟨s', hhandle, hnext, hmeasure⟩ := handleBodySegRead_follows hsplit haccepts hprogress
    hreq hunfinished hbody' hleft hbuf (by rw [htake, hlen])
  refine ⟨_, next_ok hread hcut htake hhandle, hnext, ?_⟩
  rw [hmeasure, List.length_drop]
  simp only [toRead, hread]
  omega

/-- A receiver that follows the frames has finished, or its pending read can complete and
it still follows them. -/
theorem Follows.step {h : MessageHandler} {frames : List Frame} {s : Inbound}
    (hfollows : Follows h frames s)
    (hframes : ∀ f ∈ frames, f.message.WellFormed ∧ h.Accepts f.message) :
    Finished frames s ∨ Advances h frames s := by
  cases hread : s.receiving.read with
  | none => simp [Follows, hread] at hfollows
  | some read =>
      cases read with
      | preHeader => exact hfollows.preHeader hframes hread
      | header len => exact Or.inr (hfollows.header hframes hread)
      | bodySeg len => exact Or.inr (hfollows.bodySeg hframes hread)

/-! ## Whole runs -/

theorem follows_start {h : MessageHandler} {headerBuf : Bytes} {preHeader : PreHeader}
    {frames : List Frame} :
    Follows h frames (start headerBuf preHeader (frames.flatMap Frame.bytes)) :=
  ⟨[], frames, rfl, ⟨rfl, rfl, rfl, rfl⟩, rfl⟩

theorem Finished.next_eq_none {h : MessageHandler} {frames : List Frame} {s : Inbound}
    (hfinished : Finished frames s) (now : UInt64) : next h s now = none := by
  have hshort : ¬ Read.preHeader.size ≤ s.input.length := by
    rw [hfinished.input]
    simp [Read.size]
  simp only [next, hfinished.read, hshort, if_false]

/-- A receiver follows the frames throughout, and each step leaves it less to do. -/
theorem follows_run {h : MessageHandler} {frames : List Frame} {s₀ s : Inbound}
    {trace : List (Inbound × UInt64)} (hrun : Run (Steps (next h)) s₀ trace s)
    (hfollows : Follows h frames s₀)
    (hframes : ∀ f ∈ frames, f.message.WellFormed ∧ h.Accepts f.message) :
    Follows h frames s ∧ trace.length + toRead s ≤ toRead s₀ := by
  refine hrun.history_keeps
    (I := fun trace s => Follows h frames s ∧ trace.length + toRead s ≤ toRead s₀)
    ⟨hfollows, by simp⟩ ?_
  intro trace s now s' hinv hstep
  obtain ⟨hhere, hbound⟩ := hinv
  simp only [Steps] at hstep
  rcases hhere.step hframes with hfinished | hadvances
  · rw [hfinished.next_eq_none] at hstep
    cases hstep
  · obtain ⟨s'', hnext, hthere, hless⟩ := hadvances now
    rw [hstep] at hnext
    simp only [Option.some.injEq] at hnext
    subst hnext
    refine ⟨hthere, ?_⟩
    rw [List.length_append, List.length_singleton]
    omega

end Inbound

/-- How many bytes the frame of a message takes. -/
def MessageTx.frameLength (m : MessageTx) : Nat := 48 + m.header.length + m.body.length

theorem Frame.length_flatMap_bytes (frames : List Frame) :
    (frames.flatMap Frame.bytes).length =
      ((frames.map (·.message)).map MessageTx.frameLength).sum := by
  induction frames with
  | nil => rfl
  | cons f frames ih =>
      simp only [List.flatMap_cons, List.length_append, ih, List.map_cons, List.sum_cons,
        Frame.bytes, Frame.payload, PreHeader.length_bytes, MessageTx.frameLength]
      omega

/-- What has been completed is the beginning of the messages, and between two frames
exactly the frames of these have been read. -/
structure Inbound.InStep (messages : List MessageTx) (wire : Bytes) (s : Inbound) : Prop where
  completed : s.receiving.completed.map MessageRx.contents =
    (messages.take s.receiving.completed.length).map MessageTx.contents
  input : s.receiving.read = some .preHeader →
    s.input = wire.drop
      ((messages.take s.receiving.completed.length).map MessageTx.frameLength).sum

theorem Inbound.Progress.length_completed {s : Receiving} {done counted : List Frame}
    (h : Progress s done counted) : s.completed.length = done.length := by
  have hlen := congrArg List.length h.completed
  rwa [List.length_map, List.length_map] at hlen

theorem Inbound.Progress.completed_eq {s : Receiving} {done counted rest : List Frame}
    (h : Progress s done counted) :
    s.completed.map MessageRx.contents =
      (((done ++ rest).map (·.message)).take s.completed.length).map MessageTx.contents := by
  rw [h.length_completed, h.completed, List.map_append,
    List.take_left' (by rw [List.length_map]), List.map_map]
  rfl

theorem Inbound.Follows.inStep {h : MessageHandler} {frames : List Frame} {s : Inbound}
    (hfollows : Follows h frames s) :
    InStep (frames.map (·.message)) (frames.flatMap Frame.bytes) s := by
  cases hread : s.receiving.read with
  | none => simp [Follows, hread] at hfollows
  | some read =>
    cases read with
    | preHeader =>
        simp only [Follows, hread] at hfollows
        obtain ⟨done, rest, rfl, hprogress, hinput⟩ := hfollows
        refine ⟨hprogress.completed_eq, fun _ => ?_⟩
        have htake : ((done ++ rest).map (·.message)).take s.receiving.completed.length =
            done.map (·.message) := by
          rw [List.map_append, hprogress.length_completed]
          exact List.take_left' (by rw [List.length_map])
        rw [htake, ← Frame.length_flatMap_bytes, List.flatMap_append, List.drop_left, hinput]
    | header len =>
        simp only [Follows, hread] at hfollows
        obtain ⟨done, f, rest, rfl, hprogress, -⟩ := hfollows
        exact ⟨hprogress.completed_eq, by simp [hread]⟩
    | bodySeg len =>
        simp only [Follows, hread] at hfollows
        obtain ⟨done, f, rest, rfl, hprogress, -⟩ := hfollows
        exact ⟨hprogress.completed_eq, by simp [hread]⟩

/-- The receiver waits for the next frame, everything that was sent has been received, and
both ends have counted the same. -/
structure Inbound.SameAs {T : Type} (s : Inbound) (sent : Sending T) : Prop where
  read : s.receiving.read = some .preHeader
  input : s.input = []
  contents : s.receiving.completed.map MessageRx.contents =
    sent.pushed.map MessageTx.contents
  bytes : s.receiving.stats.bytesReceived = sent.stats.bytesSent
  messages : s.receiving.stats.messagesReceived = sent.stats.messagesSent
  open_ : s.receiving.closes = []

section RoundTrip

variable {T : Type}

/-- A sender at rest has written the frames of the messages it was given. -/
theorem exists_frames {sent : Sending T} (htransmits : sent.Transmits) (hrest : sent.AtRest) :
    ∃ frames, sent.Wired frames ∧ frames.map (·.message) = sent.pushed ∧
      sent.wire = frames.flatMap Frame.bytes := by
  obtain ⟨hcompleted, hcurrent, hunsent⟩ := htransmits.atRest hrest
  obtain ⟨frames, hwired⟩ := htransmits.wired
  refine ⟨frames, hwired, ?_, ?_⟩
  · rw [hwired.messages, hcurrent, List.append_nil, hcompleted]
  · rw [← hwired.wire, hunsent, List.append_nil]

/-- A receiver that has read all frames of a sender has got the same. -/
theorem Inbound.Finished.sameAs {sent : Sending T} {frames : List Frame} {s : Inbound}
    (hfinished : s.Finished frames) (hwired : sent.Wired frames)
    (hmessages : frames.map (·.message) = sent.pushed) : s.SameAs sent where
  read := hfinished.read
  input := hfinished.input
  contents := by
    rw [hfinished.progress.completed, ← hmessages, List.map_map]
    rfl
  bytes := hfinished.progress.bytesReceived.trans hwired.bytesSent.symm
  messages := hfinished.progress.messagesReceived.trans hwired.messagesSent.symm
  open_ := hfinished.progress.open_

/-- A receiver that follows the frames can read them to their end. -/
theorem Inbound.Follows.exists_finished {h : MessageHandler} {frames : List Frame} {s : Inbound}
    (hfollows : Follows h frames s)
    (hframes : ∀ f ∈ frames, f.message.WellFormed ∧ h.Accepts f.message) :
    ∃ trace s', Run (Steps (Inbound.next h)) s trace s' ∧ s'.Finished frames := by
  have hadvance : ∀ t, Follows h frames t → ¬ Finished frames t →
      ∃ now t', True ∧ Steps (Inbound.next h) t now t' ∧ Follows h frames t' ∧
        t'.toRead < t.toRead := by
    intro t ht hbusy
    rcases ht.step hframes with hfinished | hadvances
    · exact absurd hfinished hbusy
    · obtain ⟨t', hnext, hfollows', hless⟩ := hadvances 0
      exact ⟨0, t', trivial, hnext, hfollows', hless⟩
  obtain ⟨trace, s', hrun, -, -, hfinished⟩ :=
    Run.exists_to (C := fun _ _ => True) Inbound.toRead hadvance s hfollows
  exact ⟨trace, s', hrun, hfinished⟩

variable [DecidableEq T]

/-- A receiver that reads what a sender has written is in step with the messages in every
state, takes a bounded number of steps, and ends with the same messages and the same
statistics wherever it can read no further. -/
theorem framing_round_trip {headerBuf : Bytes} {preHeader : PreHeader} (headerBuf' : Bytes)
    (preHeader' : PreHeader) {trace : List (Sending T × SendAction T)} {sent : Sending T}
    {h : MessageHandler}
    (hrun : Run (Steps Sending.next) (Sending.start headerBuf preHeader) trace sent)
    (hproper : ∀ x ∈ trace, x.2.Proper) (hrest : sent.AtRest)
    (haccepts : ∀ m ∈ sent.pushed, h.Accepts m) :
    (∃ bound, ∀ trace' s, Run (Steps (Inbound.next h))
        (Inbound.start headerBuf' preHeader' sent.wire) trace' s →
      s.InStep sent.pushed sent.wire ∧ trace'.length ≤ bound ∧
        ((∀ now, s.next h now = none) → s.SameAs sent)) ∧
      ∃ trace' s, Run (Steps (Inbound.next h))
        (Inbound.start headerBuf' preHeader' sent.wire) trace' s ∧ s.SameAs sent := by
  have htransmits := Sending.transmits_run hrun hproper
  obtain ⟨frames, hwired, hmessages, hwire⟩ := exists_frames htransmits hrest
  have hframes : ∀ f ∈ frames, f.message.WellFormed ∧ h.Accepts f.message := by
    intro f hf
    have hpushed : f.message ∈ sent.pushed := by
      rw [← hmessages]
      exact List.mem_map_of_mem hf
    exact ⟨htransmits.fits f.message hpushed, haccepts f.message hpushed⟩
  have hstart : Inbound.Follows h frames (Inbound.start headerBuf' preHeader' sent.wire) := by
    rw [hwire]
    exact Inbound.follows_start
  refine ⟨⟨(Inbound.start headerBuf' preHeader' sent.wire).toRead, ?_⟩, ?_⟩
  · intro trace' s hrun'
    obtain ⟨hfollows, hbound⟩ := Inbound.follows_run hrun' hstart hframes
    have hinStep := hfollows.inStep
    rw [hmessages, ← hwire] at hinStep
    refine ⟨hinStep, by omega, fun hstuck => ?_⟩
    rcases hfollows.step hframes with hfinished | hadvances
    · exact hfinished.sameAs hwired hmessages
    · obtain ⟨s', hnext, -⟩ := hadvances 0
      rw [hstuck 0] at hnext
      cases hnext
  · obtain ⟨trace', s, hrun', hfinished⟩ := hstart.exists_finished hframes
    exact ⟨trace', s, hrun', hfinished.sameAs hwired hmessages⟩

end RoundTrip

/-- Two messages, the first with a body of five bytes in two segments. -/
def sendTwo {T : Type} (t t' : T) : List (SendAction T) :=
  [.push t ⟨4, 1, [10], 5, [[1, 2], [3, 4, 5]]⟩, .post t, .trySend, .sendNext 70 0,
    .written .prehdr none 48, .written (.hdr 1) none 1, .written (.bodySeg [1, 2]) none 2,
    .push t' ⟨4, 2, [11, 12], 0, []⟩, .written (.bodySeg [3, 4, 5]) none 3, .reset,
    .sendNext 71 0, .post t', .trySend, .written .prehdr none 48, .written (.hdr 2) none 2,
    .reset, .sendNext 72 0]

/-- A receiver that takes every message and reads bodies four bytes at a time. -/
def fourByteBuffers : MessageHandler :=
  ⟨fun _ _ _ _ => true, fun _ _ => .ok (), fun _ => .ok 4, fun _ _ => .ok ()⟩

theorem framing_round_trip_sendTwo :
    ∃ (trace : List (Sending (Fin 2) × SendAction (Fin 2))) (sent : Sending (Fin 2)),
      Run (Steps Sending.next) (Sending.start [] default) trace sent ∧
        ∃ trace' s, Run (Steps (Inbound.next fourByteBuffers))
            (Inbound.start [] default sent.wire) trace' s ∧
          s.receiving.completed.map MessageRx.contents =
            [(4, 1, [10], [1, 2, 3, 4, 5]), (4, 2, [11, 12], [])] := by
  obtain ⟨trace, sent, hrun, hproper, hpushed, hposted, hbetween, hio, hwrites⟩ :=
    exists_run_of_execute (sendTwo 0 1) Sending.next
      (Sending.start [] default : Sending (Fin 2))
      (fun trace sent => (∀ x ∈ trace, x.2.Proper) ∧
        sent.pushed = [⟨4, 1, [10], 5, [[1, 2], [3, 4, 5]]⟩, ⟨4, 2, [11, 12], 0, []⟩] ∧
        sent.posted = 0 ∧ sent.between = [] ∧ sent.io = .idle ∧ sent.writes = [])
      (by decide +kernel)
  have haccepts : ∀ m ∈ sent.pushed, fourByteBuffers.Accepts m := fun _ _ =>
    ⟨rfl, rfl, fun _ _ => ⟨4, by decide, rfl, fun _ _ => rfl⟩⟩
  obtain ⟨-, trace', s, hrun', hsame⟩ :=
    framing_round_trip [] default hrun hproper
      ⟨hposted, hbetween, hio, hwrites⟩ haccepts
  refine ⟨trace, sent, hrun, trace', s, hrun', hsame.contents.trans ?_⟩
  rw [hpushed]
  rfl

end Firehose.Network
