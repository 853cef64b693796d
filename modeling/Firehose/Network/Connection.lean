import Firehose.Network.Receiver
import Firehose.Network.SendQueue

set_option autoImplicit false

/-!
# A connection (`message_connection`)

A sender, a receiver and the flag `is_closed`.  Writes and reads may fail at any point;
`close` cancels what is pending, which then completes with an error.  A message is deleted
when its handler is told that it is completed or aborted.
-/

namespace Firehose.Network

open Firehose.Api Firehose.Foundation

/-! ## A sender that is left with its message -/

namespace MessageSender

/-- The buffers are as large as the pending write of `m` needs them. -/
def Prepared (s : MessageSender) (m : MessageTx) : Write → Prop
  | .prehdr => m.headerLen.toNat ≤ s.headerBuf.length
  | .hdr len => len = m.headerLen.toNat ∧ len ≤ s.headerBuf.length
  | .bodySeg buf => s.bodySegSent = buf.length

/-- A write that its handler does not accept: it has failed, or its header is longer than
the buffer. -/
def Refused (w : Write) (error : Option String) : Prop :=
  error ≠ none ∨ ∃ len, w = .hdr len ∧ maxHeaderLen < len

/-- Taking up a body starts a write of a segment or ends the message. -/
theorem nextBodySeg_cases {s s' : MessageSender} {o : SendOutcome}
    (h : s.nextBodySeg = some (s', o)) :
    o = .completes ∨ ∃ buf, o = .writes (.bodySeg buf) ∧ s'.bodySegSent = buf.length := by
  rw [nextBodySeg] at h
  split at h
  · split at h
    · simp at h
    · split at h
      · simp only [Option.some.injEq, Prod.mk.injEq] at h
        obtain ⟨rfl, rfl⟩ := h
        exact Or.inr ⟨_, rfl, rfl⟩
      · simp at h
  · simp only [Option.some.injEq, Prod.mk.injEq] at h
    obtain ⟨-, rfl⟩ := h
    exact Or.inl rfl

/-- The handler of a write that is accepted does not abort, and prepares what it starts. -/
theorem handleSent_accepted {s s' : MessageSender} {m : MessageTx} {w : Write} {n : Nat}
    {o : SendOutcome} (hreq : s.req = some m) (hprepared : s.Prepared m w)
    (hn : n = (s.memory w).length) (haccepted : ¬ Refused w none)
    (h : s.handleSent w none n = some (s', o)) :
    o = .completes ∨ ∃ w', o = .writes w' ∧ s'.Prepared m w' := by
  subst hn
  have hbody : ∀ {t : MessageSender}, t.nextBodySeg = some (s', o) →
      o = .completes ∨ ∃ w', o = .writes w' ∧ s'.Prepared m w' := by
    intro t hnext
    rcases nextBodySeg_cases hnext with hcompletes | ⟨buf, hwrites, hsent⟩
    · exact Or.inl hcompletes
    · exact Or.inr ⟨_, hwrites, hsent⟩
  cases w with
  | prehdr =>
      simp only [handleSent, handlePrehdrSent, memory, PreHeader.length_bytes, ne_eq,
        not_true_eq_false, if_false, hreq, Option.some.injEq, Prod.mk.injEq] at h
      obtain ⟨rfl, rfl⟩ := h
      exact Or.inr ⟨_, rfl, rfl, hprepared⟩
  | hdr len =>
      obtain ⟨hlen, hbuf⟩ := hprepared
      have hle : len ≤ maxHeaderLen :=
        Nat.not_lt.mp fun hlong => haccepted (Or.inr ⟨len, rfl, hlong⟩)
      have hsize : (s.memory (.hdr len)).length = m.headerLen.toNat := by
        rw [memory, Nat.min_eq_left hle, List.length_take_of_le hbuf, hlen]
      simp only [handleSent, handleHdrSent, hreq, hsize, ne_eq, not_true_eq_false, if_false] at h
      exact hbody h
  | bodySeg buf =>
      have hsent : s.bodySegSent = buf.length := hprepared
      simp only [handleSent, handleBodySegSent, memory, hsent, ne_eq, not_true_eq_false,
        if_false] at h
      exact hbody h

/-- The handler of a write that is refused aborts the connection. -/
theorem handleSent_refused {s s' : MessageSender} {m : MessageTx} {w : Write}
    {error : Option String} {n : Nat} {o : SendOutcome} (hreq : s.req = some m)
    (hprepared : s.Prepared m w) (hn : error = none → n = (s.memory w).length)
    (hrefused : Refused w error) (h : s.handleSent w error n = some (s', o)) :
    ∃ reason, o = .aborts reason := by
  cases error with
  | some reason =>
      rcases handleSent_cases h with ⟨reason', ho, -⟩ | ⟨-, hnone, -⟩ | ⟨hnone, -⟩
      · exact ⟨reason', ho⟩
      · cases hnone
      · cases hnone
  | none =>
      rcases hrefused with hfailed | ⟨len, rfl, hlong⟩
      · exact absurd rfl hfailed
      · obtain ⟨hlen, hbuf⟩ := hprepared
        have hsize : n ≠ m.headerLen.toNat := by
          rw [hn rfl, memory, List.length_take]
          omega
        simp only [handleSent, handleHdrSent, hreq, hsize, ne_eq, not_false_eq_true, if_true,
          Option.some.injEq, Prod.mk.injEq] at h
        exact ⟨_, h.2.symm⟩

end MessageSender

namespace Sending

variable {T : Type}

/-- The sender has a message and nothing will ever be done about it. -/
def Stranded (s : Sending T) : Prop := s.io = .idle ∧ s.sender.req ≠ none ∧ s.writes = []

structure Sound (s : Sending T) : Prop where
  consistent : Consistent s
  prepared : ∀ w ∈ s.writes, ∀ m ∈ s.sender.req, s.sender.Prepared m w

/-- A step in which a write is refused. -/
def Loses (_ : Sending T) : SendAction T → Prop
  | .written w error _ => MessageSender.Refused w error
  | _ => False

theorem sound_start (headerBuf : Bytes) (preHeader : PreHeader) :
    Sound (start headerBuf preHeader : Sending T) :=
  ⟨consistent_start headerBuf preHeader, by simp [start]⟩

variable [DecidableEq T] {s s' : Sending T}

/-- A completed write, by what its handler does. -/
theorem Sound.written_cases (h : Sound s) {w : Write} {error : Option String} {n : Nat}
    (hstep : s.next (.written w error n) = some s') :
    ∃ sender o, s' = (s.take w n).finish sender o ∧ s.writes = [w] ∧ s.io = .idle ∧
      sender.req = s.sender.req ∧
      ((MessageSender.Refused w error ∧ ∃ reason, o = .aborts reason) ∨
        (¬ MessageSender.Refused w error ∧
          (o = .completes ∨ ∃ w', o = .writes w' ∧ ∀ m ∈ sender.req, sender.Prepared m w'))) := by
  obtain ⟨hidle, hwrites, hreported, sender, o, hhandle, rfl, -⟩ :=
    h.consistent.written_cases hstep
  obtain ⟨m, hreq⟩ := Option.ne_none_iff_exists'.mp
    (h.consistent.writing (by simp [hwrites])).2
  have hprepared := h.prepared w (by simp [hwrites]) m hreq
  have hsame := (MessageSender.handleSent_sameBuffers hhandle).req
  refine ⟨sender, o, rfl, hwrites, hidle, hsame, ?_⟩
  by_cases hrefused : MessageSender.Refused w error
  · exact Or.inl ⟨hrefused,
      MessageSender.handleSent_refused hreq hprepared hreported.2 hrefused hhandle⟩
  · have hnone : error = none := Classical.byContradiction fun hne => hrefused (Or.inl hne)
    subst hnone
    refine Or.inr ⟨hrefused, ?_⟩
    rcases MessageSender.handleSent_accepted hreq hprepared (hreported.2 rfl) hrefused hhandle
      with hcompletes | ⟨w', hw', hprepared'⟩
    · exact Or.inl hcompletes
    · refine Or.inr ⟨w', hw', fun m' hm' => ?_⟩
      rw [hsame, hreq] at hm'
      cases hm'
      exact hprepared'

theorem Sound.next (h : Sound s) {a : SendAction T} (hstep : s.next a = some s') : Sound s' := by
  refine ⟨h.consistent.next hstep, ?_⟩
  cases a with
  | push t m =>
      obtain ⟨-, rfl⟩ := push_next hstep
      intro w hw m' hm'
      have hold := h.prepared w hw m' hm'
      cases w with
      | prehdr | hdr | bodySeg => exact hold
  | post t =>
      obtain ⟨-, rfl⟩ := post_next hstep
      exact h.prepared
  | trySend =>
      obtain ⟨-, -, rfl⟩ := trySend_next hstep
      exact h.prepared
  | written w error n =>
      obtain ⟨sender, o, rfl, hwrites, -, -, hcases⟩ := h.written_cases hstep
      have herase : s.writes.erase w = [] := by rw [hwrites, List.erase_cons_head]
      rcases hcases with ⟨-, reason, rfl⟩ | ⟨-, rfl | ⟨w', rfl, hprepared⟩⟩
      · simp [finish, take, herase]
      · simp [finish, take, herase]
      · simpa [finish, take, herase] using hprepared
  | reset =>
      obtain ⟨-, rfl⟩ := reset_next hstep
      simp
  | sendNext now localDelta =>
      obtain ⟨hio, hcases⟩ := sendNext_next hstep
      have hwrites := h.consistent.writes_eq_nil (by simp [hio])
      rcases hcases with ⟨-, rfl⟩ | ⟨m, rest, -, rfl⟩
      · simp [hwrites]
      · intro w hw m' hm'
        simp only [hwrites, List.nil_append, List.mem_singleton] at hw
        simp only [MessageSender.startSend, Option.mem_def, Option.some.injEq] at hm'
        subst hw hm'
        simp only [MessageSender.Prepared, MessageSender.startSend, MessageTx.headerLen,
          UInt64.toNat_ofNat', List.length_append]
        have hmod := Nat.mod_le m.header.length (2 ^ 64)
        omega

/-- A sender is stranded by a write that is refused, and by nothing else, and stays so. -/
theorem Sound.stranded_next_iff (h : Sound s) {a : SendAction T}
    (hstep : s.next a = some s') : Stranded s' ↔ Stranded s ∨ s.Loses a := by
  cases a with
  | push t m =>
      obtain ⟨-, rfl⟩ := push_next hstep
      exact (or_iff_left id).symm
  | post t =>
      obtain ⟨-, rfl⟩ := post_next hstep
      exact (or_iff_left id).symm
  | trySend =>
      obtain ⟨hidle, -, rfl⟩ := trySend_next hstep
      cases hreq : s.sender.req with
      | none => simp [Stranded, Loses, hreq]
      | some m => simp [Stranded, Loses, hreq, hidle]
  | written w error n =>
      obtain ⟨sender, o, rfl, hwrites, hidle, hreq, hcases⟩ := h.written_cases hstep
      have hsome : s.sender.req ≠ none := (h.consistent.writing (by simp [hwrites])).2
      have hbefore : ¬ Stranded s := fun hstranded => by simp [hstranded.2.2] at hwrites
      have herase : s.writes.erase w = [] := by rw [hwrites, List.erase_cons_head]
      rcases hcases with ⟨hrefused, reason, rfl⟩ | ⟨haccepted, rfl | ⟨w', rfl, -⟩⟩
      · refine iff_of_true ⟨hidle, ?_, herase⟩ (Or.inr hrefused)
        rw [finish, hreq]
        exact hsome
      · exact iff_of_false (by simp [Stranded, finish]) (not_or.mpr ⟨hbefore, haccepted⟩)
      · exact iff_of_false (by simp [Stranded, finish]) (not_or.mpr ⟨hbefore, haccepted⟩)
  | reset =>
      obtain ⟨hio, rfl⟩ := reset_next hstep
      simp [Stranded, Loses, hio]
  | sendNext now localDelta =>
      obtain ⟨hio, ⟨-, rfl⟩ | ⟨m, rest, -, rfl⟩⟩ := sendNext_next hstep
      · simp [Stranded, Loses, hio, h.consistent.popping hio]
      · simp [Stranded, Loses, hio]

end Sending

/-! ## A receiver that is left with its message -/

/-- The message as `new_rx_message` returned it. -/
def MessageRx.created (m : MessageRx) : MessageRx := .new m.msgType m.msgId

namespace Receiving

/-- The receiver has a message and no read is pending. -/
def Dangling (s : Receiving) : Prop := s.receiver.req ≠ none ∧ s.read = none

/-- What holds of a receiver between two handlers. -/
structure Sound (s : Receiving) : Prop where
  started : s.started = false → s.read = none ∧ s.receiver.req = none
  between : ∀ read, s.read = some read →
    (s.receiver.req = none ↔ ∀ len, read ≠ .bodySeg len)
  obtained : (s.completed ++ s.receiver.req.toList).map MessageRx.created = s.obtained
  unaborted : s.aborted = []

theorem sound_new (headerBuf : Bytes) (preHeader : PreHeader) :
    Sound (new headerBuf preHeader) where
  started := fun _ => ⟨rfl, rfl⟩
  between := by simp [new]
  obtained := rfl
  unaborted := rfl

/-- A read that fails while a message is being received. -/
def Loses (s : Receiving) (error : Option String) : Prop :=
  error ≠ none ∧ ∃ len, s.read = some (.bodySeg len)

/-- Taking up the body of a message that is among those obtained. -/
theorem nextBodySeg_sound {h : MessageHandler} {s s' : Receiving}
    (hnext : s.nextBodySeg h = .ok s') (hstarted : s.started = true) (haborted : s.aborted = [])
    (hobtained : (s.completed ++ s.receiver.req.toList).map MessageRx.created = s.obtained) :
    Sound s' ∧ s'.read ≠ none := by
  obtain ⟨m, hreq, ⟨-, rfl⟩ | ⟨len, rfl⟩⟩ := nextBodySeg_cases hnext
  · exact ⟨{
      started := by simp [readNewMessage, hstarted]
      between := by simp [readNewMessage]
      obtained := by simpa [readNewMessage, hreq] using hobtained
      unaborted := haborted }, by simp [readNewMessage]⟩
  · exact ⟨{
      started := by simp [hstarted]
      between := by simp [hreq]
      obtained := hobtained
      unaborted := haborted }, by simp⟩

/-- A handler that goes on has started a read. -/
theorem Sound.handleRead_ok {h : MessageHandler} {s s' : Receiving} {now : UInt64}
    {error : Option String} {bytes : Bytes} {read : Read} (hs : Sound s)
    (hread : s.read = some read) (hhandle : s.handleRead h now error bytes read = .ok s') :
    Sound s' ∧ s'.read ≠ none ∧ error = none := by
  have hstarted : s.started = true := by
    cases hst : s.started with
    | true => rfl
    | false => simp [(hs.started hst).1] at hread
  cases error with
  | some reason => cases read <;> simp [handleRead, handlePreRead, handleHeaderRead,
      handleBodySegRead] at hhandle
  | none =>
    cases read with
    | preHeader =>
        simp only [handleRead, handlePreRead] at hhandle
        split at hhandle
        · simp at hhandle
        · split at hhandle
          · simp at hhandle
          · simp only [Except.ok.injEq] at hhandle
            subst hhandle
            refine ⟨{
              started := by simp [hstarted]
              between := by
                have hreq := (hs.between _ hread).mpr (by simp)
                simp [hreq]
              obtained := hs.obtained
              unaborted := hs.unaborted }, by simp, rfl⟩
    | header len =>
        have hreq := (hs.between _ hread).mpr (by simp)
        have hobtained := hs.obtained
        rw [hreq, Option.toList_none, List.append_nil] at hobtained
        simp only [handleRead, handleHeaderRead] at hhandle
        split at hhandle
        · simp at hhandle
        · split at hhandle
          · split at hhandle
            · simp at hhandle
            · obtain ⟨hsound, hsome⟩ := nextBodySeg_sound hhandle hstarted hs.unaborted
                (by simp [hobtained, MessageRx.created, MessageRx.new])
              exact ⟨hsound, hsome, rfl⟩
          · simp at hhandle
    | bodySeg len =>
        simp only [handleRead, handleBodySegRead] at hhandle
        cases hreq : s.receiver.req with
        | none => simp [hreq] at hhandle
        | some m =>
            simp only [hreq] at hhandle
            split at hhandle
            · simp at hhandle
            · have hobtained := hs.obtained
              obtain ⟨hsound, hsome⟩ := nextBodySeg_sound hhandle hstarted hs.unaborted
                (by simpa [hreq, MessageRx.created] using hobtained)
              exact ⟨hsound, hsome, rfl⟩

/-- A handler that closes the connection leaves a message behind exactly when its read has
failed in the middle of one. -/
theorem Sound.handleRead_closes {h : MessageHandler} {s : Receiving} {now : UInt64}
    {error : Option String} {bytes : Bytes} {read : Read} {reason : String} (hs : Sound s)
    (hread : s.read = some read)
    (hhandle : s.handleRead h now error bytes read = .error (.closes reason)) :
    Sound (s.abortConnection reason) ∧
      (Dangling (s.abortConnection reason) ↔ s.Loses error) := by
  have hstarted : s.started = true := by
    cases hst : s.started with
    | true => rfl
    | false => simp [(hs.started hst).1] at hread
  refine ⟨{
    started := by simp [abortConnection, hstarted]
    between := by simp [abortConnection]
    obtained := hs.obtained
    unaborted := hs.unaborted }, ?_⟩
  cases read with
  | preHeader | header len =>
      have hreq := (hs.between _ hread).mpr (by simp)
      simp [Dangling, abortConnection, Loses, hread, hreq]
  | bodySeg len =>
      have hreq : s.receiver.req ≠ none := by
        rw [Ne, hs.between _ hread]
        simp
      have hfailed : error ≠ none := by
        rintro rfl
        obtain ⟨m, hm⟩ := Option.ne_none_iff_exists'.mp hreq
        simp only [handleRead, handleBodySegRead, hm] at hhandle
        split at hhandle
        · simp at hhandle
        · simp only [nextBodySeg] at hhandle
          split at hhandle
          · split at hhandle <;> simp at hhandle
          · simp at hhandle
      exact iff_of_true ⟨hreq, rfl⟩ ⟨hfailed, len, hread⟩

end Receiving

/-! ## Both ends of the connection -/

structure Connection (T : Type) where
  sending : Sending T
  receiving : Receiving
  isClosed : Bool

inductive ConnectionAction (T : Type)
  | send (a : SendAction T)
  /-- `message_connection::established` -/
  | established
  /-- The pending read completes and its handler runs. -/
  | read (now : UInt64) (error : Option String) (bytes : Bytes)
  /-- `message_connection::close`, from outside of both ends -/
  | close

namespace Connection

variable {T : Type}

def start (headerBuf headerBuf' : Bytes) (preHeader preHeader' : PreHeader) : Connection T :=
  ⟨.start headerBuf preHeader, .new headerBuf' preHeader', false⟩

section Next

variable [DecidableEq T]

def next (h : MessageHandler) (s : Connection T) : ConnectionAction T → Option (Connection T)
  | .send a =>
      (s.sending.next a).map fun sending =>
        { s with
          sending := sending
          isClosed := s.isClosed || decide (s.sending.closes.length < sending.closes.length) }
  | .established =>
      if s.receiving.started then none
      else some { s with receiving := { s.receiving with started := true }.readNewMessage }
  | .read now error bytes =>
      match s.receiving.read with
      | none => none
      | some read =>
          if Sending.Reported read.size error bytes.length then
            match s.receiving.handleRead h now error bytes read with
            | .ok receiving => some { s with receiving := receiving }
            | .error (.closes reason) =>
                some { s with
                  receiving := s.receiving.abortConnection reason
                  isClosed := true }
            | .error _ => none
          else none
  | .close => some { s with isClosed := true }

end Next

/-- The connection is closed, no handler is posted, running or waiting for its operation,
and no call of `send_message` is half done. -/
structure Quiet (s : Connection T) : Prop where
  isClosed : s.isClosed = true
  atRest : s.sending.posted = 0 ∧ s.sending.between = [] ∧ s.sending.io = .idle ∧
    s.sending.writes = []
  read : s.receiving.read = none

/-- Every message passed to `send_message` and every message returned by `new_rx_message`
has been given to the handler exactly once. -/
structure ExactlyOnce (s : Connection T) : Prop where
  transmit : (s.sending.completed ++ s.sending.aborted).Perm s.sending.pushed
  receive : ((s.receiving.completed ++ s.receiving.aborted).map MessageRx.created).Perm
    s.receiving.obtained

/-- A write fails or has a header longer than its buffer, or a read fails while a message
is being received. -/
def Loses (s : Connection T) : ConnectionAction T → Prop
  | .send a => s.sending.Loses a
  | .read _ error _ => s.receiving.Loses error
  | _ => False

/-- A message is left behind at one of the ends. -/
def LeftBehind (s : Connection T) : Prop := s.sending.Stranded ∨ s.receiving.Dangling

structure Sound (s : Connection T) : Prop where
  sending : s.sending.Sound
  receiving : s.receiving.Sound

theorem sound_start (headerBuf headerBuf' : Bytes) (preHeader preHeader' : PreHeader) :
    Sound (start headerBuf headerBuf' preHeader preHeader' : Connection T) :=
  ⟨Sending.sound_start _ _, Receiving.sound_new _ _⟩

section Step

variable [DecidableEq T] {h : MessageHandler} {s s' : Connection T}

/-- A completed read, by what its handler does. -/
theorem Sound.read_cases (hs : Sound s) {now : UInt64} {error : Option String} {bytes : Bytes}
    (hstep : next h s (.read now error bytes) = some s') :
    s'.sending = s.sending ∧ s'.receiving.Sound ∧ s.receiving.read ≠ none ∧
      (s'.receiving.Dangling ↔ s.receiving.Loses error) := by
  simp only [next] at hstep
  cases hread : s.receiving.read with
  | none => simp [hread] at hstep
  | some read =>
      simp only [hread] at hstep
      split at hstep
      · cases hhandle : s.receiving.handleRead h now error bytes read with
        | ok receiving =>
            simp only [hhandle, Option.some.injEq] at hstep
            subst hstep
            obtain ⟨hsound, hsome, hnone⟩ := hs.receiving.handleRead_ok hread hhandle
            exact ⟨rfl, hsound, by simp, iff_of_false (fun hd => hsome hd.2)
              fun hlost => hlost.1 hnone⟩
        | error stop =>
            cases stop with
            | closes reason =>
                simp only [hhandle, Option.some.injEq] at hstep
                subst hstep
                obtain ⟨hsound, hiff⟩ := hs.receiving.handleRead_closes hread hhandle
                exact ⟨rfl, hsound, by simp, hiff⟩
            | nullCall => simp [hhandle] at hstep
            | throws text => simp [hhandle] at hstep
      · simp at hstep

/-- The first read of a connection starts with no message. -/
theorem Sound.established_next (hs : Sound s) (hstep : next h s .established = some s') :
    s.receiving.receiver.req = none ∧
      s' = { s with receiving := { s.receiving with started := true }.readNewMessage } := by
  simp only [next] at hstep
  split at hstep
  · simp at hstep
  · rename_i hnot
    exact ⟨(hs.receiving.started (by simpa using hnot)).2, (Option.some.inj hstep).symm⟩

theorem Sound.next (hs : Sound s) {a : ConnectionAction T} (hstep : next h s a = some s') :
    Sound s' := by
  cases a with
  | send a =>
      simp only [Connection.next, Option.map_eq_some_iff] at hstep
      obtain ⟨sending, hsending, rfl⟩ := hstep
      exact ⟨hs.sending.next hsending, hs.receiving⟩
  | established =>
      obtain ⟨hreq, rfl⟩ := hs.established_next hstep
      exact ⟨hs.sending, {
        started := by simp [Receiving.readNewMessage]
        between := by simp [Receiving.readNewMessage, hreq]
        obtained := hs.receiving.obtained
        unaborted := hs.receiving.unaborted }⟩
  | read now error bytes =>
      obtain ⟨hsending, hreceiving, -⟩ := hs.read_cases hstep
      exact ⟨by rw [hsending]; exact hs.sending, hreceiving⟩
  | close =>
      simp only [Connection.next, Option.some.injEq] at hstep
      subst hstep
      exact ⟨hs.sending, hs.receiving⟩

/-- A message is left behind by a losing step, and by nothing else, and stays so. -/
theorem Sound.leftBehind_next_iff (hs : Sound s) {a : ConnectionAction T}
    (hstep : Connection.next h s a = some s') : LeftBehind s' ↔ LeftBehind s ∨ Loses s a := by
  cases a with
  | send a =>
      simp only [Connection.next, Option.map_eq_some_iff] at hstep
      obtain ⟨sending, hsending, rfl⟩ := hstep
      simp only [LeftBehind, Loses, hs.sending.stranded_next_iff hsending]
      exact or_right_comm
  | established =>
      obtain ⟨hreq, rfl⟩ := hs.established_next hstep
      simp [LeftBehind, Loses, Receiving.Dangling, Receiving.readNewMessage, hreq]
  | read now error bytes =>
      obtain ⟨hsending, -, hread, hiff⟩ := hs.read_cases hstep
      have hbefore : ¬ s.receiving.Dangling := fun hd => hread hd.2
      simp only [LeftBehind, Loses, hsending, hiff, hbefore, or_false]
  | close =>
      simp only [Connection.next, Option.some.injEq] at hstep
      subst hstep
      simp [LeftBehind, Loses]

omit [DecidableEq T] in
/-- In a quiet state the messages have been given to the handler, but for those left
behind. -/
theorem Sound.exactlyOnce_of_quiet (hs : Sound s) (hquiet : s.Quiet) :
    s.ExactlyOnce ↔ ¬ LeftBehind s := by
  obtain ⟨hposted, hbetween, hio, hwrites⟩ := hquiet.atRest
  have horder := hs.sending.consistent.order
  rw [Sending.inTransmission_of_idle hio] at horder
  have hobtained := hs.receiving.obtained
  constructor
  · rintro ⟨htransmit, hreceive⟩ (⟨-, hreq, -⟩ | ⟨hreq, -⟩)
    · obtain ⟨m, hm⟩ := Option.ne_none_iff_exists'.mp hreq
      have hlen := htransmit.length_eq
      rw [hs.sending.consistent.unaborted, ← horder, hm] at hlen
      simp at hlen
    · obtain ⟨m, hm⟩ := Option.ne_none_iff_exists'.mp hreq
      have hlen := hreceive.length_eq
      rw [hs.receiving.unaborted, ← hobtained, hm] at hlen
      simp at hlen
  · intro hnone
    have hreq : s.sending.sender.req = none :=
      Classical.byContradiction fun hne => hnone (Or.inl ⟨hio, hne, hwrites⟩)
    have hreq' : s.receiving.receiver.req = none :=
      Classical.byContradiction fun hne => hnone (Or.inr ⟨hne, hquiet.read⟩)
    have hqueue := hs.sending.consistent.txQueue_eq_nil hreq hposted hbetween hio
    rw [hreq, hqueue, Option.toList_none, List.append_nil, List.append_nil] at horder
    rw [hreq', Option.toList_none, List.append_nil] at hobtained
    refine ⟨?_, ?_⟩
    · rw [hs.sending.consistent.unaborted, List.append_nil, horder]
    · rw [hs.receiving.unaborted, List.append_nil, hobtained]

/-- In a quiet state of any run every message has been given to the handler exactly once
if and only if no step of the run has lost one. -/
theorem exactlyOnce_iff {headerBuf headerBuf' : Bytes} {preHeader preHeader' : PreHeader}
    {trace : List (Connection T × ConnectionAction T)}
    (hrun : Run (Steps (Connection.next h)) (start headerBuf headerBuf' preHeader preHeader')
      trace s)
    (hquiet : s.Quiet) : s.ExactlyOnce ↔ ∀ x ∈ trace, ¬ Loses x.1 x.2 := by
  have hsound : Sound s := hrun.keeps (sound_start headerBuf headerBuf' preHeader preHeader')
    fun _ _ _ hs hstep => hs.next hstep
  have hlatched : LeftBehind s ↔ ∃ x ∈ trace, Loses x.1 x.2 :=
    hrun.latched_iff (sound_start headerBuf headerBuf' preHeader preHeader')
      (by simp [LeftBehind, Sending.Stranded, Receiving.Dangling, start, Sending.start,
        MessageSender.new, Receiving.new])
      (fun _ _ _ hs hstep => hs.next hstep) fun _ _ _ hs hstep => hs.leftBehind_next_iff hstep
  rw [hsound.exactlyOnce_of_quiet hquiet, hlatched]
  simp only [not_exists, not_and]

end Step

/-- A handler that returns the null pointer for every message. -/
def noMessages : MessageHandler :=
  ⟨fun _ _ _ _ => false, fun _ _ => .ok (), fun _ => .ok 1, fun _ _ => .ok ()⟩

/-- The peer finishes, by which the connection is closed, and a message is sent
afterwards: the socket has no descriptor any more. -/
def peerGone {T : Type} (t : T) : List (ConnectionAction T) :=
  [.established, .read 3 (some "End of file") [],
    .send (.push t ⟨9, 0, [1], 0, []⟩), .send (.post t), .send .trySend,
    .send (.sendNext 5 0), .send (.written .prehdr (some "Bad file descriptor") 0)]

theorem peerGone_not_exactlyOnce :
    ¬ ∀ trace (s : Connection (Fin 1)),
      Run (Steps (next noMessages)) (start [] [] default default) trace s →
        s.Quiet → s.ExactlyOnce := by
  intro hclaim
  obtain ⟨trace, s, hrun, hclosed, hrest, hread, hcompleted, haborted, hpushed⟩ :=
    exists_run_of_execute (peerGone 0) (next noMessages)
      (start [] [] default default : Connection (Fin 1))
      (fun _ s => s.isClosed = true ∧
        (s.sending.posted = 0 ∧ s.sending.between = [] ∧ s.sending.io = .idle ∧
          s.sending.writes = []) ∧
        s.receiving.read = none ∧ s.sending.completed = [] ∧ s.sending.aborted = [] ∧
        s.sending.pushed.length = 1) (by decide +kernel)
  have hlen := (hclaim trace s hrun ⟨hclosed, hrest, hread⟩).transmit.length_eq
  rw [hcompleted, haborted, hpushed] at hlen
  cases hlen

/-- The same message, sent before the connection is closed. -/
def sentThenClosed {T : Type} (t : T) : List (ConnectionAction T) :=
  [.send (.push t ⟨9, 0, [1], 0, []⟩), .send (.post t), .send .trySend,
    .send (.sendNext 5 0), .send (.written .prehdr none 48), .send (.written (.hdr 1) none 1),
    .send .reset, .send (.sendNext 6 0), .close]

theorem exactlyOnce_iff_sentThenClosed :
    ∃ trace, ∃ s : Connection (Fin 1),
      Run (Steps (next noMessages)) (start [] [] default default) trace s ∧
        s.sending.completed = [⟨9, 0, [1], 0, []⟩] ∧
        (s.ExactlyOnce ↔ ∀ x ∈ trace, ¬ Loses x.1 x.2) := by
  obtain ⟨trace, s, hrun, hclosed, hrest, hread, hcompleted⟩ :=
    exists_run_of_execute (sentThenClosed 0) (next noMessages)
      (start [] [] default default : Connection (Fin 1))
      (fun _ s => s.isClosed = true ∧
        (s.sending.posted = 0 ∧ s.sending.between = [] ∧ s.sending.io = .idle ∧
          s.sending.writes = []) ∧
        s.receiving.read = none ∧ s.sending.completed = [⟨9, 0, [1], 0, []⟩])
      (by decide +kernel)
  exact ⟨trace, s, hrun, hcompleted, exactlyOnce_iff hrun ⟨hclosed, hrest, hread⟩⟩

end Connection

end Firehose.Network
