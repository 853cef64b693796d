import Firehose.Network.SendQueue

set_option autoImplicit false

/-!
# What the sender writes

As long as no write fails, the bytes on the wire are the frames of the messages that have
been completed, and the beginning of the frame of the one in transmission.  Each message
reaches the wire after finitely many steps.
-/

namespace Firehose.Network

open Firehose.Api Firehose.Foundation

/-- A message with the clock and the clock difference its pre-header was built with. -/
structure Frame where
  message : MessageTx
  now : UInt64
  localDelta : Int64

namespace Frame

def preHeader (f : Frame) : PreHeader := f.message.preHeader f.now f.localDelta

/-- Everything after the pre-header. -/
def payload (f : Frame) : Bytes := f.message.header ++ f.message.body

def bytes (f : Frame) : Bytes := f.preHeader.bytes ++ f.payload

/-- What a list of frames adds to a byte counter. -/
def totalSize (frames : List Frame) : UInt64 :=
  frames.foldl (fun n f => n + f.preHeader.frameSize) 0

theorem totalSize_snoc (frames : List Frame) (f : Frame) :
    totalSize (frames ++ [f]) = totalSize frames + f.preHeader.frameSize := by
  simp [totalSize]

end Frame

namespace MessageSender

/-- The buffers hold what the pending write and those after it need: the rest of `m`. -/
def Staged (s : MessageSender) (m : MessageTx) : Write → Prop
  | .prehdr => s.headerBuf.take m.header.length = m.header ∧ s.segments = m.segments
  | .hdr len =>
      len = m.header.length ∧ s.headerBuf.take m.header.length = m.header ∧
        s.segments = m.segments
  | .bodySeg buf =>
      s.bodySegSent = buf.length ∧ s.bodyLeft = buf.length + s.segments.flatten.length

/-- What is to be written of `m` after a write. -/
def remaining (s : MessageSender) (m : MessageTx) : Write → Bytes
  | .prehdr => m.header ++ s.segments.flatten
  | .hdr _ => s.segments.flatten
  | .bodySeg _ => s.segments.flatten

/-- How many writes the message may still take, and a little more. -/
def writesLeft (s : MessageSender) : Write → Nat
  | .prehdr => s.segments.length + 4
  | .hdr _ => s.segments.length + 3
  | .bodySeg _ => s.segments.length + 3

/-- Taking up a body of which the segments are left: it is over, or its next segment is
written. -/
theorem nextBodySeg_staged {s : MessageSender} (m : MessageTx)
    (hleft : s.bodyLeft = s.segments.flatten.length) :
    ∃ s' o, s.nextBodySeg = some (s', o) ∧
      ((o = .completes ∧ s.segments.flatten = []) ∨
        ∃ w', o = .writes w' ∧ s'.Staged m w' ∧
          s'.memory w' ++ s'.remaining m w' = s.segments.flatten ∧
          s'.writesLeft w' < s.segments.length + 3) := by
  by_cases hmore : 0 < s.bodyLeft
  · cases hsegs : s.segments with
    | nil => simp [hleft, hsegs] at hmore
    | cons buf rest =>
        have hlen : s.bodyLeft = buf.length + rest.flatten.length := by
          rw [hleft, hsegs, List.flatten_cons, List.length_append]
        have hle : buf.length ≤ s.bodyLeft := by omega
        have hnext : s.nextBodySeg =
            some ({ s with segments := rest, bodySegSent := buf.length },
              .writes (.bodySeg buf)) := by
          simp only [nextBodySeg, hmore, if_true, hsegs, hle]
        refine ⟨_, _, hnext, Or.inr ⟨_, rfl, ⟨rfl, hlen⟩, ?_, ?_⟩⟩
        · rw [memory, remaining, List.flatten_cons]
        · simp only [writesLeft, List.length_cons]
          omega
  · refine ⟨s, .completes, by simp only [nextBodySeg, hmore, if_false], Or.inl ⟨rfl, ?_⟩⟩
    exact List.eq_nil_of_length_eq_zero (by omega)

/-- The handler of a write that succeeded: it starts the next write of the message, or the
message is out. -/
theorem handleSent_staged {s : MessageSender} {m : MessageTx} {w : Write}
    (hreq : s.req = some m) (hm : m.WellFormed) (hstaged : s.Staged m w) :
    ∃ s' o, s.handleSent w none (s.memory w).length = some (s', o) ∧
      ((o = .completes ∧ s.remaining m w = []) ∨
        ∃ w', o = .writes w' ∧ s'.Staged m w' ∧
          s'.memory w' ++ s'.remaining m w' = s.remaining m w ∧
          s'.writesLeft w' < s.writesLeft w) := by
  have hheader : (s.headerBuf.take m.header.length = m.header) →
      s.headerBuf.take (min m.header.length maxHeaderLen) = m.header := by
    rw [Nat.min_eq_left hm.header_le]
    exact id
  cases w with
  | prehdr =>
      obtain ⟨hbuf, hsegs⟩ := hstaged
      have hhandle : s.handleSent .prehdr none (s.memory .prehdr).length =
          some (s, .writes (.hdr m.headerLen.toNat)) := by
        simp only [handleSent, handlePrehdrSent, memory, PreHeader.length_bytes, ne_eq,
          not_true_eq_false, if_false, hreq]
      refine ⟨s, _, hhandle, Or.inr ⟨_, rfl, ?_, ?_, Nat.lt_succ_self _⟩⟩
      · exact ⟨hm.headerLen_toNat, hbuf, hsegs⟩
      · rw [memory, hm.headerLen_toNat, hheader hbuf, remaining, remaining]
  | hdr len =>
      obtain ⟨rfl, hbuf, hsegs⟩ := hstaged
      have hsize : (s.memory (.hdr m.header.length)).length = m.headerLen.toNat := by
        rw [memory, hheader hbuf, hm.headerLen_toNat]
      have hhandle : s.handleSent (.hdr m.header.length) none
          (s.memory (.hdr m.header.length)).length =
            nextBodySeg { s with bodyLeft := m.bodyLen.toNat } := by
        simp only [handleSent, handleHdrSent, hreq, hsize, ne_eq, not_true_eq_false, if_false]
      have hleft : m.bodyLen.toNat = s.segments.flatten.length := by
        rw [hsegs, ← hm.body_length, MessageTx.body]
      rw [hhandle]
      exact nextBodySeg_staged m hleft
  | bodySeg buf =>
      obtain ⟨hsent, hleft⟩ := hstaged
      have hhandle : s.handleSent (.bodySeg buf) none (s.memory (.bodySeg buf)).length =
          nextBodySeg { s with bodyLeft := s.bodyLeft - buf.length } := by
        simp only [handleSent, handleBodySegSent, memory, hsent, ne_eq, not_true_eq_false,
          if_false]
      have hleft' : s.bodyLeft - buf.length = s.segments.flatten.length := by omega
      rw [hhandle]
      exact nextBodySeg_staged m hleft'

end MessageSender

/-- The message is well formed, and no write fails. -/
def SendAction.Proper {T : Type} : SendAction T → Prop
  | .push _ m => m.WellFormed
  | .written _ error _ => error = none
  | _ => True

instance {T : Type} (a : SendAction T) : Decidable a.Proper :=
  match a with
  | .push _ m => inferInstanceAs (Decidable m.WellFormed)
  | .written _ error _ => inferInstanceAs (Decidable (error = none))
  | .post _ | .trySend | .reset | .sendNext _ _ => isTrue trivial

namespace Sending

variable {T : Type}

/-- What of the message in transmission is not on the wire yet. -/
def unsent (s : Sending T) : Bytes :=
  match s.writes, s.sender.req with
  | w :: _, some m => s.sender.memory w ++ s.sender.remaining m w
  | _, _ => []

/-- The frames of the messages that have been taken from the queue. -/
structure Wired (s : Sending T) (frames : List Frame) : Prop where
  messages : frames.map (·.message) = s.completed ++ s.inTransmission
  wire : s.wire ++ s.unsent = frames.flatMap Frame.bytes
  bytesSent : s.stats.bytesSent = Frame.totalSize frames
  messagesSent : s.stats.messagesSent = UInt64.ofNat frames.length

/-- A sender that has only had proper steps. -/
structure Transmits (s : Sending T) : Prop where
  consistent : Consistent s
  fits : ∀ m ∈ s.pushed, m.WellFormed
  staged : ∀ w ∈ s.writes, ∀ m ∈ s.sender.req, s.sender.Staged m w
  active : s.io = .idle → s.sender.req ≠ none → s.writes ≠ []
  wired : ∃ frames, s.Wired frames

theorem transmits_start (headerBuf : Bytes) (preHeader : PreHeader) :
    Transmits (start headerBuf preHeader : Sending T) where
  consistent := consistent_start headerBuf preHeader
  fits := by simp [start]
  staged := by simp [start]
  active := by simp [start, MessageSender.new]
  wired := ⟨[], rfl, rfl, rfl, rfl⟩

/-- The message in transmission is one of those pushed. -/
theorem Transmits.req_fits {s : Sending T} (h : Transmits s) {m : MessageTx}
    (hidle : s.io = .idle) (hreq : s.sender.req = some m) : m.WellFormed := by
  refine h.fits m ?_
  rw [← h.consistent.order]
  simp [inTransmission, hidle, hreq]

variable [DecidableEq T] {s s' : Sending T}

theorem Transmits.push (h : Transmits s) {t : T} {m : MessageTx} (hm : m.WellFormed)
    (hstep : s.next (.push t m) = some s') : Transmits s' := by
  have hconsistent := h.consistent.push hstep
  obtain ⟨-, rfl⟩ := push_next hstep
  exact {
    consistent := hconsistent
    fits := by
      intro m' hm'
      rcases List.mem_append.mp hm' with hold | hnew
      · exact h.fits m' hold
      · rw [List.mem_singleton.mp hnew]
        exact hm
    staged := by
      intro w hw m' hm'
      have hstaged := h.staged w hw m' hm'
      cases w with
      | prehdr | hdr | bodySeg => exact hstaged
    active := h.active
    wired := by
      obtain ⟨frames, hwired⟩ := h.wired
      refine ⟨frames, hwired.messages, ?_, hwired.bytesSent, hwired.messagesSent⟩
      have hunsent : s.unsent = Sending.unsent { s with
          sender := { s.sender with txQueue := s.sender.txQueue ++ [m] }
          between := t :: s.between
          pushed := s.pushed ++ [m] } := by
        simp only [Sending.unsent]
        cases s.writes with
        | nil => rfl
        | cons w rest =>
            cases s.sender.req with
            | none => rfl
            | some m' => cases w <;> rfl
      rw [← hunsent]
      exact hwired.wire }

theorem Transmits.post (h : Transmits s) {t : T} (hstep : s.next (.post t) = some s') :
    Transmits s' := by
  have hconsistent := h.consistent.post hstep
  obtain ⟨-, rfl⟩ := post_next hstep
  exact {
    consistent := hconsistent
    fits := h.fits
    staged := h.staged
    active := h.active
    wired := by
      obtain ⟨frames, hwired⟩ := h.wired
      exact ⟨frames, hwired.messages, hwired.wire, hwired.bytesSent, hwired.messagesSent⟩ }

theorem Transmits.trySend (h : Transmits s) (hstep : s.next .trySend = some s') :
    Transmits s' := by
  have hconsistent := h.consistent.trySend hstep
  obtain ⟨hidle, -, rfl⟩ := trySend_next hstep
  exact {
    consistent := hconsistent
    fits := h.fits
    staged := h.staged
    active := fun _ hreq => h.active hidle hreq
    wired := by
      obtain ⟨frames, hwired⟩ := h.wired
      refine ⟨frames, ?_, hwired.wire, hwired.bytesSent, hwired.messagesSent⟩
      rw [hwired.messages, inTransmission_of_idle hidle]
      cases hreq : s.sender.req with
      | none | some m => simp [inTransmission, hreq] }

/-- A write that succeeds: its handler has a result, which starts the next write of the
message or ends the message. -/
theorem Transmits.written_cases (h : Transmits s) {w : Write} {n : Nat}
    (hstep : s.next (.written w none n) = some s') :
    ∃ m sender, s.io = .idle ∧ s.writes = [w] ∧ s.sender.req = some m ∧
      MessageSender.SameBuffers s.sender sender ∧ n = (s.sender.memory w).length ∧
      ((s' = (s.take w n).finish sender .completes ∧ s.sender.remaining m w = []) ∨
        ∃ w', s' = (s.take w n).finish sender (.writes w') ∧ sender.Staged m w' ∧
          sender.memory w' ++ sender.remaining m w' = s.sender.remaining m w ∧
          sender.writesLeft w' < s.sender.writesLeft w) := by
  obtain ⟨hidle, hwrites, hreported, sender, o, hhandle, rfl, -⟩ :=
    h.consistent.written_cases hstep
  have hn := hreported.2 rfl
  subst hn
  obtain ⟨m, hreq⟩ := Option.ne_none_iff_exists'.mp
    (h.consistent.writing (by simp [hwrites])).2
  have hstaged := h.staged w (by simp [hwrites]) m hreq
  obtain ⟨sender', o', hhandle', hcases⟩ :=
    MessageSender.handleSent_staged hreq (h.req_fits hidle hreq) hstaged
  rw [hhandle] at hhandle'
  simp only [Option.some.injEq, Prod.mk.injEq] at hhandle'
  obtain ⟨rfl, rfl⟩ := hhandle'
  refine ⟨m, sender, hidle, hwrites, hreq, MessageSender.handleSent_sameBuffers hhandle,
    rfl, ?_⟩
  rcases hcases with ⟨rfl, hempty⟩ | ⟨w', rfl, hrest⟩
  · exact Or.inl ⟨rfl, hempty⟩
  · exact Or.inr ⟨w', rfl, hrest⟩

theorem Transmits.written (h : Transmits s) {w : Write} {n : Nat}
    (hstep : s.next (.written w none n) = some s') : Transmits s' := by
  have hconsistent := h.consistent.written hstep
  obtain ⟨m, sender, hidle, hwrites, hreq, hsame, rfl, hcases⟩ := h.written_cases hstep
  have herase : s.writes.erase w = [] := by rw [hwrites, List.erase_cons_head]
  obtain ⟨frames, hwired⟩ := h.wired
  have hmessages := hwired.messages
  have hwire := hwired.wire
  rw [inTransmission_of_idle hidle, hreq] at hmessages
  simp only [unsent, hwrites, hreq] at hwire
  rcases hcases with ⟨rfl, hempty⟩ | ⟨w', rfl, hstaged, hmemory, -⟩
  · exact {
      consistent := hconsistent
      fits := h.fits
      staged := by simp [finish, take, herase]
      active := by simp [finish]
      wired := by
        refine ⟨frames, ?_, ?_, hwired.bytesSent, hwired.messagesSent⟩
        · simpa [finish, take, inTransmission, hsame.req, hreq] using hmessages
        · simpa [finish, take, unsent, herase, hempty] using hwire }
  · exact {
      consistent := hconsistent
      fits := h.fits
      staged := by
        intro v hv m' hm'
        simp only [finish, take, herase, List.nil_append, List.mem_singleton] at hv
        simp only [finish, hsame.req, hreq, Option.mem_def, Option.some.injEq] at hm'
        subst hv hm'
        exact hstaged
      active := by simp [finish]
      wired := by
        refine ⟨frames, ?_, ?_, hwired.bytesSent, hwired.messagesSent⟩
        · simpa [finish, take, inTransmission, hidle, hsame.req, hreq] using hmessages
        · simpa [finish, take, unsent, herase, hsame.req, hreq, hmemory] using hwire }

theorem Transmits.reset (h : Transmits s) (hstep : s.next .reset = some s') :
    Transmits s' := by
  have hconsistent := h.consistent.reset hstep
  obtain ⟨hio, rfl⟩ := reset_next hstep
  have hwrites := h.consistent.writes_eq_nil (by simp [hio])
  exact {
    consistent := hconsistent
    fits := h.fits
    staged := by simp [hwrites]
    active := by simp
    wired := by
      obtain ⟨frames, hwired⟩ := h.wired
      refine ⟨frames, ?_, ?_, hwired.bytesSent, hwired.messagesSent⟩
      · simpa [inTransmission, hio] using hwired.messages
      · simpa [unsent, hwrites] using hwired.wire }

theorem Transmits.sendNext (h : Transmits s) {now : UInt64} {localDelta : Int64}
    (hstep : s.next (.sendNext now localDelta) = some s') : Transmits s' := by
  have hconsistent := h.consistent.sendNext hstep
  obtain ⟨hio, hcases⟩ := sendNext_next hstep
  have hreq := h.consistent.popping hio
  have hwrites := h.consistent.writes_eq_nil (by simp [hio])
  obtain ⟨frames, hwired⟩ := h.wired
  have hmessages := hwired.messages
  have hwire := hwired.wire
  rw [inTransmission_eq_nil hreq, List.append_nil] at hmessages
  simp only [unsent, hwrites, List.append_nil] at hwire
  rcases hcases with ⟨-, rfl⟩ | ⟨m, rest, -, rfl⟩
  · exact {
      consistent := hconsistent
      fits := h.fits
      staged := by simp [hwrites]
      active := by simp [hreq]
      wired := by
        refine ⟨frames, ?_, ?_, hwired.bytesSent, hwired.messagesSent⟩
        · simpa [inTransmission, hreq] using hmessages
        · simpa [unsent, hwrites] using hwire }
  · exact {
      consistent := hconsistent
      fits := h.fits
      staged := by
        intro w hw m' hm'
        simp only [hwrites, List.nil_append, List.mem_singleton] at hw
        simp only [MessageSender.startSend, Option.mem_def, Option.some.injEq] at hm'
        subst hw hm'
        exact ⟨List.take_left, rfl⟩
      active := by simp
      wired := by
        refine ⟨frames ++ [⟨m, now, localDelta⟩], ?_, ?_, ?_, ?_⟩
        · simp [inTransmission, MessageSender.startSend, hmessages]
        · simp [unsent, hwrites, MessageSender.startSend, MessageSender.memory,
            MessageSender.remaining, hwire, Frame.bytes, Frame.payload, Frame.preHeader,
            MessageTx.body]
        · rw [Frame.totalSize_snoc, ← hwired.bytesSent]
          rfl
        · rw [List.length_append, List.length_singleton, UInt64.ofNat_add,
            ← hwired.messagesSent]
          rfl }

theorem Transmits.next (h : Transmits s) {a : SendAction T} (ha : a.Proper)
    (hstep : s.next a = some s') : Transmits s' := by
  cases a with
  | push t m => exact h.push ha hstep
  | post t => exact h.post hstep
  | trySend => exact h.trySend hstep
  | written w error n =>
      have hnone : error = none := ha
      subst hnone
      exact h.written hstep
  | reset => exact h.reset hstep
  | sendNext now localDelta => exact h.sendNext hstep

theorem transmits_run {headerBuf : Bytes} {preHeader : PreHeader}
    {trace : List (Sending T × SendAction T)}
    (h : Run (Steps Sending.next) (start headerBuf preHeader) trace s)
    (hproper : ∀ x ∈ trace, x.2.Proper) : Transmits s :=
  h.invariant (C := fun _ a => a.Proper) hproper (transmits_start headerBuf preHeader)
    fun _ _ _ hinv ha hstep => hinv.next ha hstep

/-! ## Coming to rest -/

/-- Nothing is posted, running or being written, and no call of `send_message` is half
done. -/
structure AtRest (s : Sending T) : Prop where
  posted : s.posted = 0
  between : s.between = []
  io : s.io = .idle
  writes : s.writes = []

omit [DecidableEq T] in
/-- At rest every message that was pushed is out. -/
theorem Transmits.atRest (h : Transmits s) (hrest : s.AtRest) :
    s.completed = s.pushed ∧ s.inTransmission = [] ∧ s.unsent = [] := by
  have hreq : s.sender.req = none := by
    by_contra hne
    exact h.active hrest.io hne hrest.writes
  have hqueue := h.consistent.txQueue_eq_nil hreq hrest.posted hrest.between hrest.io
  have hcurrent := inTransmission_eq_nil hreq
  refine ⟨?_, hcurrent, by simp [unsent, hrest.writes]⟩
  have horder := h.consistent.order
  rwa [hcurrent, hqueue, List.append_nil, List.append_nil] at horder

/-- The steps that the handlers have before them. -/
def work (s : Sending T) : Nat :=
  4 * s.between.length + 2 * s.posted +
    (match s.io with
      | .idle => 0
      | .popping => 1
      | .finishing => 2) +
    (match s.writes with
      | [] => 0
      | w :: _ => s.sender.writesLeft w) +
    (s.sender.txQueue.map fun m => m.segments.length + 6).sum

/-- A proper step that pushes nothing. -/
def Own (_ : Sending T) (a : SendAction T) : Prop := a.Proper ∧ ∀ t m, a ≠ .push t m

/-- A pending write can succeed, which leaves less to be done. -/
theorem Transmits.exists_write (h : Transmits s) {w : Write} {rest : List Write}
    (hidle : s.io = .idle) (hwrites : s.writes = w :: rest) :
    ∃ a s', s.Own a ∧ s.next a = some s' ∧ s'.pushed = s.pushed ∧ s'.work < s.work := by
  obtain ⟨m, hreq⟩ := Option.ne_none_iff_exists'.mp
    (h.consistent.writing (by simp [hwrites])).2
  obtain ⟨sender, o, hhandle, -⟩ := MessageSender.handleSent_staged hreq
    (h.req_fits hidle hreq) (h.staged w (by simp [hwrites]) m hreq)
  have hstep : s.next (.written w none (s.sender.memory w).length) =
      some ((s.take w (s.sender.memory w).length).finish sender o) := by
    have hguard : s.io = .idle ∧ w ∈ s.writes ∧
        Reported (s.sender.memory w).length none (s.sender.memory w).length :=
      ⟨hidle, by simp [hwrites], Nat.le_refl _, fun _ => rfl⟩
    rw [Sending.next, if_pos hguard, hhandle, Option.map_some]
  have hproper : s.Own (.written w none (s.sender.memory w).length) :=
    ⟨(rfl : (none : Option String) = none), by simp⟩
  refine ⟨_, _, hproper, hstep, by cases o <;> rfl, ?_⟩
  obtain ⟨m', sender', -, hone, -, hsame, -, hcases⟩ := h.written_cases hstep
  rcases hcases with ⟨heq, -⟩ | ⟨w', heq, -, -, hless⟩
  · rw [heq]
    have hcost : 2 < s.sender.writesLeft w := by
      cases w <;> simp [MessageSender.writesLeft]
    simp only [work, finish, take, hone, List.erase_cons_head, hidle, hsame.txQueue]
    omega
  · rw [heq]
    simp only [work, finish, take, hone, List.erase_cons_head, hidle, hsame.txQueue,
      List.nil_append]
    omega

/-- Away from rest some step is possible, and it leaves less to be done. -/
theorem Transmits.exists_step (h : Transmits s) (hbusy : ¬ s.AtRest) :
    ∃ a s', s.Own a ∧ s.next a = some s' ∧ s'.pushed = s.pushed ∧ s'.work < s.work := by
  cases hbetween : s.between with
  | cons t rest =>
      have hstep : s.next (.post t) =
          some { s with between := rest, posted := s.posted + 1 } := by
        simp only [Sending.next, hbetween, List.mem_cons_self, if_true, List.erase_cons_head]
      refine ⟨.post t, _, ⟨trivial, by simp⟩, hstep, rfl, ?_⟩
      simp only [work, hbetween, List.length_cons]
      omega
  | nil =>
    cases hio : s.io with
    | finishing =>
        have hstep : s.next .reset =
            some { s with sender := { s.sender with req := none }, io := .popping } := by
          simp only [Sending.next, hio, if_true]
        refine ⟨.reset, _, ⟨trivial, by simp⟩, hstep, rfl, ?_⟩
        simp only [work, hio, h.consistent.writes_eq_nil (by simp [hio])]
        omega
    | popping =>
        have hwrites := h.consistent.writes_eq_nil (by simp [hio])
        cases hqueue : s.sender.txQueue with
        | nil =>
            have hstep : s.next (.sendNext 0 0) = some { s with io := .idle } := by
              simp only [Sending.next, hio, if_true, hqueue]
            refine ⟨.sendNext 0 0, _, ⟨trivial, by simp⟩, hstep, rfl, ?_⟩
            simp only [work, hio, hwrites, hqueue]
            omega
        | cons m rest =>
            have hstep : s.next (.sendNext 0 0) = some { s with
                sender := { s.sender.startSend m 0 0 with txQueue := rest }
                io := .idle
                writes := [.prehdr]
                stats := s.stats.messageSent (m.preHeader 0 0).frameSize } := by
              simp only [Sending.next, hio, if_true, hqueue, hwrites, List.nil_append]
            refine ⟨.sendNext 0 0, _, ⟨trivial, by simp⟩, hstep, rfl, ?_⟩
            simp only [work, hio, hwrites, hqueue, MessageSender.writesLeft,
              MessageSender.startSend, List.map_cons, List.sum_cons]
            omega
    | idle =>
      cases hwrites : s.writes with
      | nil =>
          have hposted : 0 < s.posted := by
            by_contra hnone
            exact hbusy ⟨by omega, hbetween, hio, hwrites⟩
          have hstep : s.next .trySend = some { s with
              posted := s.posted - 1
              io := if s.sender.req = none then .popping else .idle } := by
            simp only [Sending.next, hio, hposted, and_self, if_true]
          refine ⟨.trySend, _, ⟨trivial, by simp⟩, hstep, rfl, ?_⟩
          have hless : 2 * (s.posted - 1) + 1 < 2 * s.posted := by omega
          cases hreq : s.sender.req with
          | none =>
              simp only [work, hio, hwrites, if_true]
              omega
          | some m =>
              simp only [work, hio, hwrites, reduceCtorEq, if_false]
              omega
      | cons w rest => exact h.exists_write hio hwrites

/-- From every state of a proper run the sender can come to rest without another message,
and then all messages are out. -/
theorem exists_run_atRest {headerBuf : Bytes} {preHeader : PreHeader}
    {trace : List (Sending T × SendAction T)}
    (h : Run (Steps Sending.next) (start headerBuf preHeader) trace s)
    (hproper : ∀ x ∈ trace, x.2.Proper) :
    ∃ trace' s', Run (Steps Sending.next) s trace' s' ∧ (∀ x ∈ trace', x.1.Own x.2) ∧
      s'.AtRest ∧ s'.completed = s.pushed := by
  have hadvance : ∀ t : Sending T, Transmits t ∧ t.pushed = s.pushed → ¬ t.AtRest →
      ∃ a t', t.Own a ∧ Steps Sending.next t a t' ∧ (Transmits t' ∧ t'.pushed = s.pushed) ∧
        t'.work < t.work := by
    rintro t ⟨ht, hpushed⟩ hbusy
    obtain ⟨a, t', hown, hstep, hsame, hless⟩ := ht.exists_step hbusy
    exact ⟨a, t', hown, hstep, ⟨ht.next hown.1 hstep, hsame.trans hpushed⟩, hless⟩
  obtain ⟨trace', s', hrun, hown, ⟨htransmits, hpushed⟩, hrest⟩ :=
    Run.exists_to work hadvance s ⟨transmits_run h hproper, rfl⟩
  exact ⟨trace', s', hrun, hown, hrest, (htransmits.atRest hrest).1.trans hpushed⟩

end Sending

end Firehose.Network
