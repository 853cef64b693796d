import Firehose.Foundation.Channel
import Firehose.Network.Connection
import Firehose.Network.Framing

set_option autoImplicit false

/-!
# One direction of a connection

The sender at one end, the bytes on their way, and the receiver at the other end, each at
its own pace.  Writes and reads may fail at any byte.  Whatever fails, the two ends are a
first-in first-out channel of whole messages: `send_message` pushes on it, and
`completed_receive` takes the front.
-/

namespace Firehose.Network

open Firehose.Api Firehose.Foundation

/-! ## A sender whose writes may fail -/

namespace Sending

variable {T : Type}

/-- What is on the wire is the beginning of the frames of the messages that have been
completed and of the one in transmission. -/
def Carries (s : Sending T) : Prop :=
  ∃ (frames : List Frame) (rest : Bytes),
    frames.map (·.message) = s.completed ++ s.inTransmission ∧
      s.wire ++ rest = frames.flatMap Frame.bytes

/-- A sender that transmits, or has failed to write and will write no more. -/
structure Serves (s : Sending T) : Prop where
  consistent : Consistent s
  carries : Carries s
  alive : s.Transmits ∨ s.Stranded

theorem Transmits.serves {s : Sending T} (h : s.Transmits) : Serves s where
  consistent := h.consistent
  carries := by
    obtain ⟨frames, hwired⟩ := h.wired
    exact ⟨frames, s.unsent, hwired.messages, hwired.wire⟩
  alive := Or.inl h

variable [DecidableEq T] {s s' : Sending T}

/-- A write that fails leaves a part of its buffer on the wire, and the message with the
sender. -/
theorem Transmits.fails (h : s.Transmits) {w : Write} {reason : String} {n : Nat}
    (hstep : s.next (.written w (some reason) n) = some s') : Serves s' := by
  have hconsistent := h.consistent.written hstep
  obtain ⟨hidle, hwrites, -, sender, o, hhandle, rfl, hnone⟩ := h.consistent.written_cases hstep
  obtain ⟨m, hreq⟩ := Option.ne_none_iff_exists'.mp
    (h.consistent.writing (by simp [hwrites])).2
  obtain ⟨reason', rfl, rfl⟩ : ∃ reason', o = .aborts reason' ∧ sender = s.sender := by
    rcases MessageSender.handleSent_cases hhandle with haborts | ⟨-, hok, -⟩ | ⟨hok, -⟩
    · exact haborts
    · cases hok
    · cases hok
  refine ⟨hconsistent, ?_, Or.inr ⟨hidle, ?_, hnone⟩⟩
  · obtain ⟨frames, hwired⟩ := h.wired
    have hwire := hwired.wire
    simp only [unsent, hwrites, hreq] at hwire
    refine ⟨frames, (s.sender.memory w).drop n ++ s.sender.remaining m w, ?_, ?_⟩
    · exact hwired.messages
    · have hcut := List.take_append_drop n (s.sender.memory w)
      simp only [finish, take]
      rw [← hwire, List.append_assoc, ← List.append_assoc (List.take n _), hcut]
  · simp [finish, take, hreq]

/-- A sender that has failed to write takes messages, and that is all. -/
theorem Serves.stranded (h : Serves s) (hstranded : s.Stranded) {a : SendAction T}
    (hstep : s.next a = some s') : Serves s' := by
  obtain ⟨hidle, hreq, hnone⟩ := hstranded
  have hconsistent := h.consistent.next hstep
  cases a with
  | push t m =>
      obtain ⟨-, rfl⟩ := push_next hstep
      exact ⟨hconsistent, h.carries, Or.inr ⟨hidle, hreq, hnone⟩⟩
  | post t =>
      obtain ⟨-, rfl⟩ := post_next hstep
      exact ⟨hconsistent, h.carries, Or.inr ⟨hidle, hreq, hnone⟩⟩
  | trySend =>
      obtain ⟨-, -, rfl⟩ := trySend_next hstep
      obtain ⟨frames, rest, hmessages, hwire⟩ := h.carries
      refine ⟨hconsistent, ⟨frames, rest, ?_, hwire⟩, Or.inr ⟨by simp [hreq], hreq, hnone⟩⟩
      simpa [inTransmission, hreq, hidle] using hmessages
  | written w error n =>
      obtain ⟨-, hw, -⟩ := written_next hstep
      simp [hnone] at hw
  | reset =>
      obtain ⟨hio, -⟩ := reset_next hstep
      simp [hidle] at hio
  | sendNext now localDelta =>
      obtain ⟨hio, -⟩ := sendNext_next hstep
      simp [hidle] at hio

/-- Messages that are pushed fit; a write may do what it likes. -/
theorem Serves.next (h : Serves s) {a : SendAction T}
    (hfits : ∀ t m, a = .push t m → m.WellFormed) (hstep : s.next a = some s') : Serves s' := by
  rcases h.alive with htransmits | hstranded
  · by_cases hproper : a.Proper
    · exact (htransmits.next hproper hstep).serves
    · cases a with
      | written w error n =>
          obtain ⟨reason, rfl⟩ := Option.ne_none_iff_exists'.mp hproper
          exact htransmits.fails hstep
      | push t m => exact absurd (hfits t m rfl) hproper
      | post | trySend | reset | sendNext => exact absurd trivial hproper
  · exact h.stranded hstranded hstep

/-- What is on the wire stays there, and only a push adds to what has been pushed. -/
theorem wire_pushed_next {a : SendAction T} (hstep : s.next a = some s') :
    s.wire <+: s'.wire ∧
      ((∃ t m, a = .push t m ∧ s'.pushed = s.pushed ++ [m]) ∨
        ((∀ t m, a ≠ .push t m) ∧ s'.pushed = s.pushed)) := by
  cases a with
  | push t m =>
      obtain ⟨-, rfl⟩ := push_next hstep
      exact ⟨List.prefix_rfl, Or.inl ⟨t, m, rfl, rfl⟩⟩
  | post t =>
      obtain ⟨-, rfl⟩ := post_next hstep
      exact ⟨List.prefix_rfl, Or.inr ⟨by simp, rfl⟩⟩
  | trySend =>
      obtain ⟨-, -, rfl⟩ := trySend_next hstep
      exact ⟨List.prefix_rfl, Or.inr ⟨by simp, rfl⟩⟩
  | written w error n =>
      obtain ⟨-, -, -, sender, o, -, rfl⟩ := written_next hstep
      cases o with
      | writes | completes | aborts =>
          exact ⟨List.prefix_append _ _, Or.inr ⟨by simp, rfl⟩⟩
  | reset =>
      obtain ⟨-, rfl⟩ := reset_next hstep
      exact ⟨List.prefix_rfl, Or.inr ⟨by simp, rfl⟩⟩
  | sendNext now localDelta =>
      obtain ⟨-, ⟨-, rfl⟩ | ⟨m, rest, -, rfl⟩⟩ := sendNext_next hstep
      · exact ⟨List.prefix_rfl, Or.inr ⟨by simp, rfl⟩⟩
      · exact ⟨List.prefix_rfl, Or.inr ⟨by simp, rfl⟩⟩

end Sending

/-! ## Both ends -/

/-- A sender, the bytes that have been written and not read, and a receiver. -/
structure Link (T : Type) where
  sending : Sending T
  socket : Bytes
  receiving : Receiving

inductive LinkAction (T : Type)
  | send (a : SendAction T)
  /-- The pending read is filled and its handler runs, at a time on the clock. -/
  | read (now : UInt64)
  /-- The pending read fails and its handler runs. -/
  | readFails (reason : String)

/-- A message that is pushed fits and is one that the receiver takes. -/
def LinkAction.Fits {T : Type} (h : MessageHandler) : LinkAction T → Prop
  | .send (.push _ m) => m.WellFormed ∧ h.Accepts m
  | _ => True

/-- No write and no read fails. -/
def LinkAction.Succeeds {T : Type} : LinkAction T → Prop
  | .send (.written _ error _) => error = none
  | .readFails _ => False
  | _ => True

namespace Link

variable {T : Type}

def start (headerBuf headerBuf' : Bytes) (preHeader preHeader' : PreHeader) : Link T :=
  ⟨.start headerBuf preHeader, [], (Inbound.start headerBuf' preHeader' []).receiving⟩

def next [DecidableEq T] (h : MessageHandler) (s : Link T) : LinkAction T → Option (Link T)
  | .send a =>
      (s.sending.next a).map fun sending =>
        { s with
          sending := sending
          socket := s.socket ++ sending.wire.drop s.sending.wire.length }
  | .read now =>
      (Inbound.next h ⟨s.receiving, s.socket⟩ now).map fun inbound =>
        { s with
          socket := inbound.input
          receiving := inbound.receiving }
  | .readFails reason =>
      match s.receiving.read with
      | none => none
      | some _ => some { s with receiving := s.receiving.abortConnection reason }

/-- The messages that have been sent, as a channel: those the receiver has completed, and
those it has not. -/
def channel (s : Link T) : Channel (UInt64 × UInt64 × Bytes × Bytes) where
  received := s.receiving.completed.map MessageRx.contents
  queue := (s.sending.pushed.drop s.receiving.completed.length).map MessageTx.contents

/-- What a step is to the channel: a push, the completion of a message, or nothing. -/
def event [DecidableEq T] (h : MessageHandler) (s : Link T) :
    LinkAction T → Option (Channel.Event (UInt64 × UInt64 × Bytes × Bytes))
  | .send (.push _ m) => some (.push m.contents)
  | .read now =>
      (next h s (.read now)).bind fun s' =>
        if s.receiving.completed.length < s'.receiving.completed.length then some .pop else none
  | _ => none

section Step

variable [DecidableEq T] {h : MessageHandler} {s s' : Link T}

theorem send_next {a : SendAction T} (hstep : next h s (.send a) = some s') :
    ∃ sending written, s.sending.next a = some sending ∧
      sending.wire = s.sending.wire ++ written ∧
      s' = { s with sending := sending, socket := s.socket ++ written } := by
  obtain ⟨sending, hnext, rfl⟩ := Option.map_eq_some_iff.mp hstep
  obtain ⟨written, hwire⟩ := (Sending.wire_pushed_next hnext).1
  refine ⟨sending, written, hnext, hwire.symm, ?_⟩
  rw [← hwire, List.drop_left]

theorem read_next {now : UInt64} (hstep : next h s (.read now) = some s') :
    ∃ inbound, Inbound.next h ⟨s.receiving, s.socket⟩ now = some inbound ∧
      s' = { s with socket := inbound.input, receiving := inbound.receiving } := by
  obtain ⟨inbound, hnext, rfl⟩ := Option.map_eq_some_iff.mp hstep
  exact ⟨inbound, hnext, rfl⟩

theorem readFails_next {reason : String} (hstep : next h s (.readFails reason) = some s') :
    s.receiving.read ≠ none ∧
      s' = { s with receiving := s.receiving.abortConnection reason } := by
  simp only [next] at hstep
  split at hstep
  · simp at hstep
  · rename_i read hread
    exact ⟨by simp [hread], (Option.some.inj hstep).symm⟩

end Step

end Link

/-! ## The receiver reads ahead -/

namespace Receiving

/-- Taking up a body completes the message or asks for more of it. -/
theorem completed_nextBodySeg {h : MessageHandler} {s s' : Receiving}
    (hnext : s.nextBodySeg h = .ok s') :
    s'.completed = s.completed ∨ ∃ m, s'.completed = s.completed ++ [m] := by
  obtain ⟨m, -, ⟨-, rfl⟩ | ⟨len, rfl⟩⟩ := nextBodySeg_cases hnext
  · exact Or.inr ⟨m, rfl⟩
  · exact Or.inl rfl

theorem completed_handleRead {h : MessageHandler} {s s' : Receiving} {now : UInt64}
    {error : Option String} {bytes : Bytes} {read : Read}
    (hhandle : s.handleRead h now error bytes read = .ok s') :
    s'.completed = s.completed ∨ ∃ m, s'.completed = s.completed ++ [m] := by
  cases error with
  | some reason => cases read <;> simp [handleRead, handlePreRead, handleHeaderRead,
      handleBodySegRead] at hhandle
  | none =>
      cases read with
      | preHeader =>
          simp only [handleRead, handlePreRead] at hhandle
          split at hhandle
          · simp at hhandle
          · split at hhandle
            · simp at hhandle
            · obtain rfl := Except.ok.inj hhandle
              exact Or.inl rfl
      | header len =>
          simp only [handleRead, handleHeaderRead] at hhandle
          split at hhandle
          · simp at hhandle
          · split at hhandle
            · split at hhandle
              · simp at hhandle
              · rcases completed_nextBodySeg hhandle with hsame | hone
                · exact Or.inl hsame
                · exact Or.inr hone
            · simp at hhandle
      | bodySeg len =>
          simp only [handleRead, handleBodySegRead] at hhandle
          split at hhandle
          · simp at hhandle
          · split at hhandle
            · simp at hhandle
            · rcases completed_nextBodySeg hhandle with hsame | hone
              · exact Or.inl hsame
              · exact Or.inr hone

end Receiving

namespace Inbound

/-- A read that can be filled is filled the same when more has arrived. -/
theorem next_append {h : MessageHandler} {s s' : Inbound} {now : UInt64}
    (hstep : next h s now = some s') (more : Bytes) :
    next h ⟨s.receiving, s.input ++ more⟩ now = some ⟨s'.receiving, s'.input ++ more⟩ := by
  simp only [next] at hstep ⊢
  split at hstep
  · simp at hstep
  · rename_i read hread
    split at hstep
    · rename_i hle
      have hle' : read.size ≤ (s.input ++ more).length := by
        rw [List.length_append]
        omega
      rw [if_pos hle', List.take_append_of_le_length hle, List.drop_append_of_le_length hle]
      split at hstep
      · obtain rfl := Option.some.inj hstep
        simp
      · obtain rfl := Option.some.inj hstep
        simp
      · simp at hstep
    · simp at hstep

/-- A read completes one message at most. -/
theorem completed_next {h : MessageHandler} {s s' : Inbound} {now : UInt64}
    (hstep : next h s now = some s') :
    s'.receiving.completed = s.receiving.completed ∨
      ∃ m, s'.receiving.completed = s.receiving.completed ++ [m] := by
  simp only [next] at hstep
  split at hstep
  · simp at hstep
  · split at hstep
    · split at hstep
      · rename_i receiving hhandle
        obtain rfl := Option.some.inj hstep
        exact Receiving.completed_handleRead hhandle
      · obtain rfl := Option.some.inj hstep
        exact Or.inl rfl
      · simp at hstep
    · simp at hstep

end Inbound

/-! ## Whole runs -/

namespace Link

variable {T : Type} [DecidableEq T] {h : MessageHandler} {s : Link T}
  {headerBuf headerBuf' : Bytes} {preHeader preHeader' : PreHeader}
  {trace : List (Link T × LinkAction T)}

/-- The sender serves, and has been given nothing but messages that the receiver takes. -/
structure Supplied (h : MessageHandler) (s : Sending T) : Prop where
  serves : s.Serves
  pushed : ∀ m ∈ s.pushed, m.WellFormed ∧ h.Accepts m

theorem supplied_run
    (hrun : Run (Steps (next h)) (start headerBuf headerBuf' preHeader preHeader') trace s)
    (hfits : ∀ x ∈ trace, x.2.Fits h) : Supplied h s.sending := by
  refine hrun.invariant (C := fun _ a => a.Fits h) (I := fun s => Supplied h s.sending) hfits
    ⟨(Sending.transmits_start headerBuf preHeader).serves, by simp [start, Sending.start]⟩ ?_
  intro s a s' hinv ha hstep
  cases a with
  | send a =>
      obtain ⟨sending, written, hnext, -, rfl⟩ := send_next hstep
      have hpush : ∀ t m, a = .push t m → m.WellFormed ∧ h.Accepts m := by
        rintro t m rfl
        exact ha
      refine ⟨hinv.serves.next (fun t m hm => (hpush t m hm).1) hnext, ?_⟩
      rcases (Sending.wire_pushed_next hnext).2 with ⟨t, m, hm, hpushed⟩ | ⟨-, hpushed⟩
      · intro m' hm'
        rcases List.mem_append.mp (hpushed ▸ hm') with hold | hnew
        · exact hinv.pushed m' hold
        · rw [List.mem_singleton.mp hnew]
          exact hpush t m hm
      · rw [hpushed]
        exact hinv.pushed
  | read now =>
      obtain ⟨inbound, -, rfl⟩ := read_next hstep
      exact hinv
  | readFails reason =>
      obtain ⟨-, rfl⟩ := readFails_next hstep
      exact hinv

/-- The receiver is where it would be had everything been there from the beginning, unless
a read has failed. -/
theorem inbound_run
    (hrun : Run (Steps (next h)) (start headerBuf headerBuf' preHeader preHeader') trace s)
    (more : Bytes) :
    ∃ trace' receiving, Run (Steps (Inbound.next h))
        (Inbound.start headerBuf' preHeader' (s.sending.wire ++ more)) trace'
        ⟨receiving, s.socket ++ more⟩ ∧
      receiving.completed = s.receiving.completed ∧
      (s.receiving = receiving ∨ s.receiving.read = none ∧ ∃ x ∈ trace, ¬ x.2.Succeeds) := by
  induction hrun generalizing more with
  | refl => exact ⟨[], _, .refl, rfl, Or.inl rfl⟩
  | @snoc trace s s' a hrun hstep ih =>
      cases a with
      | send a =>
          obtain ⟨sending, written, -, hwire, rfl⟩ := send_next hstep
          obtain ⟨trace', receiving, hinbound, hcompleted, hsame⟩ := ih (written ++ more)
          refine ⟨trace', receiving, ?_, hcompleted, ?_⟩
          · rw [hwire, List.append_assoc, List.append_assoc]
            exact hinbound
          · refine hsame.imp_right fun ⟨hread, x, hx, hfailed⟩ => ?_
            exact ⟨hread, x, List.mem_append_left _ hx, hfailed⟩
      | read now =>
          obtain ⟨inbound, hnext, rfl⟩ := read_next hstep
          obtain ⟨trace', receiving, hinbound, -, hsame | ⟨hread, -⟩⟩ := ih more
          · subst hsame
            exact ⟨_, inbound.receiving, hinbound.snoc (Inbound.next_append hnext more), rfl,
              Or.inl rfl⟩
          · simp [Inbound.next, hread] at hnext
      | readFails reason =>
          obtain ⟨hread, rfl⟩ := readFails_next hstep
          obtain ⟨trace', receiving, hinbound, hcompleted, -⟩ := ih more
          exact ⟨trace', receiving, hinbound, hcompleted,
            Or.inr ⟨rfl, _, List.mem_append_right _ (List.mem_singleton.mpr rfl), id⟩⟩

/-- What the receiver has completed is the beginning of what was pushed. -/
theorem sent_channel
    (hrun : Run (Steps (next h)) (start headerBuf headerBuf' preHeader preHeader') trace s)
    (hfits : ∀ x ∈ trace, x.2.Fits h) :
    s.receiving.completed.map MessageRx.contents =
      (s.sending.pushed.take s.receiving.completed.length).map MessageTx.contents := by
  have hsupplied := supplied_run hrun hfits
  obtain ⟨frames, rest, hmessages, hwire⟩ := hsupplied.serves.carries
  have hbegins : frames.map (·.message) <+: s.sending.pushed := by
    rw [hmessages, ← hsupplied.serves.consistent.order]
    exact List.prefix_append _ _
  have hframes : ∀ f ∈ frames, f.message.WellFormed ∧ h.Accepts f.message := fun f hf =>
    hsupplied.pushed f.message (hbegins.subset (List.mem_map_of_mem hf))
  obtain ⟨trace', receiving, hinbound, hcompleted, -⟩ := inbound_run hrun rest
  rw [hwire] at hinbound
  have hfollows := (Inbound.follows_run hinbound Inbound.follows_start hframes).1
  have hinStep := hfollows.inStep.completed
  simp only [hcompleted] at hinStep
  have hlen : s.receiving.completed.length ≤ (frames.map (·.message)).length := by
    have hlen := congrArg List.length hinStep
    simp only [List.length_map, List.length_take] at hlen ⊢
    omega
  obtain ⟨later, hlater⟩ := hbegins
  rw [hinStep, ← hlater, List.take_append_of_le_length hlen]

/-- The channel holds what was pushed, in order. -/
theorem channel_sent
    (hrun : Run (Steps (next h)) (start headerBuf headerBuf' preHeader preHeader') trace s)
    (hfits : ∀ x ∈ trace, x.2.Fits h) :
    s.channel.sent = s.sending.pushed.map MessageTx.contents := by
  rw [Channel.sent, channel, sent_channel hrun hfits, ← List.map_append, List.take_append_drop]

omit [DecidableEq T] in
/-- A completed message is the front of the channel. -/
theorem pop_channel {s' : Link T} {r : MessageRx}
    (hsent : s.channel.sent = s.sending.pushed.map MessageTx.contents)
    (hsent' : s'.channel.sent = s'.sending.pushed.map MessageTx.contents)
    (hpushed : s'.sending.pushed = s.sending.pushed)
    (hcompleted : s'.receiving.completed = s.receiving.completed ++ [r]) :
    s.channel.next .pop = some s'.channel := by
  have hsame : s.channel.sent = s'.channel.sent := by rw [hsent, hsent', hpushed]
  have hreceived : s'.channel.received = s.channel.received ++ [r.contents] := by
    simp [channel, hcompleted]
  have hqueue : s.channel.queue = r.contents :: s'.channel.queue := by
    rw [Channel.sent, Channel.sent, hreceived, List.append_assoc] at hsame
    exact List.append_cancel_left hsame
  simp [Channel.next, Channel.pop?, hqueue, ← hreceived]

/-- A step of the connection is a step of the channel, or none. -/
theorem simulates_channel {a : LinkAction T} {s' : Link T}
    (hrun : Run (Steps (next h)) (start headerBuf headerBuf' preHeader preHeader') trace s)
    (hstep : next h s a = some s') (hfits : ∀ x ∈ trace ++ [(s, a)], x.2.Fits h) :
    Simulates (Steps Channel.next) channel (event h) s a s' := by
  have hfits₀ : ∀ x ∈ trace, x.2.Fits h := fun x hx => hfits x (List.mem_append_left _ hx)
  have hsent := channel_sent hrun hfits₀
  have hsent' := channel_sent (hrun.snoc hstep) hfits
  have hlen := congrArg List.length (sent_channel hrun hfits₀)
  simp only [List.length_map, List.length_take] at hlen
  cases a with
  | send a =>
      obtain ⟨sending, written, hnext, -, rfl⟩ := send_next hstep
      rcases (Sending.wire_pushed_next hnext).2 with ⟨t, m, rfl, hpushed⟩ | ⟨hother, hpushed⟩
      · have hle : s.receiving.completed.length ≤ s.sending.pushed.length := by omega
        simp only [Simulates, event, Steps, Channel.next, Option.some.injEq]
        simp [channel, Channel.push, hpushed, List.drop_append_of_le_length hle]
      · have hnone : event h s (.send a) = none := by
          cases a with
          | push t m => exact absurd rfl (hother t m)
          | post | trySend | written | reset | sendNext => rfl
        simp [Simulates, hnone, channel, hpushed]
  | read now =>
      have hread := hstep
      obtain ⟨inbound, hnext, rfl⟩ := read_next hread
      rcases Inbound.completed_next hnext with hsame | ⟨r, hone⟩
      · have hnone : event h s (.read now) = none := by
          simp [event, hstep, hsame]
        simp only [Simulates, hnone, channel, hsame]
      · have hpop : event h s (.read now) = some .pop := by
          simp [event, hstep, hone]
        simp only [Simulates, hpop]
        exact pop_channel hsent hsent' rfl hone
  | readFails reason =>
      obtain ⟨-, rfl⟩ := readFails_next hstep
      rfl

/-- A run in which nothing fails is one of the sender in which nothing fails. -/
theorem transmits_sending
    (hrun : Run (Steps (next h)) (start headerBuf headerBuf' preHeader preHeader') trace s)
    (hfits : ∀ x ∈ trace, x.2.Fits h) (hsucceeds : ∀ x ∈ trace, x.2.Succeeds) :
    s.sending.Transmits := by
  refine hrun.invariant (C := fun _ a => a.Fits h ∧ a.Succeeds)
    (I := fun s => s.sending.Transmits) (fun x hx => ⟨hfits x hx, hsucceeds x hx⟩)
    (Sending.transmits_start headerBuf preHeader) ?_
  rintro s a s' hinv ⟨hfit, hsucceed⟩ hstep
  cases a with
  | send a =>
      obtain ⟨sending, written, hnext, -, rfl⟩ := send_next hstep
      have hproper : a.Proper := by
        cases a with
        | push t m => exact hfit.1
        | written w error n => exact hsucceed
        | post | trySend | reset | sendNext => trivial
      exact hinv.next hproper hnext
  | read now =>
      obtain ⟨inbound, -, rfl⟩ := read_next hstep
      exact hinv
  | readFails reason =>
      obtain ⟨-, rfl⟩ := readFails_next hstep
      exact hinv

/-- When nothing has failed and neither end can go on, nothing is in flight. -/
theorem queue_eq_nil
    (hrun : Run (Steps (next h)) (start headerBuf headerBuf' preHeader preHeader') trace s)
    (hfits : ∀ x ∈ trace, x.2.Fits h) (hsucceeds : ∀ x ∈ trace, x.2.Succeeds)
    (hrest : s.sending.AtRest) (hstuck : ∀ now, next h s (.read now) = none) :
    s.channel.queue = [] := by
  have hsupplied := supplied_run hrun hfits
  obtain ⟨frames, -, hmessages, hwire⟩ :=
    exists_frames (transmits_sending hrun hfits hsucceeds) hrest
  have hframes : ∀ f ∈ frames, f.message.WellFormed ∧ h.Accepts f.message := fun f hf =>
    hsupplied.pushed f.message (hmessages ▸ List.mem_map_of_mem hf)
  obtain ⟨trace', receiving, hinbound, hcompleted, hsame⟩ := inbound_run hrun []
  -- no read has failed, so the receiver is the one that follows the frames
  have hreceiving : s.receiving = receiving := by
    rcases hsame with hsame | ⟨-, x, hx, hfailed⟩
    · exact hsame
    · exact absurd (hsucceeds x hx) hfailed
  rw [List.append_nil, List.append_nil, hwire, ← hreceiving] at hinbound
  have hfollows := (Inbound.follows_run hinbound Inbound.follows_start hframes).1
  rcases hfollows.step hframes with hfinished | hadvances
  · have hlen := congrArg List.length hfinished.progress.completed
    have hcount := congrArg List.length hmessages
    simp only [List.length_map] at hlen hcount
    simp [channel, hlen, hcount]
  · obtain ⟨s', hnext, -⟩ := hadvances 0
    have hnone := hstuck 0
    simp [next, hnext] at hnone

/-! ## A connection within a larger system -/

/-- What is pushed stays pushed. -/
theorem pushed_prefix_next {s s' : Link T} {a : LinkAction T} (hstep : next h s a = some s') :
    s.sending.pushed <+: s'.sending.pushed := by
  cases a with
  | send a =>
      obtain ⟨sending, written, hnext, -, rfl⟩ := send_next hstep
      rcases (Sending.wire_pushed_next hnext).2 with ⟨t, m, -, hpushed⟩ | ⟨-, hpushed⟩
      · simp [hpushed]
      · simp [hpushed]
  | read now =>
      obtain ⟨inbound, -, rfl⟩ := read_next hstep
      exact List.prefix_rfl
  | readFails reason =>
      obtain ⟨-, rfl⟩ := readFails_next hstep
      exact List.prefix_rfl

theorem pushed_push_next {s s' : Link T} {t : T} {m : MessageTx}
    (hstep : next h s (.send (.push t m)) = some s') :
    s'.sending.pushed = s.sending.pushed ++ [m] := by
  obtain ⟨sending, written, hnext, -, rfl⟩ := send_next hstep
  obtain ⟨-, rfl⟩ := Sending.push_next hnext
  rfl

/-- What is no push fits and pushes nothing. -/
theorem pushed_eq_of_event {s s' : Link T} {a : LinkAction T} (hstep : next h s a = some s')
    (hnone : event h s a = none) : a.Fits h ∧ s'.sending.pushed = s.sending.pushed := by
  cases a with
  | send a =>
      obtain ⟨sending, written, hnext, -, rfl⟩ := send_next hstep
      rcases (Sending.wire_pushed_next hnext).2 with ⟨t, m, rfl, -⟩ | ⟨hother, hpushed⟩
      · simp [event] at hnone
      · refine ⟨?_, hpushed⟩
        cases a with
        | push t m => exact absurd rfl (hother t m)
        | post | trySend | written | reset | sendNext => trivial
  | read now =>
      obtain ⟨inbound, -, rfl⟩ := read_next hstep
      exact ⟨trivial, rfl⟩
  | readFails reason =>
      obtain ⟨-, rfl⟩ := readFails_next hstep
      exact ⟨trivial, rfl⟩

/-- A state of a connection whose receiver takes whatever has been pushed; nothing has failed
if `ok` holds. -/
def Reached (h : MessageHandler) (ok : Prop) (s : Link T) : Prop :=
  ∃ (headerBuf headerBuf' : Bytes) (preHeader preHeader' : PreHeader)
    (trace : List (Link T × LinkAction T)),
    Run (Steps (next h)) (start headerBuf headerBuf' preHeader preHeader') trace s ∧
      (∀ x ∈ trace, x.2.Fits h) ∧ (ok → ∀ x ∈ trace, x.2.Succeeds)

namespace Reached

variable {ok : Prop} {s s' : Link T} {a : LinkAction T}

theorem start (headerBuf headerBuf' : Bytes) (preHeader preHeader' : PreHeader) :
    Reached h ok (start headerBuf headerBuf' preHeader preHeader' : Link T) :=
  ⟨headerBuf, headerBuf', preHeader, preHeader', [], .refl, by simp, by simp⟩

theorem next (hs : Reached h ok s) (hstep : Link.next h s a = some s') (hfits : a.Fits h)
    (hok : ok → a.Succeeds) : Reached h ok s' := by
  obtain ⟨headerBuf, headerBuf', preHeader, preHeader', trace, hrun, hall, hsucceeds⟩ := hs
  refine ⟨headerBuf, headerBuf', preHeader, preHeader', _, hrun.snoc hstep, ?_, ?_⟩
  · intro x hx
    rcases List.mem_append.mp hx with hold | hnew
    · exact hall x hold
    · rw [List.mem_singleton.mp hnew]
      exact hfits
  · intro hholds x hx
    rcases List.mem_append.mp hx with hold | hnew
    · exact hsucceeds hholds x hold
    · rw [List.mem_singleton.mp hnew]
      exact hok hholds

theorem sent_channel (hs : Reached h ok s) :
    s.channel.sent = s.sending.pushed.map MessageTx.contents := by
  obtain ⟨headerBuf, headerBuf', preHeader, preHeader', trace, hrun, hall, -⟩ := hs
  exact channel_sent hrun hall

theorem simulates (hs : Reached h ok s) (hstep : Link.next h s a = some s') (hfits : a.Fits h) :
    Simulates (Steps Channel.next) channel (event h) s a s' := by
  obtain ⟨headerBuf, headerBuf', preHeader, preHeader', trace, hrun, hall, -⟩ := hs
  refine simulates_channel hrun hstep fun x hx => ?_
  rcases List.mem_append.mp hx with hold | hnew
  · exact hall x hold
  · rw [List.mem_singleton.mp hnew]
    exact hfits

/-- A push is one of the channel. -/
theorem channel_push (hs : Reached h ok s) {t : T} {m : MessageTx}
    (hstep : Link.next h s (.send (.push t m)) = some s') (hm : m.WellFormed ∧ h.Accepts m) :
    s'.channel = s.channel.push [m.contents] := by
  have hevent : event h s (.send (.push t m)) = some (.push m.contents) := rfl
  have hpush := (hs.simulates hstep hm).step_of_event hevent
  exact (Option.some.inj hpush).symm

/-- What is no push and completes no message does not touch the channel. -/
theorem channel_eq (hs : Reached h ok s) (hstep : Link.next h s a = some s')
    (hnone : event h s a = none) : s'.channel = s.channel := by
  rcases (hs.simulates hstep (pushed_eq_of_event hstep hnone).1).cases with ⟨-, hsame⟩ | ⟨b, hb, -⟩
  · exact hsame
  · rw [hnone] at hb
    simp at hb

theorem queue_eq_nil (hs : Reached h ok s) (hok : ok) (hrest : s.sending.AtRest)
    (hstuck : ∀ now, Link.next h s (.read now) = none) : s.channel.queue = [] := by
  obtain ⟨headerBuf, headerBuf', preHeader, preHeader', trace, hrun, hall, hsucceeds⟩ := hs
  exact Link.queue_eq_nil hrun hall (hsucceeds hok) hrest hstuck

end Reached

/-- A read that completes a message, which the handler is then called with. -/
def receive (h : MessageHandler) (s : Link T) (now : UInt64) : Option (MessageRx × Link T) :=
  (next h s (.read now)).bind fun s' =>
    (s'.receiving.completed.drop s.receiving.completed.length).head?.map fun r => (r, s')

theorem receive_eq_some {s s' : Link T} {now : UInt64} {r : MessageRx}
    (hreceive : receive h s now = some (r, s')) :
    next h s (.read now) = some s' ∧ event h s (.read now) = some .pop ∧
      s'.receiving.completed = s.receiving.completed ++ [r] ∧
      s'.sending.pushed = s.sending.pushed := by
  obtain ⟨s₁, hstep, hlast⟩ := Option.bind_eq_some_iff.mp hreceive
  obtain ⟨r₁, hhead, heq⟩ := Option.map_eq_some_iff.mp hlast
  obtain ⟨rfl, rfl⟩ := Prod.mk.inj heq
  obtain ⟨inbound, hnext, rfl⟩ := read_next hstep
  rcases Inbound.completed_next hnext with hsame | ⟨m, hone⟩
  · simp [hsame] at hhead
  · have hm : m = r₁ := by simpa [hone] using hhead
    subst hm
    refine ⟨hstep, ?_, hone, rfl⟩
    simp [event, hstep, hone]

/-- The completed message is the front of the channel. -/
theorem Reached.pop?_channel {ok : Prop} {s s' : Link T} (hs : Reached h ok s) {now : UInt64}
    {r : MessageRx} (hreceive : receive h s now = some (r, s')) :
    s.channel.pop? = some (r.contents, s'.channel) := by
  obtain ⟨hstep, hevent, hcompleted, -⟩ := receive_eq_some hreceive
  have hpop := (hs.simulates hstep trivial).step_of_event hevent
  obtain ⟨⟨x, ch⟩, hpop, hch⟩ := Option.map_eq_some_iff.mp hpop
  have hch' : ch = s'.channel := hch
  subst hch'
  have hreceived := (Channel.pop?_eq_some hpop).2.1
  have hlast : s.channel.received ++ [r.contents] = s.channel.received ++ [x] := by
    rw [← hreceived]
    simp [channel, hcompleted]
  have hx : r.contents = x := by simpa using hlast
  rw [hx, hpop]

/-- The two ends of a connection are a first-in first-out channel of whole messages,
whatever write or read fails; and when none fails and neither end can go on, all that was
pushed has been completed. -/
theorem refines_channel
    (hrun : Run (Steps (next h)) (start headerBuf headerBuf' preHeader preHeader') trace s)
    (hfits : ∀ x ∈ trace, x.2.Fits h) :
    Run (Steps Channel.next) Channel.empty (projectTrace channel (event h) trace) s.channel ∧
      s.channel.sent = s.sending.pushed.map MessageTx.contents ∧
      ((∀ x ∈ trace, x.2.Succeeds) → s.sending.AtRest →
        (∀ now, next h s (.read now) = none) → s.channel.queue = []) := by
  refine ⟨?_, channel_sent hrun hfits, queue_eq_nil hrun hfits⟩
  have hempty : (start headerBuf headerBuf' preHeader preHeader' : Link T).channel = .empty := rfl
  rw [← hempty]
  refine hrun.projectWithin fun t s a s' hbefore hstep hcut => ?_
  exact simulates_channel hbefore hstep fun x hx => hfits x (hcut.subset hx)

/-- A message with a body of five bytes in two segments, and one without a body. -/
def twoSegments : MessageTx := ⟨4, 1, [10], 5, [[1, 2], [3, 4, 5]]⟩

def noBody : MessageTx := ⟨4, 2, [11, 12], 0, []⟩

/-- The connection breaks with the first of two messages received, and the second one
half way through its pre-header. -/
def brokenPipe : List (LinkAction Unit) :=
  [.send (.push () twoSegments), .send (.post ()), .send .trySend,
    .send (.sendNext 70 0), .send (.written .prehdr none 48), .read 71,
    .send (.written (.hdr 1) none 1), .send (.written (.bodySeg [1, 2]) none 2), .read 72,
    .send (.push () noBody),
    .send (.written (.bodySeg [3, 4, 5]) none 3), .read 73, .send .reset,
    .send (.sendNext 74 0), .send (.written .prehdr (some "Broken pipe") 20), .read 75,
    .readFails "End of file"]

theorem refines_channel_brokenPipe :
    ∃ (trace : List (Link Unit × LinkAction Unit)) (s : Link Unit),
      Run (Steps Channel.next) Channel.empty
          (projectTrace channel (event fourByteBuffers) trace) s.channel ∧
        s.channel.received = [twoSegments.contents] ∧
        s.channel.sent = [twoSegments.contents, noBody.contents] := by
  obtain ⟨trace, s, hrun, hlabels, hlen, hpushed⟩ :=
    exists_labelled_run_of_execute brokenPipe (next fourByteBuffers)
      (start [] [] default default)
      (fun _ s => s.receiving.completed.length = 1 ∧
        s.sending.pushed = [twoSegments, noBody])
      (by decide +kernel)
  have haccepts : ∀ m, fourByteBuffers.Accepts m := fun _ =>
    ⟨rfl, rfl, fun _ _ => ⟨4, by decide, rfl, fun _ _ => rfl⟩⟩
  have hfits : ∀ x ∈ trace, x.2.Fits fourByteBuffers := by
    intro x hx
    have hlabel : x.2 ∈ brokenPipe := hlabels ▸ List.mem_map_of_mem hx
    revert hlabel
    generalize x.2 = a
    simp only [brokenPipe, List.mem_cons, List.not_mem_nil, or_false]
    rintro (rfl | rfl | rfl | rfl | rfl | rfl | rfl | rfl | rfl | rfl | rfl | rfl | rfl | rfl |
      rfl | rfl | rfl)
    all_goals first | exact trivial | exact ⟨by decide, haccepts _⟩
  obtain ⟨hevents, hsent, -⟩ := refines_channel hrun hfits
  rw [hpushed] at hsent
  have hcut : s.channel.received = [twoSegments.contents] ∧ s.channel.queue = [noBody.contents] :=
    List.append_inj hsent (by simp [channel, hlen])
  exact ⟨trace, s, hevents, hcut.1, hsent⟩

end Link

end Firehose.Network
