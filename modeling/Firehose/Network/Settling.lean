import Firehose.Network.Link

set_option autoImplicit false

/-!
# A connection comes to rest

Between two calls of `send_message` the ends of a connection have only so much to do: each
message takes a bounded number of writes, and each byte that is written is read once.
Whatever fails, every step leaves less to be done; and as long as nothing has failed, some
step is possible until all messages have been completed.
-/

namespace Firehose.Network

open Firehose.Api Firehose.Foundation

/-! ## The sender -/

namespace Sending

variable {T : Type} [DecidableEq T] {s s' : Sending T}

theorem work_post {t : T} (hstep : s.next (.post t) = some s') : s'.work < s.work := by
  obtain ⟨hcalled, rfl⟩ := post_next hstep
  have hlen := List.length_erase_of_mem hcalled
  have hpos := List.length_pos_of_mem hcalled
  simp only [work]
  omega

theorem work_trySend (hstep : s.next .trySend = some s') : s'.work < s.work := by
  obtain ⟨hidle, hposted, rfl⟩ := trySend_next hstep
  cases hreq : s.sender.req with
  | none =>
      simp only [work, hidle, if_true]
      omega
  | some m =>
      simp only [work, hidle, reduceCtorEq, if_false]
      omega

/-- A write costs more than the end of the message does. -/
theorem two_lt_writesLeft (sender : MessageSender) (w : Write) : 2 < sender.writesLeft w := by
  cases w with
  | prehdr | hdr | bodySeg =>
      simp only [MessageSender.writesLeft]
      omega

theorem Transmits.work_written (h : s.Transmits) {w : Write} {error : Option String} {n : Nat}
    (hstep : s.next (.written w error n) = some s') : s'.work < s.work := by
  have hcost := two_lt_writesLeft s.sender w
  cases error with
  | none =>
      obtain ⟨m, sender, hidle, hone, -, hsame, -, hcases⟩ := h.written_cases hstep
      rcases hcases with ⟨rfl, -⟩ | ⟨w', rfl, -, -, hless⟩
      · simp only [work, finish, take, hone, List.erase_cons_head, hidle, hsame.txQueue]
        omega
      · simp only [work, finish, take, hone, List.erase_cons_head, hidle, hsame.txQueue,
          List.nil_append]
        omega
  | some reason =>
      obtain ⟨hidle, hone, -, sender, o, hhandle, rfl, -⟩ := h.consistent.written_cases hstep
      rcases MessageSender.handleSent_cases hhandle with ⟨_, rfl, rfl⟩ | ⟨-, hok, -⟩ | ⟨hok, -⟩
      · simp only [work, finish, take, hone, List.erase_cons_head]
        omega
      · cases hok
      · cases hok

/-- Every step but a push leaves a sender less to do, also one that has failed to write. -/
theorem Serves.work_next (h : s.Serves) {a : SendAction T} (hown : ∀ t m, a ≠ .push t m)
    (hstep : s.next a = some s') : s'.work < s.work := by
  cases a with
  | push t m => exact absurd rfl (hown t m)
  | post t => exact work_post hstep
  | trySend => exact work_trySend hstep
  | written w error n =>
      rcases h.alive with htransmits | ⟨-, -, hnone⟩
      · exact htransmits.work_written hstep
      · obtain ⟨-, hw, -⟩ := written_next hstep
        simp [hnone] at hw
  | reset =>
      obtain ⟨hio, rfl⟩ := reset_next hstep
      simp only [work, hio, h.consistent.writes_eq_nil (by simp [hio])]
      omega
  | sendNext now localDelta =>
      obtain ⟨hio, ⟨-, rfl⟩ | ⟨m, rest, hqueue, rfl⟩⟩ := sendNext_next hstep
      · simp only [work, hio]
        omega
      · have hwrites := h.consistent.writes_eq_nil (by simp [hio])
        simp only [work, hio, hwrites, hqueue, List.nil_append, MessageSender.writesLeft,
          MessageSender.startSend, List.map_cons, List.sum_cons]
        omega

end Sending

/-! ## Both ends -/

namespace Link

variable {T : Type} {h : MessageHandler} {ok : Prop} {s s' : Link T}

/-- Number of bytes that have not been read of what has been pushed. -/
def unread (s : Link T) : Nat :=
  (s.sending.pushed.map MessageTx.frameLength).sum + s.socket.length - s.sending.wire.length

/-- How much a pending read is beyond the bytes it takes: it may fail, and a header may be
empty. -/
def pending (s : Link T) : Nat :=
  match s.receiving.read with
  | none => 0
  | some (.header _) => 2
  | some _ => 1

/-- What both ends have before them. -/
def work (s : Link T) : Nat := s.sending.work + 2 * s.unread + s.pending

variable [DecidableEq T]

/-- No more has been written than was pushed. -/
theorem Reached.wire_le (hs : Reached h ok s) :
    s.sending.wire.length ≤ (s.sending.pushed.map MessageTx.frameLength).sum := by
  obtain ⟨headerBuf, headerBuf', preHeader, preHeader', trace, hrun, hfits, -⟩ := hs
  have hserves := (supplied_run hrun hfits).serves
  obtain ⟨frames, rest, hmessages, hwire⟩ := hserves.carries
  have hlen := congrArg List.length hwire
  rw [List.length_append, Frame.length_flatMap_bytes, hmessages] at hlen
  rw [← hserves.consistent.order, List.map_append, List.sum_append]
  omega

/-- A read that completes has fewer bytes before it, or was for an empty header. -/
theorem Reached.toRead_next (hs : Reached h ok s) {now : UInt64} {inbound : Inbound}
    (hnext : Inbound.next h ⟨s.receiving, s.socket⟩ now = some inbound) :
    inbound.receiving.read ≠ none ∧ inbound.toRead < Inbound.toRead ⟨s.receiving, s.socket⟩ := by
  obtain ⟨headerBuf, headerBuf', preHeader, preHeader', trace, hrun, hfits, -⟩ := hs
  have hsupplied := supplied_run hrun hfits
  obtain ⟨frames, rest, hmessages, hwire⟩ := hsupplied.serves.carries
  have hframes : ∀ f ∈ frames, f.message.WellFormed ∧ h.Accepts f.message := by
    intro f hf
    refine hsupplied.pushed f.message ?_
    rw [← hsupplied.serves.consistent.order, ← hmessages]
    exact List.mem_append_left _ (List.mem_map_of_mem hf)
  obtain ⟨trace', receiving, hinbound, -, hsame | ⟨hread, -⟩⟩ := inbound_run hrun rest
  · subst hsame
    rw [hwire] at hinbound
    have hfollows := (Inbound.follows_run hinbound Inbound.follows_start hframes).1
    have hmore := Inbound.next_append hnext rest
    rcases hfollows.step hframes with hfinished | hadvances
    · rw [hfinished.next_eq_none] at hmore
      cases hmore
    · obtain ⟨s'', hthere, hfollows', hless⟩ := hadvances now
      rw [hmore] at hthere
      obtain rfl := Option.some.inj hthere
      constructor
      · intro hnone
        simp [Inbound.Follows, hnone] at hfollows'
      · -- the bytes that follow are the same before and after the read
        simp only [Inbound.toRead, List.length_append] at hless ⊢
        omega
  · simp [Inbound.next, hread] at hnext

omit [DecidableEq T] in
theorem pending_eq {read : Read} (hread : s.receiving.read = some read) :
    s.pending + 2 * s.socket.length = Inbound.toRead ⟨s.receiving, s.socket⟩ + 1 := by
  cases read with
  | preHeader | header | bodySeg =>
      simp only [pending, Inbound.toRead, hread]
      omega

/-- Every step but a push leaves a connection less to do, whatever fails. -/
theorem Reached.work_next (hs : Reached h ok s) {a : LinkAction T}
    (hown : ∀ t m, a ≠ .send (.push t m)) (hstep : Link.next h s a = some s') :
    s'.work < s.work := by
  have hwire := hs.wire_le
  cases a with
  | send a =>
      obtain ⟨sending, written, hnext, hgrown, rfl⟩ := send_next hstep
      have hserves : s.sending.Serves := by
        obtain ⟨headerBuf, headerBuf', preHeader, preHeader', trace, hrun, hfits, -⟩ := hs
        exact (supplied_run hrun hfits).serves
      have hsend : ∀ t m, a ≠ .push t m := fun t m heq => hown t m (congrArg _ heq)
      have hless := hserves.work_next hsend hnext
      have hpushed : sending.pushed = s.sending.pushed := by
        rcases (Sending.wire_pushed_next hnext).2 with ⟨t, m, heq, -⟩ | ⟨-, hsame⟩
        · exact absurd heq (hsend t m)
        · exact hsame
      simp only [work, unread, pending, hpushed, hgrown, List.length_append]
      omega
  | read now =>
      obtain ⟨⟨receiving, input⟩, hnext, rfl⟩ := read_next hstep
      obtain ⟨hpending, hless⟩ := hs.toRead_next hnext
      obtain ⟨read', hread'⟩ := Option.ne_none_iff_exists'.mp hpending
      obtain ⟨read, hread⟩ : ∃ read, s.receiving.read = some read := by
        refine Option.ne_none_iff_exists'.mp fun hnone => ?_
        simp [Inbound.next, hnone] at hnext
      have hbefore := pending_eq hread
      have hafter := pending_eq
        (s := { s with socket := input, receiving := receiving }) hread'
      simp only [work, unread] at hafter ⊢
      omega
  | readFails reason =>
      obtain ⟨hread, rfl⟩ := readFails_next hstep
      have hpos : 0 < s.pending := by
        unfold pending
        split
        · contradiction
        · exact Nat.succ_pos _
        · exact Nat.succ_pos _
      simp only [work, unread, pending, Receiving.abortConnection] at hpos ⊢
      omega

/-- A read leaves the sender alone. -/
theorem receive_sending {now : UInt64} {r : MessageRx}
    (hreceive : receive h s now = some (r, s')) : s'.sending = s.sending := by
  obtain ⟨inbound, -, rfl⟩ := read_next (receive_eq_some hreceive).1
  rfl

/-- A read that is something to the channel completes a message. -/
theorem exists_receive {now : UInt64} {event' : Channel.Event (UInt64 × UInt64 × Bytes × Bytes)}
    (hstep : next h s (.read now) = some s') (hevent : event h s (.read now) = some event') :
    ∃ r, receive h s now = some (r, s') := by
  have hmore : s.receiving.completed.length < s'.receiving.completed.length := by
    simp only [event, hstep, Option.bind_some] at hevent
    split at hevent
    · assumption
    · simp at hevent
  have hsome : (s'.receiving.completed.drop s.receiving.completed.length).head?.isSome = true := by
    rw [List.isSome_head?, ne_eq, List.drop_eq_nil_iff]
    omega
  obtain ⟨r, hr⟩ := Option.isSome_iff_exists.mp hsome
  exact ⟨r, by simp only [receive, hstep, Option.bind_some, hr, Option.map_some]⟩

/-- As long as nothing has failed and a message is in flight, an end of the connection can go
on without failing. -/
theorem Reached.exists_step (hs : Reached h ok s) (hok : ok) (hbusy : s.channel.queue ≠ []) :
    ∃ a s', a.Succeeds ∧ (∀ t m, a ≠ .send (.push t m)) ∧ Link.next h s a = some s' := by
  by_contra hstuck
  push Not at hstuck
  apply hbusy
  refine hs.queue_eq_nil hok ?_ fun now => ?_
  · by_contra hrest
    have htransmits : s.sending.Transmits := by
      obtain ⟨headerBuf, headerBuf', preHeader, preHeader', trace, hrun, hfits, hsucceeds⟩ := hs
      exact transmits_sending hrun hfits (hsucceeds hok)
    obtain ⟨a, sending, ⟨hproper, hown⟩, hnext, -⟩ := htransmits.exists_step hrest
    refine hstuck (.send a) _ ?_ (fun t m heq => ?_) (by rw [Link.next, hnext, Option.map_some])
    · cases a with
      | written w error n => exact hproper
      | push | post | trySend | reset | sendNext => trivial
    · exact hown t m (LinkAction.send.inj heq)
  · cases hread : Link.next h s (.read now) with
    | none => rfl
    | some s' => exact absurd hread (hstuck (.read now) s' trivial (by simp))

end Link

end Firehose.Network
