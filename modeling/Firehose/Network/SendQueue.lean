import Firehose.Network.Sender

set_option autoImplicit false

/-!
# The send queue

Threads push and post in any order, the thread of the `io_service` runs handlers, and
writes complete at any time, with or without an error.
-/

namespace Firehose.Network

open Firehose.Api Firehose.Foundation

namespace Sending

variable {T : Type}

/-- One write at a time; the completed messages, the one in transmission and the queue are
the pushed ones in their order; and between two handlers a message that waits while
nothing is in transmission has a `try_send` posted or about to be posted.  Inside a
handler it may also be that the handler itself is about to take the message. -/
structure Orderly (s : Sending T) : Prop where
  one : s.writes.length ≤ 1
  order : s.completed ++ s.inTransmission ++ s.sender.txQueue = s.pushed
  awake : s.io = .idle → s.sender.txQueue ≠ [] → s.sender.req = none →
    0 < s.posted ∨ s.between ≠ []
  popping : s.io ≠ .idle → s.sender.txQueue ≠ [] → s.sender.req = none → s.io = .popping

theorem Consistent.orderly {s : Sending T} (h : Consistent s) : Orderly s where
  one := h.one
  order := h.order
  awake := by
    intro hidle hqueue hreq
    rcases h.awake hqueue hreq with hposted | hbetween | hpopping
    · exact Or.inl hposted
    · exact Or.inr hbetween
    · rw [hidle] at hpopping
      cases hpopping
  popping := by
    intro hbusy _ hreq
    cases hio : s.io with
    | idle => exact absurd hio hbusy
    | finishing => exact absurd hreq (h.finishing hio)
    | popping => rfl

variable [DecidableEq T]

theorem consistent_run {headerBuf : Bytes} {preHeader : PreHeader}
    {trace : List (Sending T × SendAction T)} {s : Sending T}
    (h : Run (Steps next) (start headerBuf preHeader) trace s) :
    Throughout Consistent trace s :=
  h.keeps_throughout (consistent_start headerBuf preHeader)
    fun _ _ _ hinv hstep => hinv.next hstep

/-- A step taken while a write is pending leaves `pre_header` and `header_buf` alone. -/
theorem Consistent.buffers_eq {s s' : Sending T} (h : Consistent s) {a : SendAction T}
    (hpending : s.writes ≠ []) (hstep : s.next a = some s') :
    s'.sender.preHeader = s.sender.preHeader ∧ s'.sender.headerBuf = s.sender.headerBuf := by
  have hidle := (h.writing hpending).1
  cases a with
  | push t m =>
      obtain ⟨-, rfl⟩ := push_next hstep
      exact ⟨rfl, rfl⟩
  | post t =>
      obtain ⟨-, rfl⟩ := post_next hstep
      exact ⟨rfl, rfl⟩
  | trySend =>
      obtain ⟨-, -, rfl⟩ := trySend_next hstep
      exact ⟨rfl, rfl⟩
  | written w error n =>
      obtain ⟨-, -, -, sender, o, hhandle, rfl, -⟩ := h.written_cases hstep
      have hsame := MessageSender.handleSent_sameBuffers hhandle
      cases o with
      | writes | completes | aborts => exact ⟨hsame.preHeader, hsame.headerBuf⟩
  | reset =>
      obtain ⟨hio, -⟩ := reset_next hstep
      rw [hidle] at hio
      cases hio
  | sendNext now localDelta =>
      obtain ⟨hio, -⟩ := sendNext_next hstep
      rw [hidle] at hio
      cases hio

/-- In every run no message is lost, duplicated, reordered or left waiting, and no buffer
is rewritten while a write that uses it is pending. -/
theorem send_queue {headerBuf : Bytes} {preHeader : PreHeader}
    {trace : List (Sending T × SendAction T)} {s : Sending T}
    (h : Run (Steps next) (start headerBuf preHeader) trace s) :
    Throughout Orderly trace s ∧
      ∀ x ∈ trace, x.1.writes ≠ [] → ∀ s', x.1.next x.2 = some s' →
        s'.sender.preHeader = x.1.sender.preHeader ∧
          s'.sender.headerBuf = x.1.sender.headerBuf := by
  have hinv := consistent_run h
  refine ⟨⟨fun x hx => (hinv.1 x hx).orderly, hinv.2.orderly⟩, ?_⟩
  intro x hx hpending s' hstep
  exact (hinv.1 x hx).buffers_eq hpending hstep

/-- Two threads push a message each; the second `try_send` runs while the first message is
being written, so it is the end of that message that takes up the second one. -/
def pushTwice (t t' : T) : List (SendAction T) :=
  [.push t ⟨9, 0, [1, 2], 0, []⟩, .push t' ⟨9, 1, [3], 0, []⟩, .post t, .trySend,
    .sendNext 5 0, .post t', .written .prehdr none 48, .trySend, .written (.hdr 2) none 2,
    .reset, .sendNext 6 0]

theorem send_queue_pushTwice :
    ∃ (trace : List (Sending (Fin 2) × SendAction (Fin 2))) (s : Sending (Fin 2)),
      Run (Steps next) (start [] default) trace s ∧
        (s.completed = [⟨9, 0, [1, 2], 0, []⟩] ∧ s.sender.req = some ⟨9, 1, [3], 0, []⟩) ∧
        Throughout Orderly trace s := by
  obtain ⟨trace, s, hrun, hsent⟩ :=
    exists_run_of_execute (pushTwice 0 1) next (start [] default : Sending (Fin 2))
      (fun _ s => s.completed = [⟨9, 0, [1, 2], 0, []⟩] ∧
        s.sender.req = some ⟨9, 1, [3], 0, []⟩) (by decide +kernel)
  exact ⟨trace, s, hrun, hsent, (send_queue hrun).1⟩

end Sending

end Firehose.Network
