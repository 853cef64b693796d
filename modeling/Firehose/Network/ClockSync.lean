import Firehose.Foundation.Run
import Firehose.Network.Message
import Firehose.Util.SlidingWindow
import Mathlib.Logic.Function.Basic

set_option autoImplicit false

/-!
# Clock synchronisation (`network.h`)

Each end of a connection keeps the smallest difference it has seen lately between its own
clock when a message came and the other end's clock when it was sent, and tells the other
end.  Either difference is the offset of the two clocks, with its sign, and a transit time,
so their sum is a sum of transit times and half their difference is close to the offset.
-/

namespace Firehose.Network

open Firehose.Foundation Firehose.Util
open Function (update)

/-- The members of `class message_handler` for the synchronisation of the clocks. -/
structure ClockSync where
  localDelta : Int64
  remoteDelta : Int64
  localDeltaTracker : SlidingWindow Int64
  remoteDeltaTracker : SlidingWindow Int64

namespace ClockSync

def new : ClockSync := ⟨.maxValue, .maxValue, .new 1024, .new 1024⟩

/-- `synchronize`; there is no result when a window operation is undefined. -/
def synchronize (h : ClockSync) (localDelta remoteDelta : Int64) : Option ClockSync :=
  (h.localDeltaTracker.insert localDelta).bind fun localTracker =>
    (h.remoteDeltaTracker.insert remoteDelta).bind fun remoteTracker =>
      localTracker.getMin.bind fun localMin =>
        remoteTracker.getMin.map fun remoteMin =>
          ⟨localMin, remoteMin, localTracker, remoteTracker⟩

/-- `estimate_clock_delta` -/
def estimateClockDelta (h : ClockSync) : Int64 :=
  if h.remoteDelta = .maxValue then 0 else (h.localDelta - h.remoteDelta) / 2

/-- `estimate_rtt` -/
def estimateRtt (h : ClockSync) : Int64 :=
  if h.remoteDelta = .maxValue then 0 else h.localDelta + h.remoteDelta

/-- A difference of two clocks with the offset `theta`: the offset and a transit time that
is not negative. -/
structure Shifted (theta : Int) (delta : Int64) : Prop where
  le : theta ≤ delta.toInt
  low : -2 ^ 61 < delta.toInt
  high : delta.toInt < 2 ^ 61

/-- What one end knows of clocks with the offset `theta`: the differences it has seen
itself, and those it was told of, from the time the other end had something to tell. -/
structure Tracks (theta : Int) (h : ClockSync) : Prop where
  localAligned : h.localDeltaTracker.Aligned
  remoteAligned : h.remoteDeltaTracker.Aligned
  localSize : h.localDeltaTracker.windowSize = 1024
  remoteSize : h.remoteDeltaTracker.windowSize = 1024
  locals : ∀ delta ∈ h.localDeltaTracker.q, Shifted theta delta
  remotes : ∀ delta ∈ h.remoteDeltaTracker.q, delta = .maxValue ∨ Shifted (-theta) delta
  current : (h.localDelta = .maxValue ∧ h.remoteDelta = .maxValue) ∨
    (h.localDelta ∈ h.localDeltaTracker.q ∧ h.remoteDelta ∈ h.remoteDeltaTracker.q)

theorem tracks_new (theta : Int) : Tracks theta new where
  localAligned := SlidingWindow.aligned_new _
  remoteAligned := SlidingWindow.aligned_new _
  localSize := rfl
  remoteSize := rfl
  locals := by simp [new, SlidingWindow.new]
  remotes := by simp [new, SlidingWindow.new]
  current := Or.inl ⟨rfl, rfl⟩

variable {theta : Int} {h : ClockSync}

/-- What an end tells is nothing yet or a difference it has seen. -/
theorem Tracks.told (ht : Tracks theta h) :
    h.localDelta = .maxValue ∨ Shifted theta h.localDelta := by
  rcases ht.current with ⟨hnone, -⟩ | ⟨hmem, -⟩
  · exact Or.inl hnone
  · exact Or.inr (ht.locals _ hmem)

/-- A new minimum of a window of 1024 values is always defined, and one of the values. -/
theorem exists_insert_getMin {w : SlidingWindow Int64} (hw : w.Aligned)
    (hsize : w.windowSize = 1024) (delta : Int64) :
    ∃ w', w.insert delta = some w' ∧ w'.Aligned ∧ w'.windowSize = 1024 ∧
      ∃ least ∈ w'.q, w'.getMin = some least := by
  obtain ⟨w', hins, haligned, hsame, -⟩ := hw.insert delta
  have hpos : 0 < w.windowSize.toNat := by rw [hsize]; decide
  exact ⟨w', hins, haligned, hsame.trans hsize,
    haligned.exists_getMin (hw.insert_ne_nil hpos hins)⟩

/-- `synchronize` is always defined and keeps what is known. -/
theorem Tracks.synchronize (ht : Tracks theta h) {localDelta remoteDelta : Int64}
    (hlocal : Shifted theta localDelta)
    (hremote : remoteDelta = .maxValue ∨ Shifted (-theta) remoteDelta) :
    ∃ h', h.synchronize localDelta remoteDelta = some h' ∧ Tracks theta h' := by
  obtain ⟨localTracker, hins, haligned, hsize, localMin, hmem, hmin⟩ :=
    exists_insert_getMin ht.localAligned ht.localSize localDelta
  obtain ⟨remoteTracker, hins', haligned', hsize', remoteMin, hmem', hmin'⟩ :=
    exists_insert_getMin ht.remoteAligned ht.remoteSize remoteDelta
  refine ⟨⟨localMin, remoteMin, localTracker, remoteTracker⟩, ?_, haligned, haligned', hsize,
    hsize', fun delta hdelta => ?_, fun delta hdelta => ?_, Or.inr ⟨hmem, hmem'⟩⟩
  · simp [ClockSync.synchronize, hins, hins', hmin, hmin']
  · rcases ht.localAligned.mem_insert hins hdelta with hold | rfl
    · exact ht.locals delta hold
    · exact hlocal
  · rcases ht.remoteAligned.mem_insert hins' hdelta with hold | rfl
    · exact ht.remotes delta hold
    · exact hremote

/-- The estimates for clocks with the offset `theta`: both 0 until the other end has told
a difference, and from then on a round trip that is not negative and an offset that is
wrong by half of it at most, up to the division. -/
def Estimates (theta : Int) (h : ClockSync) : Prop :=
  if h.remoteDelta = .maxValue then h.estimateClockDelta = 0 ∧ h.estimateRtt = 0
  else 0 ≤ h.estimateRtt.toInt ∧
    |2 * h.estimateClockDelta.toInt - 2 * theta| ≤ h.estimateRtt.toInt + 1

/-- Halving drops at most one, towards zero. -/
theorem two_mul_tdiv_two (n : Int) : n - 1 ≤ 2 * n.tdiv 2 ∧ 2 * n.tdiv 2 ≤ n + 1 := by
  have hsign : Int.sign 2 = 1 := rfl
  rw [Int.tdiv_eq_ediv, hsign]
  split <;> omega

theorem Tracks.estimates (ht : Tracks theta h) : Estimates theta h := by
  unfold Estimates
  split
  · rename_i hnone
    simp [estimateClockDelta, estimateRtt, hnone]
  · rename_i hsome
    rcases ht.current with ⟨-, hnone⟩ | ⟨hmem, hmem'⟩
    · exact absurd hnone hsome
    · obtain ⟨hle, hlow, hhigh⟩ := ht.locals _ hmem
      obtain ⟨hle', hlow', hhigh'⟩ := (ht.remotes _ hmem').resolve_left hsome
      have hrtt : h.estimateRtt.toInt = h.localDelta.toInt + h.remoteDelta.toInt := by
        rw [estimateRtt, if_neg hsome, Int64.toInt_add]
        exact Int.bmod_eq_of_le (by omega) (by omega)
      have hdiff : (h.localDelta - h.remoteDelta).toInt =
          h.localDelta.toInt - h.remoteDelta.toInt := by
        rw [Int64.toInt_sub]
        exact Int.bmod_eq_of_le (by omega) (by omega)
      have hdelta : h.estimateClockDelta.toInt =
          (h.localDelta.toInt - h.remoteDelta.toInt).tdiv 2 := by
        rw [estimateClockDelta, if_neg hsome,
          Int64.toInt_div_of_ne_right _ _ (by decide), hdiff]
        rfl
      have hhalf := two_mul_tdiv_two (h.localDelta.toInt - h.remoteDelta.toInt)
      rw [hrtt, hdelta, abs_le]
      omega

end ClockSync

/-! ## Two ends of a connection -/

/-- The ends of a connection. -/
inductive Side
  | near
  | far
  deriving DecidableEq

/-- The other end. -/
def Side.peer : Side → Side
  | near => far
  | far => near

@[simp] theorem Side.peer_peer (side : Side) : side.peer.peer = side := by cases side <;> rfl

/-- A message on its way, as far as its pre-header; `sentTime` is the time it was sent at,
which neither end knows. -/
structure InFlight where
  preHeader : PreHeader
  sentTime : Int
  deriving DecidableEq

/-- Two connected handlers, and the messages on their way to either. -/
structure ClockLink where
  handler : Side → ClockSync
  flight : Side → List InFlight

/-- An end starts to send a message, or has read the header of one that is on its way; the
time is that of `util::now`. -/
inductive ClockEvent
  | send (side : Side) (time : Int) (m : MessageTx)
  | receive (side : Side) (time : Int) (x : InFlight)

namespace ClockLink

def start : ClockLink := ⟨fun _ => .new, fun _ => []⟩

/-- The clock of an end, which is `offset` ahead of the time. -/
def clock (offset : Side → Int) (side : Side) (time : Int) : UInt64 :=
  UInt64.ofNat (time + offset side).toNat

/-- What `start_send` and `handle_header_read` do to the clocks.  A message on its way may
be received before one that was sent earlier. -/
def next (offset : Side → Int) (link : ClockLink) : ClockEvent → Option ClockLink
  | .send side time m =>
      let x : InFlight :=
        ⟨m.preHeader (clock offset side time) (link.handler side).localDelta, time⟩
      some { link with
        flight := update link.flight side.peer (link.flight side.peer ++ [x]) }
  | .receive side time x =>
      if x ∈ link.flight side then
        ((link.handler side).synchronize
            (clock offset side time - x.preHeader.sentAt).toInt64
            x.preHeader.localDelta.toInt64).map fun h =>
          { handler := update link.handler side h
            flight := update link.flight side ((link.flight side).erase x) }
      else none

/-- The clock of an end at a time is below 2^61. -/
def InRange (offset : Side → Int) (side : Side) (time : Int) : Prop :=
  0 ≤ time + offset side ∧ time + offset side < 2 ^ 61

instance (offset : Side → Int) (side : Side) (time : Int) :
    Decidable (InRange offset side time) := inferInstanceAs (Decidable (_ ∧ _))

/-- The clocks are below 2^61, and no message comes before it was sent. -/
def Timely (offset : Side → Int) : ClockEvent → Prop
  | .send side time _ => InRange offset side time
  | .receive side time x => InRange offset side time ∧ x.sentTime ≤ time

instance (offset : Side → Int) : (event : ClockEvent) → Decidable (Timely offset event)
  | .send side time _ => inferInstanceAs (Decidable (InRange offset side time))
  | .receive _ _ _ => inferInstanceAs (Decidable (_ ∧ _))

/-- How far the clock of an end is ahead of the other one. -/
def theta (offset : Side → Int) (side : Side) : Int := offset side - offset side.peer

theorem theta_peer (offset : Side → Int) (side : Side) :
    theta offset side.peer = -theta offset side := by
  unfold theta
  rw [Side.peer_peer, Int.neg_sub]

theorem toNat_clock {offset : Side → Int} {side : Side} {time : Int}
    (h : InRange offset side time) : ((clock offset side time).toNat : Int) =
      time + offset side := by
  obtain ⟨hlow, hhigh⟩ := h
  have hlt : (time + offset side).toNat < 2 ^ 64 := by omega
  unfold clock
  rw [UInt64.toNat_ofNat_of_lt' hlt]
  omega

/-- A message on its way to an end carries the other clock at the time it was sent, and what
the other end had to tell. -/
structure Stamped (offset : Side → Int) (side : Side) (x : InFlight) : Prop where
  range : InRange offset side.peer x.sentTime
  sentAt : (x.preHeader.sentAt.toNat : Int) = x.sentTime + offset side.peer
  told : x.preHeader.localDelta.toInt64 = .maxValue ∨
    ClockSync.Shifted (theta offset side.peer) x.preHeader.localDelta.toInt64

/-- Both ends know differences of the clocks, and so does every message. -/
structure Synced (offset : Side → Int) (link : ClockLink) : Prop where
  tracks : ∀ side, (link.handler side).Tracks (theta offset side)
  stamped : ∀ side, ∀ x ∈ link.flight side, Stamped offset side x

theorem synced_start (offset : Side → Int) : Synced offset start where
  tracks := fun side => ClockSync.tracks_new _
  stamped := by simp [start]

variable {offset : Side → Int} {link link' : ClockLink}

theorem Synced.send (h : Synced offset link) {side : Side} {time : Int} {m : MessageTx}
    (htimely : Timely offset (.send side time m))
    (hstep : Steps (next offset) link (.send side time m) link') : Synced offset link' := by
  simp only [Steps, next, Option.some.injEq] at hstep
  subst hstep
  refine ⟨h.tracks, fun side' x hx => ?_⟩
  by_cases hside : side' = side.peer
  · subst hside
    simp only [Function.update_self, List.mem_append, List.mem_singleton] at hx
    rcases hx with hold | rfl
    · exact h.stamped _ x hold
    · have hrange : InRange offset side time := htimely
      refine ⟨?_, ?_, ?_⟩
      · simpa using hrange
      · simpa [MessageTx.preHeader] using toNat_clock hrange
      · simpa [MessageTx.preHeader] using (h.tracks side).told
  · simp only [Function.update_of_ne hside] at hx
    exact h.stamped side' x hx

/-- The difference that a message shows: the offset and its transit time. -/
theorem Stamped.shifted {side : Side} {x : InFlight} (hx : Stamped offset side x) {time : Int}
    (hrange : InRange offset side time) (hsent : x.sentTime ≤ time) :
    ClockSync.Shifted (theta offset side)
      (clock offset side time - x.preHeader.sentAt).toInt64 := by
  have hclock := toNat_clock hrange
  have hsentAt := hx.sentAt
  obtain ⟨hlow, hhigh⟩ := hrange
  obtain ⟨hlow', hhigh'⟩ := hx.range
  have hdelta : (clock offset side time - x.preHeader.sentAt).toInt64.toInt =
      ((clock offset side time).toNat : Int) - x.preHeader.sentAt.toNat :=
    toInt_toInt64_sub (by omega) (by omega)
  unfold theta
  exact ⟨by omega, by omega, by omega⟩

theorem Synced.receive (h : Synced offset link) {side : Side} {time : Int} {x : InFlight}
    (htimely : Timely offset (.receive side time x))
    (hstep : Steps (next offset) link (.receive side time x) link') : Synced offset link' := by
  simp only [Steps, next] at hstep
  split at hstep
  · rename_i hmem
    obtain ⟨h', hsync, rfl⟩ := Option.map_eq_some_iff.mp hstep
    have hx := h.stamped side x hmem
    have htold := hx.told
    rw [theta_peer] at htold
    obtain ⟨h'', hsync', htracks⟩ :=
      (h.tracks side).synchronize (hx.shifted htimely.1 htimely.2) htold
    rw [hsync, Option.some.injEq] at hsync'
    subst hsync'
    refine ⟨fun side' => ?_, fun side' y hy => ?_⟩
    · by_cases hside : side' = side
      · subst hside
        simpa using htracks
      · simpa [hside] using h.tracks side'
    · by_cases hside : side' = side
      · subst hside
        simp only [Function.update_self] at hy
        exact h.stamped _ y (List.mem_of_mem_erase hy)
      · simp only [Function.update_of_ne hside] at hy
        exact h.stamped side' y hy
  · simp at hstep

theorem synced_run {trace : List (ClockLink × ClockEvent)}
    (h : Run (Steps (next offset)) start trace link)
    (htimely : ∀ x ∈ trace, Timely offset x.2) : Synced offset link := by
  refine h.invariant (C := fun _ event => Timely offset event) htimely (synced_start offset) ?_
  intro link event link' hinv hevent hstep
  cases event with
  | send => exact hinv.send hevent hstep
  | receive => exact hinv.receive hevent hstep

/-- In every state that two ends can reach, whatever they send and however long it takes,
the estimates of either are within the round trip of the offset. -/
theorem estimates_run {trace : List (ClockLink × ClockEvent)}
    (h : Run (Steps (next offset)) start trace link)
    (htimely : ∀ x ∈ trace, Timely offset x.2) (side : Side) :
    (link.handler side).Estimates (theta offset side) :=
  ((synced_run h htimely).tracks side).estimates

/-- One message each way, between clocks of which the far one is 500 ahead. -/
def pingPong (m : MessageTx) : List ClockEvent :=
  [.send .near 1000 m, .receive .far 1010 ⟨m.preHeader 1000 .maxValue, 1000⟩,
    .send .far 1020 m, .receive .near 1040 ⟨m.preHeader 1520 510, 1020⟩]

/-- The clock of the far end is 500 ahead. -/
def aheadFar : Side → Int
  | .near => 0
  | .far => 500

theorem estimates_pingPong :
    ∃ trace link, Run (Steps (next aheadFar)) start trace link ∧
      (link.handler .near).estimateRtt = 30 ∧
      (link.handler .near).estimateClockDelta = -495 ∧
      (link.handler .near).Estimates (theta aheadFar .near) := by
  obtain ⟨trace, link, hrun, htimely, hrtt, hdelta⟩ :=
    exists_run_of_execute (pingPong ⟨1, 1, [], 0, []⟩) (next aheadFar) start
      (fun trace link => (∀ x ∈ trace, Timely aheadFar x.2) ∧
        (link.handler .near).estimateRtt = 30 ∧
        (link.handler .near).estimateClockDelta = -495) (by decide +kernel)
  exact ⟨trace, link, hrun, hrtt, hdelta, estimates_run hrun htimely .near⟩

end ClockLink

end Firehose.Network
