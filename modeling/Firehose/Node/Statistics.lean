import Firehose.Foundation.Run
import Firehose.Network.Message
import Mathlib.Algebra.BigOperators.Group.List.Basic
import Mathlib.Data.Fintype.Basic

set_option autoImplicit false

/-!
# The traffic figures of a pump (`pump.cpp`)

`networkPrintThread` adds up the counters of all connections, takes off what it had added
up before, and assigns the difference to the sum it keeps.  The assignment operator of the
counters adds, so what is kept is the sum again.
-/

namespace Firehose.Node

open Firehose.Foundation Firehose.Network

/-- The counters of `connection_stats`. -/
inductive Counter
  | bytesSent
  | bytesReceived
  | messagesSent
  | messagesReceived
  deriving DecidableEq

instance : Fintype Counter where
  elems := {.bytesSent, .bytesReceived, .messagesSent, .messagesReceived}
  complete := by intro c; cases c <;> decide

/-- The value of a counter. -/
def Counter.read : Counter → ConnectionStats → UInt64
  | bytesSent, stats => stats.bytesSent
  | bytesReceived, stats => stats.bytesReceived
  | messagesSent, stats => stats.messagesSent
  | messagesReceived, stats => stats.messagesReceived

@[simp] theorem Counter.read_zero (c : Counter) : c.read .zero = 0 := by cases c <;> rfl

@[simp] theorem Counter.read_add (c : Counter) (stats rhs : ConnectionStats) :
    c.read (stats.add rhs) = c.read stats + c.read rhs := by cases c <;> rfl

@[simp] theorem Counter.read_sub (c : Counter) (stats rhs : ConnectionStats) :
    c.read (stats.sub rhs) = c.read stats - c.read rhs := by cases c <;> rfl

/-- The sum of a counter over some connections, as a number. -/
def total (c : Counter) (readings : List ConnectionStats) : Nat :=
  (readings.map fun stats => (c.read stats).toNat).sum

/-- Connections are added at the end of a list, and no counter of a connection falls. -/
def Grown : List ConnectionStats → List ConnectionStats → Prop
  | [], _ => True
  | _ :: _, [] => False
  | before :: old, after :: new => (∀ c : Counter, c.read before ≤ c.read after) ∧ Grown old new

instance Grown.decide : (old new : List ConnectionStats) → Decidable (Grown old new)
  | [], _ => isTrue trivial
  | _ :: _, [] => isFalse id
  | _ :: old, _ :: new =>
      have := Grown.decide old new
      inferInstanceAs (Decidable (_ ∧ _))

theorem Grown.total_le {old new : List ConnectionStats} (h : Grown old new) (c : Counter) :
    total c old ≤ total c new := by
  induction old generalizing new with
  | nil => exact Nat.zero_le _
  | cons before old ih =>
      cases new with
      | nil => exact absurd h id
      | cons after new =>
          obtain ⟨hone, hrest⟩ := h
          have hread := UInt64.le_iff_toNat_le.mp (hone c)
          have htotal := ih hrest
          simp only [total, List.map_cons, List.sum_cons] at htotal ⊢
          omega

/-! ## One side of the statistics -/

/-- What `networkPrintThread` keeps for the engines or for the publishers: the variable
`…_previous_stats`, with the readings it was computed from and the figures of all rounds. -/
structure Meter where
  previous : ConnectionStats
  readings : List ConnectionStats
  figures : List ConnectionStats

namespace Meter

/-- Before the first round. -/
def new : Meter := ⟨.zero, [], []⟩

/-- `…_stats` after the loop over the connections. -/
def sum (readings : List ConnectionStats) : ConnectionStats :=
  readings.foldl ConnectionStats.add .zero

/-- `…_stats -= …_previous_stats` -/
def figure (meter : Meter) (readings : List ConnectionStats) : ConnectionStats :=
  (sum readings).sub meter.previous

/-- One round, up to the division by the duration. -/
def round (meter : Meter) (readings : List ConnectionStats) : Meter where
  previous := meter.previous.assign (meter.figure readings)
  readings := readings
  figures := meter.figures ++ [meter.figure readings]

/-- Below 2^64 the sum of the counters does not wrap. -/
theorem toNat_read_sum {c : Counter} {readings : List ConnectionStats}
    (hfew : total c readings < 2 ^ 64) :
    (c.read (sum readings)).toNat = total c readings := by
  have hfold : ∀ start : ConnectionStats,
      (c.read start).toNat + total c readings < 2 ^ 64 →
        (c.read (readings.foldl ConnectionStats.add start)).toNat =
          (c.read start).toNat + total c readings := by
    induction readings with
    | nil => simp [total]
    | cons stats rest ih =>
        intro start hstart
        simp only [total, List.map_cons, List.sum_cons] at hstart hfew ih ⊢
        have hone : (c.read (start.add stats)).toNat =
            (c.read start).toNat + (c.read stats).toNat := by
          rw [Counter.read_add, UInt64.toNat_add]
          exact Nat.mod_eq_of_lt (by omega)
        rw [List.foldl_cons, ih (by omega) _ (by omega), hone, Nat.add_assoc]
  have hsum := hfold .zero (by simpa using hfew)
  simpa [sum] using hsum

/-- The sum kept is the sum of the counters last read, and the figures add up to it. -/
structure Exact (meter : Meter) : Prop where
  few : ∀ c, total c meter.readings < 2 ^ 64
  previous_eq : ∀ c : Counter, (c.read meter.previous).toNat = total c meter.readings
  figures_eq : ∀ c : Counter, total c meter.figures = total c meter.readings

theorem exact_new : Exact new where
  few := by simp [new, total]
  previous_eq := by simp [new, total]
  figures_eq := by simp [new]

/-- What a round is about: the counters have grown and are below 2^64 together. -/
structure Reads (meter : Meter) (readings : List ConnectionStats) : Prop where
  grown : Grown meter.readings readings
  few : ∀ c, total c readings < 2 ^ 64

instance (meter : Meter) (readings : List ConnectionStats) : Decidable (meter.Reads readings) :=
  decidable_of_iff (Grown meter.readings readings ∧ ∀ c, total c readings < 2 ^ 64)
    ⟨fun h => ⟨h.1, h.2⟩, fun h => ⟨h.grown, h.few⟩⟩

/-- A round does not subtract more than there is, and what it prints is the increase of the
sum since the round before. -/
structure Measures (meter : Meter) (readings : List ConnectionStats) : Prop where
  no_underflow : ∀ c : Counter, c.read meter.previous ≤ c.read (sum readings)
  increase : ∀ c : Counter,
    total c meter.readings + (c.read (meter.figure readings)).toNat = total c readings

variable {meter : Meter} {readings : List ConnectionStats}

theorem Exact.measures (h : Exact meter) (hreads : Reads meter readings) :
    Measures meter readings := by
  have hle : ∀ c : Counter, c.read meter.previous ≤ c.read (sum readings) := by
    intro c
    rw [UInt64.le_iff_toNat_le, h.previous_eq, toNat_read_sum (hreads.few c)]
    exact hreads.grown.total_le c
  refine ⟨hle, fun c => ?_⟩
  have htotal := hreads.grown.total_le c
  rw [figure, Counter.read_sub, UInt64.toNat_sub_of_le _ _ (hle c), h.previous_eq,
    toNat_read_sum (hreads.few c)]
  omega

/-- The assignment adds the figure to what was kept, and that is the sum just read. -/
theorem Exact.round (h : Exact meter) (hreads : Reads meter readings) :
    Exact (meter.round readings) := by
  have hmeasures := h.measures hreads
  refine ⟨hreads.few, fun c => ?_, fun c => ?_⟩
  · have hincrease := hmeasures.increase c
    have hprevious := h.previous_eq c
    have hfew := hreads.few c
    show (c.read (meter.previous.add (meter.figure readings))).toNat = total c readings
    rw [Counter.read_add, UInt64.toNat_add, hprevious, hincrease, Nat.mod_eq_of_lt hfew]
  · have hincrease := hmeasures.increase c
    have hfigures := h.figures_eq c
    show total c (meter.figures ++ [meter.figure readings]) = total c readings
    have hsplit : total c (meter.figures ++ [meter.figure readings]) =
        total c meter.figures + (c.read (meter.figure readings)).toNat := by simp [total]
    omega

end Meter

/-! ## The thread -/

/-- The variables of `networkPrintThread`. -/
structure PrintThread where
  lastPrint : UInt64
  engines : Meter
  publishers : Meter

/-- A turn of its loop: the time it reads, and what the connections have counted when it
reads them. -/
structure Turn where
  now : UInt64
  engines : List ConnectionStats
  publishers : List ConnectionStats

namespace PrintThread

def start (now : UInt64) : PrintThread := ⟨now, .new, .new⟩

/-- The time since the last round is long enough for another one. -/
def Prints (thread : PrintThread) (turn : Turn) : Prop :=
  ¬ turn.now < thread.lastPrint + 1000000000

instance (thread : PrintThread) (turn : Turn) : Decidable (thread.Prints turn) :=
  inferInstanceAs (Decidable (¬ _))

/-- One turn: nothing before the time, else a round on either side. -/
def next (thread : PrintThread) (turn : Turn) : Option PrintThread :=
  if thread.Prints turn then
    some ⟨turn.now, thread.engines.round turn.engines, thread.publishers.round turn.publishers⟩
  else some thread

/-- A round finds the counters of either side grown and below 2^64 together. -/
def Reads (thread : PrintThread) (turn : Turn) : Prop :=
  thread.Prints turn →
    thread.engines.Reads turn.engines ∧ thread.publishers.Reads turn.publishers

instance (thread : PrintThread) (turn : Turn) : Decidable (thread.Reads turn) :=
  inferInstanceAs (Decidable (_ → _ ∧ _))

/-- In every state each side keeps the sum it has read, each round prints the increase, and
the figures printed so far add up to the sum. -/
structure Telescopes (trace : List (PrintThread × Turn)) (thread : PrintThread) : Prop where
  kept : Throughout (fun thread => thread.engines.Exact ∧ thread.publishers.Exact) trace thread
  rounds : ∀ x ∈ trace, x.1.Prints x.2 →
    x.1.engines.Measures x.2.engines ∧ x.1.publishers.Measures x.2.publishers

/-- Traffic statistics telescope. -/
theorem telescopes_run {now : UInt64} {trace : List (PrintThread × Turn)} {thread : PrintThread}
    (h : Run (Steps next) (start now) trace thread) (hreads : ∀ x ∈ trace, x.1.Reads x.2) :
    Telescopes trace thread := by
  have hkept : Throughout (fun thread : PrintThread =>
      thread.engines.Exact ∧ thread.publishers.Exact) trace thread := by
    refine h.throughout hreads ⟨Meter.exact_new, Meter.exact_new⟩ ?_
    rintro thread turn thread' ⟨hengines, hpublishers⟩ hturn hstep
    simp only [Steps, next] at hstep
    split at hstep
    · rename_i hprints
      obtain ⟨hread, hread'⟩ := hturn hprints
      rw [← Option.some.inj hstep]
      exact ⟨hengines.round hread, hpublishers.round hread'⟩
    · rw [← Option.some.inj hstep]
      exact ⟨hengines, hpublishers⟩
  refine ⟨hkept, fun x hx hprints => ?_⟩
  obtain ⟨hengines, hpublishers⟩ := hkept.1 x hx
  obtain ⟨hread, hread'⟩ := hreads x hx hprints
  exact ⟨hengines.measures hread, hpublishers.measures hread'⟩

/-- Between two rounds an engine is connected and the first one counts on. -/
def twoRounds : List Turn :=
  [⟨2000000000, [⟨100, 10, 2, 1⟩], [⟨0, 5, 0, 1⟩]⟩,
    ⟨4000000000, [⟨150, 10, 3, 1⟩, ⟨7, 0, 1, 0⟩], [⟨0, 9, 0, 2⟩]⟩]

theorem telescopes_twoRounds :
    ∃ trace thread, Run (Steps next) (start 0) trace thread ∧
      thread.engines.previous = ⟨157, 10, 4, 1⟩ ∧
      thread.engines.figures = [⟨100, 10, 2, 1⟩, ⟨57, 0, 2, 0⟩] ∧ Telescopes trace thread := by
  obtain ⟨trace, thread, hrun, hreads, hprevious, hfigures⟩ :=
    exists_run_of_execute twoRounds next (start 0)
      (fun trace thread => (∀ x ∈ trace, x.1.Reads x.2) ∧
        thread.engines.previous = ⟨157, 10, 4, 1⟩ ∧
        thread.engines.figures = [⟨100, 10, 2, 1⟩, ⟨57, 0, 2, 0⟩]) (by decide +kernel)
  exact ⟨trace, thread, hrun, hprevious, hfigures, telescopes_run hrun hreads⟩

end PrintThread

end Firehose.Node
