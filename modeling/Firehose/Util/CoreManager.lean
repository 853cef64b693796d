import Firehose.Foundation.Pool
import Firehose.Foundation.Run

set_option autoImplicit false

/-!
# The cores of the threads (`thread.cpp`)

Threads are bound to cores that the core manager hands out.  A call searches the cores that
suit its GPU and then all cores, and ends the process where it finds none.
-/

namespace Firehose.Util

open Firehose.Foundation

/-- `CoreManager` -/
structure CoreManager where
  inUse : List Bool
  gpuAffinity : List (List UInt32)

namespace CoreManager

/-! ## The calls -/

/-- `in_use[core] = true`, which is undefined outside the vector. -/
def use (m : CoreManager) (core : UInt32) : Option CoreManager :=
  if core.toNat < m.inUse.length then
    some { m with inUse := m.inUse.set core.toNat true }
  else none

/-- The constructor, which keeps the cores 0 and 1 out of use.  The table of the GPUs is
public and filled in from outside. -/
def new (coreCount : UInt32) (gpuAffinity : List (List UInt32)) : Option CoreManager := do
  let m ← use ⟨List.replicate coreCount.toNat false, gpuAffinity⟩ 0
  m.use 1

/-- The entry of the table that the counter `i` stands at, if the GPU is in the table and
`i` is below the size of its list. -/
def suited (m : CoreManager) (gpuId i : UInt32) : Option UInt32 :=
  m.gpuAffinity[gpuId.toNat]?.bind fun cores => cores[i.toNat]?

/-- The calls `alloc(gpu_id)` and `alloc(count, gpu_id)`, the latter with its counter and
its vector. -/
inductive Call
  | one (gpuId : UInt32)
  | many (count gpuId i : UInt32) (result : List UInt32)
  deriving DecidableEq

def Call.gpuId : Call → UInt32
  | one gpuId => gpuId
  | many _ gpuId _ _ => gpuId

/-- The cores that a call has got and not returned. -/
def Call.pending : Call → List UInt32
  | one _ => []
  | many _ _ _ result => result

/-- The two loops of `alloc(gpu_id)`. -/
inductive Search
  | affinity (i : UInt32)
  | anyCore (i : UInt32)
  deriving DecidableEq

/-- Where the program is: between two calls, in a loop of a call, or past `exit`. -/
inductive Control
  | idle
  | running (call : Call) (search : Search)
  | exited (call : Call)
  deriving DecidableEq

def Control.pending : Control → List UInt32
  | idle => []
  | running call _ => call.pending
  | exited call => call.pending

/-- The manager, where the program is, and what the calls have returned. -/
structure State where
  manager : CoreManager
  control : Control
  results : List (List UInt32)

def start (m : CoreManager) : State := ⟨m, .idle, []⟩

/-- Every core that was handed out, in the order of the calls. -/
def State.handedOut (s : State) : List UInt32 := s.results.flatten ++ s.control.pending

def State.search (s : State) (call : Call) (search : Search) : State :=
  { s with control := .running call search }

def State.answer (s : State) (result : List UInt32) : State :=
  { s with control := .idle, results := s.results ++ [result] }

/-- The head of the loop of `alloc(count, gpu_id)`. -/
def State.loop (s : State) (count gpuId i : UInt32) (result : List UInt32) : State :=
  if i < count then s.search (.many count gpuId i result) (.affinity 0) else s.answer result

/-- `alloc(gpu_id)` returns a core, to the program or to the loop. -/
def State.returns (s : State) (core : UInt32) : Call → State
  | .one _ => s.answer [core]
  | .many count gpuId i result => s.loop count gpuId (i + 1) (result ++ [core])

/-- `in_use[core] = true; return core;` -/
def State.take (s : State) (call : Call) (core : UInt32) : Option State :=
  (s.manager.use core).map fun manager => { s with manager := manager }.returns core call

/-- One turn of a loop of `alloc(gpu_id)`.  The first loop reads `in_use` at an entry of the
table, the second one below its size; the counters wrap. -/
def State.turn (s : State) (call : Call) : Search → Option State
  | .affinity i =>
      match s.manager.suited call.gpuId i with
      | none => some (s.search call (.anyCore 0))
      | some core =>
          match s.manager.inUse[core.toNat]? with
          | none => none
          | some true => some (s.search call (.affinity (i + 1)))
          | some false => s.take call core
  | .anyCore i =>
      match s.manager.inUse[i.toNat]? with
      | none => some { s with control := .exited call }
      | some true => some (s.search call (.anyCore (i + 1)))
      | some false => s.take call i

/-- The program makes a call, or the call makes a turn. -/
inductive Action
  | alloc (gpuId : UInt32)
  | allocMany (count gpuId : UInt32)
  | turn
  deriving DecidableEq

def next (s : State) (a : Action) : Option State :=
  match s.control, a with
  | .idle, .alloc gpuId => some (s.search (.one gpuId) (.affinity 0))
  | .idle, .allocMany count gpuId => some (s.loop count gpuId 0 [])
  | .running call search, .turn => s.turn call search
  | _, _ => none

variable {m : CoreManager} {s s' : State} {call : Call} {search : Search} {core coreCount : UInt32}
variable {gpuAffinity : List (List UInt32)} {trace : List (State × Action)}

/-! ## What a turn does -/

theorem use_of_free (h : m.inUse[core.toNat]? = some false) :
    m.use core = some { m with inUse := m.inUse.set core.toNat true } := by
  obtain ⟨hlt, -⟩ := List.getElem?_eq_some_iff.mp h
  rw [use, if_pos hlt]

theorem use_eq_some {m' : CoreManager} (h : m.use core = some m') :
    core.toNat < m.inUse.length ∧ m' = { m with inUse := m.inUse.set core.toNat true } := by
  unfold use at h
  split at h
  · rename_i hlt
    exact ⟨hlt, (Option.some.inj h).symm⟩
  · simp at h

/-- The manager after a core is taken. -/
def State.marked (s : State) (core : UInt32) : State :=
  { s with manager := { s.manager with inUse := s.manager.inUse.set core.toNat true } }

/-- Everything a turn can do. -/
inductive Turn (s : State) (call : Call) : Search → State → Prop
  | taken {search : Search} {core : UInt32} :
      s.manager.inUse[core.toNat]? = some false →
      Turn s call search ((s.marked core).returns core call)
  | passed {i core : UInt32} : s.manager.suited call.gpuId i = some core →
      Turn s call (.affinity i) (s.search call (.affinity (i + 1)))
  | widened {i : UInt32} : s.manager.suited call.gpuId i = none →
      Turn s call (.affinity i) (s.search call (.anyCore 0))
  | skipped {i : UInt32} : s.manager.inUse[i.toNat]? = some true →
      Turn s call (.anyCore i) (s.search call (.anyCore (i + 1)))
  | exhausted {i : UInt32} : s.manager.inUse.length ≤ i.toNat →
      Turn s call (.anyCore i) { s with control := .exited call }

theorem take_of_free (h : s.manager.inUse[core.toNat]? = some false) :
    s.take call core = some ((s.marked core).returns core call) := by
  rw [State.take, use_of_free h]
  rfl

theorem turn_eq_some (h : s.turn call search = some s') : Turn s call search s' := by
  cases search with
  | affinity i =>
      simp only [State.turn] at h
      split at h
      · rename_i hnone
        obtain rfl := Option.some.inj h
        exact .widened hnone
      · rename_i core hcore
        split at h
        · simp at h
        · obtain rfl := Option.some.inj h
          exact .passed hcore
        · rename_i hfree
          rw [take_of_free hfree] at h
          obtain rfl := Option.some.inj h
          exact .taken hfree
  | anyCore i =>
      simp only [State.turn] at h
      split at h
      · rename_i hnone
        obtain rfl := Option.some.inj h
        exact .exhausted (List.getElem?_eq_none_iff.mp hnone)
      · rename_i hup
        obtain rfl := Option.some.inj h
        exact .skipped hup
      · rename_i hfree
        rw [take_of_free hfree] at h
        obtain rfl := Option.some.inj h
        exact .taken hfree

/-- Everything a step can do. -/
theorem next_cases {a : Action} (h : Steps next s a s') :
    (∃ gpuId, a = .alloc gpuId ∧ s.control = .idle ∧
      s' = s.search (.one gpuId) (.affinity 0)) ∨
    (∃ count gpuId, a = .allocMany count gpuId ∧ s.control = .idle ∧
      s' = s.loop count gpuId 0 []) ∨
    ∃ call search, a = .turn ∧ s.control = .running call search ∧ Turn s call search s' := by
  unfold Steps next at h
  split at h
  · rename_i gpuId hidle
    exact Or.inl ⟨gpuId, rfl, hidle, (Option.some.inj h).symm⟩
  · rename_i count gpuId hidle
    exact Or.inr (Or.inl ⟨count, gpuId, rfl, hidle, (Option.some.inj h).symm⟩)
  · rename_i call search hrunning
    exact Or.inr (Or.inr ⟨call, search, rfl, hrunning, turn_eq_some h⟩)
  · simp at h

/-! ## The books of the manager -/

/-- The cores, of which 0 and 1 are not given to threads. -/
def cores : Pool UInt32 where
  index := UInt32.toNat
  index_injective := fun _ _ => UInt32.toNat_inj.mp
  Reserved := fun core => core = 0 ∨ core = 1

/-- The number of cores that the search through all of them has found in use. -/
def Control.scanned (size : Nat) : Control → Nat
  | running _ (.anyCore i) => i.toNat
  | exited _ => size
  | _ => 0

/-- The table of a machine with `coreCount` cores accounts for what was handed out. -/
structure Accounted (coreCount : UInt32) (s : State) : Prop where
  length_eq : s.manager.inUse.length = coreCount.toNat
  entries : ∀ cores ∈ s.manager.gpuAffinity, ∀ core ∈ cores, core < coreCount
  books : cores.Books s.manager.inUse s.handedOut
  scanned : Pool.Scanned s.manager.inUse (s.control.scanned s.manager.inUse.length)

@[simp] theorem handedOut_search (s : State) (call : Call) (search : Search) :
    (s.search call search).handedOut = s.results.flatten ++ call.pending := rfl

@[simp] theorem handedOut_answer (s : State) (result : List UInt32) :
    (s.answer result).handedOut = s.results.flatten ++ result := by
  simp [State.handedOut, State.answer, Control.pending]

theorem handedOut_of_running (h : s.control = .running call search) :
    s.handedOut = s.results.flatten ++ call.pending := by
  rw [State.handedOut, h, Control.pending]

theorem handedOut_of_idle (h : s.control = .idle) : s.handedOut = s.results.flatten := by
  rw [State.handedOut, h, Control.pending, List.append_nil]

/-- The loop starts a search for the next core or returns its vector. -/
theorem loop_cases (s : State) (count gpuId i : UInt32) (result : List UInt32) :
    (i < count ∧ s.loop count gpuId i result =
      s.search (.many count gpuId i result) (.affinity 0)) ∨
    s.loop count gpuId i result = s.answer result := by
  unfold State.loop
  split
  · rename_i hlt
    exact Or.inl ⟨hlt, rfl⟩
  · exact Or.inr rfl

/-- The loop adds nothing to what was handed out, and no search of all cores is on. -/
theorem loop_spec (s : State) (count gpuId i : UInt32) (result : List UInt32) (size : Nat) :
    (s.loop count gpuId i result).manager = s.manager ∧
      (s.loop count gpuId i result).handedOut = s.results.flatten ++ result ∧
      (s.loop count gpuId i result).control.scanned size = 0 := by
  rcases loop_cases s count gpuId i result with ⟨-, heq⟩ | heq
  · rw [heq]
    exact ⟨rfl, handedOut_search _ _ _, rfl⟩
  · rw [heq]
    exact ⟨rfl, handedOut_answer _ _, rfl⟩

/-- A returned core is added to what was handed out, and no search of all cores is on. -/
theorem returns_spec (s : State) (core : UInt32) (call : Call) (size : Nat) :
    (s.returns core call).manager = s.manager ∧
      (s.returns core call).handedOut = s.results.flatten ++ (call.pending ++ [core]) ∧
      (s.returns core call).control.scanned size = 0 := by
  cases call with
  | one gpuId => exact ⟨rfl, handedOut_answer _ _, rfl⟩
  | many count gpuId i result => exact loop_spec s count gpuId (i + 1) (result ++ [core]) size

/-- A step that leaves the table alone has only its scan to account for. -/
theorem Accounted.of_same (hs : Accounted coreCount s) (hmanager : s'.manager = s.manager)
    (hout : s'.handedOut = s.handedOut)
    (hscanned : Pool.Scanned s.manager.inUse (s'.control.scanned s.manager.inUse.length)) :
    Accounted coreCount s' := by
  constructor
  · rw [hmanager, hs.length_eq]
  · rw [hmanager]
    exact hs.entries
  · rw [hmanager, hout]
    exact hs.books
  · rwa [hmanager]

theorem toNat_succ {i : UInt32} (h : i.toNat + 1 < UInt32.size) :
    (i + 1).toNat = i.toNat + 1 := by
  rw [UInt32.toNat_add]
  exact Nat.mod_eq_of_lt h

/-- A core that was free is handed out and marked. -/
theorem Accounted.taken (hs : Accounted coreCount s) (hcontrol : s.control = .running call search)
    (hfree : s.manager.inUse[core.toNat]? = some false) :
    Accounted coreCount ((s.marked core).returns core call) := by
  obtain ⟨hmanager, hout, hscan⟩ :=
    returns_spec (s.marked core) core call (s.marked core).manager.inUse.length
  have hlast : ((s.marked core).returns core call).handedOut = s.handedOut ++ [core] := by
    rw [hout, handedOut_of_running hcontrol, List.append_assoc]
    rfl
  constructor
  · rw [hmanager, State.marked, List.length_set, hs.length_eq]
  · rw [hmanager]
    exact hs.entries
  · rw [hmanager, hlast]
    exact hs.books.take hfree
  · rw [hmanager, hscan]
    exact Pool.scanned_zero _

/-- A turn keeps the books. -/
theorem Accounted.turn (hs : Accounted coreCount s) (hcontrol : s.control = .running call search)
    (h : Turn s call search s') : Accounted coreCount s' := by
  have hout := (handedOut_of_running hcontrol).symm
  have hscan := hs.scanned
  rw [hcontrol] at hscan
  cases h with
  | taken hfree => exact hs.taken hcontrol hfree
  | passed => exact hs.of_same rfl hout (Pool.scanned_zero _)
  | widened => exact hs.of_same rfl hout (Pool.scanned_zero _)
  | @skipped i hup =>
      -- the counter does not wrap, for no table has more cores than a word can count
      obtain ⟨hlt, -⟩ := List.getElem?_eq_some_iff.mp hup
      have hsize := coreCount.toNat_lt_size
      rw [hs.length_eq] at hlt
      have hsucc := toNat_succ (Nat.lt_of_le_of_lt hlt hsize)
      refine hs.of_same rfl hout ?_
      rw [State.search, Control.scanned, hsucc]
      exact hscan.succ hup
  | exhausted hall =>
      refine hs.of_same rfl hout ?_
      exact fun j hj => hscan j (Nat.lt_of_lt_of_le hj hall)

theorem Accounted.next {a : Action} (hs : Accounted coreCount s) (h : Steps next s a s') :
    Accounted coreCount s' := by
  rcases next_cases h with
    ⟨gpuId, -, hidle, rfl⟩ | ⟨count, gpuId, -, hidle, rfl⟩ | ⟨call, search, -, hrunning, hturn⟩
  · refine hs.of_same rfl ?_ (Pool.scanned_zero _)
    rw [handedOut_search, handedOut_of_idle hidle, Call.pending, List.append_nil]
  · obtain ⟨hmanager, hout, hscan⟩ := loop_spec s count gpuId 0 [] s.manager.inUse.length
    refine hs.of_same hmanager ?_ ?_
    · rw [hout, handedOut_of_idle hidle, List.append_nil]
    · rw [hscan]
      exact Pool.scanned_zero _
  · exact hs.turn hrunning hturn

/-- The constructor stays inside the vector only where it has two cores to mark. -/
theorem two_le_of_new (h : new coreCount gpuAffinity = some m) : 2 ≤ coreCount := by
  obtain ⟨m₀, hzero, hone⟩ := Option.bind_eq_some_iff.mp h
  obtain ⟨-, rfl⟩ := use_eq_some hzero
  obtain ⟨hlt, -⟩ := use_eq_some hone
  rw [List.length_set, List.length_replicate] at hlt
  exact UInt32.le_iff_toNat_le.mpr hlt

theorem new_of_two_le (h : 2 ≤ coreCount) (gpuAffinity : List (List UInt32)) :
    new coreCount gpuAffinity =
      some ⟨((List.replicate coreCount.toNat false).set 0 true).set 1 true, gpuAffinity⟩ := by
  have hcount : 2 ≤ coreCount.toNat := UInt32.le_iff_toNat_le.mp h
  apply Option.bind_eq_some_iff.mpr
  refine ⟨⟨(List.replicate coreCount.toNat false).set 0 true, gpuAffinity⟩, ?_, ?_⟩
  · apply use_of_free
    rw [List.getElem?_replicate, if_pos]
    exact Nat.lt_of_lt_of_le Nat.zero_lt_two hcount
  · apply use_of_free
    rw [List.getElem?_set_ne (by decide), List.getElem?_replicate, if_pos]
    exact hcount

theorem flag_new_iff {size i : Nat} (h : i < size) :
    (((List.replicate size false).set 0 true).set 1 true)[i]? = some true ↔ i = 0 ∨ i = 1 := by
  simp only [List.getElem?_set, List.length_set, List.length_replicate,
    List.getElem?_replicate, if_pos h]
  grind

/-- A new manager has the reserved cores marked and no others. -/
theorem accounted_start (hnew : new coreCount gpuAffinity = some m)
    (hentries : ∀ cores ∈ gpuAffinity, ∀ core ∈ cores, core < coreCount) :
    Accounted coreCount (start m) := by
  rw [new_of_two_le (two_le_of_new hnew)] at hnew
  obtain rfl := Option.some.inj hnew
  constructor
  · simp [start]
  · exact hentries
  · apply Pool.Books.start
    intro core hcore
    have hlt : core.toNat < coreCount.toNat := by simpa [start, cores] using hcore
    have hreserved : cores.Reserved core ↔ core.toNat = 0 ∨ core.toNat = 1 :=
      or_congr UInt32.toNat_inj.symm UInt32.toNat_inj.symm
    rw [hreserved]
    exact flag_new_iff hlt
  · exact Pool.scanned_zero _

theorem Accounted.run (hs : Accounted coreCount s) (h : Run (Steps CoreManager.next) s trace s') :
    Accounted coreCount s' :=
  h.keeps hs fun _ _ _ hs hstep => hs.next hstep

/-- The table is never indexed outside: its entries are read below its size, and so are the
cores that suit a GPU. -/
theorem Accounted.exists_turn (hs : Accounted coreCount s) (call : Call) (search : Search) :
    ∃ s', s.turn call search = some s' := by
  cases search with
  | affinity i =>
      simp only [State.turn]
      split
      · exact ⟨_, rfl⟩
      · rename_i core hcore
        obtain ⟨cores, hcores, hmem⟩ := Option.bind_eq_some_iff.mp hcore
        have hlt : core.toNat < s.manager.inUse.length := by
          rw [hs.length_eq]
          exact UInt32.lt_iff_toNat_lt.mp (hs.entries cores (List.mem_of_getElem? hcores) core
            (List.mem_of_getElem? hmem))
        split
        · rename_i hnone
          exact absurd hlt (Nat.not_lt.mpr (List.getElem?_eq_none_iff.mp hnone))
        · exact ⟨_, rfl⟩
        · rename_i hfree
          exact ⟨_, take_of_free hfree⟩
  | anyCore i =>
      simp only [State.turn]
      split
      · exact ⟨_, rfl⟩
      · exact ⟨_, rfl⟩
      · rename_i hfree
        exact ⟨_, take_of_free hfree⟩

/-! ## Allocation -/

/-- What the program may rely on: no access outside the table, cores of the machine other
than 0 and 1, none of them twice, and an exit only where they are all handed out. -/
structure Allocates (coreCount : UInt32) (s : State) : Prop where
  inBounds : ∀ call search, s.control = .running call search → (next s .turn).isSome
  usable : ∀ core ∈ s.handedOut, core < coreCount ∧ core ≠ 0 ∧ core ≠ 1
  nodup : s.handedOut.Nodup
  exhausted : ∀ call, s.control = .exited call →
    ∀ core, core < coreCount → core ≠ 0 → core ≠ 1 → core ∈ s.handedOut

/-- The constructor stays inside the table, and so do the calls of every run, which allocate
as the program relies on. -/
def Sound (coreCount : UInt32) (gpuAffinity : List (List UInt32)) : Prop :=
  ∃ m, new coreCount gpuAffinity = some m ∧
    ∀ trace s, Run (Steps next) (start m) trace s → Allocates coreCount s

theorem Accounted.usable_iff (hs : Accounted coreCount s) :
    cores.Usable s.manager.inUse.length core ↔ core < coreCount ∧ core ≠ 0 ∧ core ≠ 1 := by
  rw [hs.length_eq, Pool.Usable, UInt32.lt_iff_toNat_lt]
  exact and_congr_right fun _ => not_or

theorem Accounted.allocates (hs : Accounted coreCount s) : Allocates coreCount s where
  inBounds := by
    intro call search hcontrol
    obtain ⟨s', hturn⟩ := hs.exists_turn call search
    simp only [CoreManager.next, hcontrol, hturn, Option.isSome_some]
  usable := fun core hcore => hs.usable_iff.mp (hs.books.usable core hcore)
  nodup := hs.books.nodup
  exhausted := by
    intro call hcontrol core hlt hzero hone
    have hscan := hs.scanned
    rw [hcontrol] at hscan
    exact hs.books.mem_of_scanned hscan (Nat.le_refl _) (hs.usable_iff.mpr ⟨hlt, hzero, hone⟩)

/-- Cores are allocated as the program relies on exactly on the machines that are known to
have two cores or more: the constructor marks the cores 0 and 1 on every machine. -/
theorem sound_iff_two_le_coreCount
    (hentries : ∀ cores ∈ gpuAffinity, ∀ core ∈ cores, core < coreCount) :
    Sound coreCount gpuAffinity ↔ 2 ≤ coreCount := by
  constructor
  · rintro ⟨m, hnew, -⟩
    exact two_le_of_new hnew
  · intro hcount
    refine ⟨_, new_of_two_le hcount gpuAffinity, fun trace s hrun => ?_⟩
    have hstart := accounted_start (new_of_two_le hcount gpuAffinity) hentries
    exact (hstart.run hrun).allocates

theorem sound_four_cores : Sound 4 [[1, 3], [3, 2]] := by
  apply (sound_iff_two_le_coreCount ?_).mpr (by decide)
  simp

/-- Two cores for a GPU whose only core is listed twice. -/
example :
    (execute next (start ⟨[true, true, false, false], [[], [3, 3]]⟩)
      (.allocMany 2 1 :: List.replicate 7 .turn)).map (·.2.results) = some [[3, 2]] := by
  decide

/-- Where the number of cores is not known, or is one, the constructor writes outside the
table. -/
theorem not_sound_of_few_cores :
    new 0 [] = none ∧ ¬ Sound 0 [] ∧ new 1 [] = none ∧ ¬ Sound 1 [] := by
  have hzero : new 0 [] = none := by decide
  have hone : new 1 [] = none := by decide
  refine ⟨hzero, ?_, hone, ?_⟩
  · rintro ⟨m, hnew, -⟩
    simp [hzero] at hnew
  · rintro ⟨m, hnew, -⟩
    simp [hone] at hnew

/-! ## The end of a call

The counter of the first loop is a word, so a list that is longer than a word can count has
no end where all its cores are in use. -/

/-- The list of each GPU is one that the counter can come to the end of, and the counter of
`alloc(count, gpu_id)` is below its bound. -/
structure Countable (s : State) : Prop where
  short : ∀ cores ∈ s.manager.gpuAffinity, cores.length < UInt32.size
  counted : ∀ count gpuId i result search,
    s.control = .running (.many count gpuId i result) search → i < count

/-- The searches that are to come after the one a call is in. -/
def Call.left : Call → Nat
  | one _ => 0
  | many count _ i _ => count.toNat - (i.toNat + 1)

/-- The turns that a search is good for, at most. -/
def Search.turns : Search → Nat
  | affinity i => 2 * UInt32.size - i.toNat
  | anyCore i => UInt32.size - i.toNat

/-- The turns up to the end of a call, at most. -/
def Control.turns : Control → Nat
  | running call search => call.left * (2 * UInt32.size) + search.turns
  | _ => 0

theorem Search.turns_pos (search : Search) : 0 < search.turns := by
  cases search with
  | affinity i => have hlt := i.toNat_lt_size; simp only [turns]; omega
  | anyCore i => have hlt := i.toNat_lt_size; simp only [turns]; omega

theorem Countable.answer (hc : Countable s) (result : List UInt32) :
    Countable (s.answer result) :=
  ⟨hc.short, fun _ _ _ _ _ h => by simp [State.answer] at h⟩

theorem Countable.loop (hc : Countable s) (count gpuId i : UInt32) (result : List UInt32) :
    Countable (s.loop count gpuId i result) := by
  rcases loop_cases s count gpuId i result with ⟨hlt, heq⟩ | heq
  · rw [heq]
    refine ⟨hc.short, ?_⟩
    intro _ _ _ _ _ h
    simp only [State.search, Control.running.injEq, Call.many.injEq] at h
    obtain ⟨⟨rfl, -, rfl, -⟩, -⟩ := h
    exact hlt
  · rw [heq]
    exact hc.answer result

/-- A core that is returned brings the end of a call nearer. -/
theorem Countable.returns (hc : Countable s) (hcontrol : s.control = .running call search)
    (core : UInt32) :
    Countable (s.returns core call) ∧
      (s.returns core call).control.turns < s.control.turns := by
  have hpos := search.turns_pos
  cases call with
  | one gpuId =>
      refine ⟨hc.answer _, ?_⟩
      rw [hcontrol]
      exact Nat.add_pos_right _ hpos
  | many count gpuId i result =>
      refine ⟨hc.loop _ _ _ _, ?_⟩
      rw [State.returns, hcontrol]
      rcases loop_cases s count gpuId (i + 1) (result ++ [core]) with ⟨hlt, heq⟩ | heq
      · -- one search less is left, which is worth more than the turns of the new one
        have hcount := UInt32.lt_iff_toNat_lt.mp (hc.counted _ _ _ _ _ hcontrol)
        have hnat := UInt32.lt_iff_toNat_lt.mp hlt
        have hsucc := toNat_succ (Nat.lt_of_le_of_lt hcount count.toNat_lt_size)
        have hleft : (Call.many count gpuId i result).left =
            (Call.many count gpuId (i + 1) (result ++ [core])).left + 1 := by
          simp only [Call.left, hsucc]
          omega
        have hzero : (Search.affinity 0).turns = 2 * UInt32.size := rfl
        simp only [heq, State.search, Control.turns, hleft, hzero, Nat.add_mul]
        omega
      · rw [heq]
        exact Nat.add_pos_right _ hpos

/-- A turn brings the end of a call nearer. -/
theorem Countable.turn (hc : Countable s) (hs : Accounted coreCount s)
    (hcontrol : s.control = .running call search) (h : Turn s call search s') :
    Countable s' ∧ s'.control.turns < s.control.turns := by
  have hcounted := hc.counted
  rw [hcontrol] at hcounted
  -- within a search the call stays the same
  have hsearch : ∀ search', search'.turns < search.turns →
      Countable (s.search call search') ∧
        (s.search call search').control.turns < s.control.turns := by
    intro search' hless
    constructor
    · refine ⟨hc.short, fun count gpuId i result _ h => hcounted count gpuId i result search ?_⟩
      obtain ⟨rfl, -⟩ := Control.running.inj h
      rfl
    · rw [hcontrol]
      exact Nat.add_lt_add_left hless _
  cases h with
  | @taken _ core hfree =>
      have hmarked : Countable (s.marked core) := ⟨hc.short, hc.counted⟩
      exact hmarked.returns hcontrol core
  | @passed i core hcore =>
      obtain ⟨list, hlist, hget⟩ := Option.bind_eq_some_iff.mp hcore
      obtain ⟨hlt, -⟩ := List.getElem?_eq_some_iff.mp hget
      have hshort := hc.short list (List.mem_of_getElem? hlist)
      have hsucc := toNat_succ (Nat.lt_of_le_of_lt hlt hshort)
      apply hsearch
      simp only [Search.turns, hsucc]
      omega
  | @widened i hnone =>
      have hsize := i.toNat_lt_size
      apply hsearch
      simp only [Search.turns, UInt32.toNat_zero]
      omega
  | @skipped i hup =>
      obtain ⟨hlt, -⟩ := List.getElem?_eq_some_iff.mp hup
      have hsize := coreCount.toNat_lt_size
      rw [hs.length_eq] at hlt
      have hsucc := toNat_succ (Nat.lt_of_le_of_lt hlt hsize)
      apply hsearch
      simp only [Search.turns, hsucc]
      omega
  | exhausted hall =>
      refine ⟨⟨hc.short, fun _ _ _ _ _ h => by simp at h⟩, ?_⟩
      rw [hcontrol]
      exact Nat.add_pos_right _ (Search.turns_pos _)

theorem Countable.next {a : Action} (hc : Countable s) (hs : Accounted coreCount s)
    (h : Steps next s a s') : Countable s' := by
  rcases next_cases h with
    ⟨gpuId, -, -, rfl⟩ | ⟨count, gpuId, -, -, rfl⟩ | ⟨call, search, -, hrunning, hturn⟩
  · exact ⟨hc.short, fun _ _ _ _ _ h => by simp [State.search] at h⟩
  · exact hc.loop count gpuId 0 []
  · exact (hc.turn hs hrunning hturn).1

/-- No call is being made. -/
def State.Ended (s : State) : Prop := s.control = .idle ∨ ∃ call, s.control = .exited call

/-- While a call is being made it takes a turn that brings its end nearer. -/
theorem exists_nearer (s : State) (h : Accounted coreCount s ∧ Countable s) (hend : ¬ s.Ended) :
    ∃ a s', a = .turn ∧ Steps CoreManager.next s a s' ∧ (Accounted coreCount s' ∧ Countable s') ∧
      s'.control.turns < s.control.turns := by
  obtain ⟨hs, hc⟩ := h
  cases hcontrol : s.control with
  | idle => exact absurd (Or.inl hcontrol) hend
  | exited call => exact absurd (Or.inr ⟨call, hcontrol⟩) hend
  | running call search =>
      obtain ⟨s', hturn⟩ := hs.exists_turn call search
      obtain ⟨hafter, hless⟩ := hc.turn hs hcontrol (turn_eq_some hturn)
      rw [hcontrol] at hless
      refine ⟨.turn, s', rfl, ?_, ⟨hs.turn hcontrol (turn_eq_some hturn), hafter⟩, hless⟩
      simpa only [Steps, CoreManager.next, hcontrol] using hturn

/-- From every state of a run the call that is being made comes to its end. -/
theorem exists_call_end (hnew : new coreCount gpuAffinity = some m)
    (hentries : ∀ cores ∈ gpuAffinity, ∀ core ∈ cores, core < coreCount)
    (hshort : ∀ cores ∈ gpuAffinity, cores.length < UInt32.size)
    (h : Run (Steps CoreManager.next) (start m) trace s) :
    ∃ turns s', Run (Steps CoreManager.next) s turns s' ∧ (∀ x ∈ turns, x.2 = .turn) ∧
      s'.Ended := by
  have hstart : Accounted coreCount (start m) ∧ Countable (start m) := by
    refine ⟨accounted_start hnew hentries, ?_, fun _ _ _ _ _ h => by simp [start] at h⟩
    rw [new_of_two_le (two_le_of_new hnew)] at hnew
    obtain rfl := Option.some.inj hnew
    exact hshort
  have hs : Accounted coreCount s ∧ Countable s :=
    h.keeps (I := fun s => Accounted coreCount s ∧ Countable s) hstart
      fun _ _ _ hs hstep => ⟨hs.1.next hstep, hs.2.next hs.1 hstep⟩
  obtain ⟨turns, s', hrun, hturns, -, hend⟩ :=
    Run.exists_to (fun s => s.control.turns) exists_nearer s hs
  exact ⟨turns, s', hrun, hturns, hend⟩

end CoreManager

end Firehose.Util
