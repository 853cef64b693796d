import Firehose.Foundation.Run

set_option autoImplicit false

/-!
# Listening servers

The constructor of a server initialises its members in the order in which the class
declares them, whatever the order of the initialiser list.  The thread that accepts
connections is one of the members: it starts when that member is initialised, and runs
while the constructor goes on with the members declared after it.
-/

namespace Firehose.Network

open Firehose.Foundation

/-- A member of a listening server. -/
inductive Member
  /-- the pointer to the component, `engine`, `nuzzle` or `pump` -/
  | owner
  | alive
  | ioService
  | networkThread
  deriving DecidableEq

/-- What the five classes differ in. -/
structure ServerClass where
  /-- The members in the order of their declarations. -/
  members : List Member
  /-- The initialiser list of the constructor names the owner. -/
  namesOwner : Bool
  /-- `handle_accept` uses the owner itself. -/
  handleAcceptReads : Bool
  networkThread_mem : .networkThread ∈ members

/-- `engine::NuzzleServer` -/
def Engine.nuzzleServer : ServerClass where
  members := [.owner, .alive, .ioService, .networkThread]
  namesOwner := true
  handleAcceptReads := false
  networkThread_mem := by decide

/-- `engine::PumpServer` -/
def Engine.pumpServer : ServerClass where
  members := [.alive, .ioService, .networkThread, .owner]
  namesOwner := true
  handleAcceptReads := false
  networkThread_mem := by decide

/-- `engine::EngineServer` -/
def Engine.engineServer : ServerClass where
  members := [.alive, .ioService, .networkThread, .owner]
  namesOwner := true
  handleAcceptReads := false
  networkThread_mem := by decide

/-- `nuzzle::ConsumerServer` -/
def Nuzzle.consumerServer : ServerClass where
  members := [.alive, .ioService, .networkThread, .owner]
  namesOwner := true
  handleAcceptReads := false
  networkThread_mem := by decide

/-- `pump::PublisherServer`, whose initialiser list does not name `pump` -/
def Pump.publisherServer : ServerClass where
  members := [.alive, .ioService, .networkThread, .owner]
  namesOwner := false
  handleAcceptReads := true
  networkThread_mem := by decide

/-- Where the network thread is. -/
inductive ThreadPoint
  | notStarted
  /-- in `run`, before the acceptor is open -/
  | started
  /-- before `start_accept` -/
  | accepting
  /-- an `async_accept` is pending -/
  | waiting
  /-- `exit(0)` after an exception -/
  | exited
  deriving DecidableEq

/-- A server while it is being constructed and after. -/
structure Server (P : Type) where
  /-- How many members have been initialised. -/
  position : Nat
  /-- What the owner member holds; nothing that could be relied on before it is
  initialised. -/
  owner : Option P
  thread : ThreadPoint
  /-- The owner that each connection object was created with. -/
  connections : List (Option P)
  /-- What the thread has read from the owner member. -/
  reads : List (Option P)
  deriving DecidableEq

inductive ServerAction
  /-- The constructor initialises the next member. -/
  | construct
  /-- `run` opens the acceptor, or fails to. -/
  | run (error : Option String)
  | startAccept
  | handleAccept (error : Option String)

/-! ## Up to the thread -/

section TakeWhile

variable {α : Type} [DecidableEq α] {l : List α} {a b : α}

theorem mem_take_of_mem_takeWhile {n : Nat} (ha : a ∈ l.takeWhile (· ≠ b))
    (hb : b ∈ l.take n) : a ∈ l.take n := by
  induction l generalizing n with
  | nil => simp at ha
  | cons x l ih =>
      cases n with
      | zero => simp at hb
      | succ n =>
          rw [List.take_succ_cons, List.mem_cons] at hb ⊢
          rw [List.takeWhile_cons] at ha
          split at ha
          · rename_i hx
            rcases List.mem_cons.mp ha with hax | hrest
            · exact Or.inl hax
            · rcases hb with hbx | hb
              · simp [hbx] at hx
              · exact Or.inr (ih hrest hb)
          · simp at ha

theorem getElem?_takeWhile_length (hb : b ∈ l) :
    l[(l.takeWhile (· ≠ b)).length]? = some b := by
  induction l with
  | nil => simp at hb
  | cons x l ih =>
      rw [List.takeWhile_cons]
      split
      · rename_i hx
        rcases List.mem_cons.mp hb with hbx | hrest
        · simp [hbx] at hx
        · rw [List.length_cons, List.getElem?_cons_succ]
          exact ih hrest
      · rename_i hx
        simpa using hx

theorem length_takeWhile_lt (hb : b ∈ l) : (l.takeWhile (· ≠ b)).length < l.length := by
  obtain ⟨hlt, -⟩ := List.getElem?_eq_some_iff.mp (getElem?_takeWhile_length hb)
  exact hlt

end TakeWhile

namespace ServerClass

variable {P : Type}

def start : Server P := ⟨0, none, .notStarted, [], []⟩

/-- The constructor, called with `p`, initialises a member. -/
def initialise (c : ServerClass) (p : P) (s : Server P) : Member → Server P
  | .owner => { s with owner := if c.namesOwner then some p else s.owner }
  | .networkThread => { s with thread := .started }
  | .alive | .ioService => s

def next (c : ServerClass) (p : P) (s : Server P) : ServerAction → Option (Server P)
  | .construct =>
      if s.thread = .exited then none
      else
        (c.members[s.position]?).map fun m =>
          { c.initialise p s m with position := s.position + 1 }
  | .run error =>
      if s.thread = .started then
        match error with
        | some _ => some { s with thread := .exited }
        | none => some { s with thread := .accepting }
      else none
  | .startAccept =>
      if s.thread = .accepting then
        some { s with
          thread := .waiting
          connections := s.connections ++ [s.owner]
          reads := s.reads ++ [s.owner] }
      else none
  | .handleAccept error =>
      if s.thread = .waiting then
        match error with
        | some _ => some { s with thread := .exited }
        | none =>
            some { s with
              thread := .accepting
              reads := if c.handleAcceptReads then s.reads ++ [s.owner] else s.reads }
      else none

/-- Every connection object carries `p`, and nothing else has been read from the owner
member. -/
structure Bound (p : P) (s : Server P) : Prop where
  connections : ∀ o ∈ s.connections, o = some p
  reads : ∀ o ∈ s.reads, o = some p

/-- The steps that read the owner member. -/
def Reads (c : ServerClass) : ServerAction → Prop
  | .startAccept => True
  | .handleAccept error => c.handleAcceptReads = true ∧ error = none
  | _ => False

/-- The owner is initialised, and before the thread starts. -/
def OwnerFirst (c : ServerClass) : Prop :=
  c.namesOwner = true ∧ .owner ∈ c.members.takeWhile (· ≠ .networkThread)

instance (c : ServerClass) : Decidable c.OwnerFirst := inferInstanceAs (Decidable (_ ∧ _))

/-- The owner member and the thread, by the members that have been initialised. -/
structure Initialised (c : ServerClass) (p : P) (s : Server P) : Prop where
  owner : s.owner =
    if c.namesOwner = true ∧ .owner ∈ c.members.take s.position then some p else none
  thread : s.thread ≠ .notStarted → .networkThread ∈ c.members.take s.position

variable {c : ServerClass} {p : P} {s s' : Server P}

theorem initialised_start : c.Initialised p start where
  owner := by simp [start]
  thread := by simp [start]

/-! ## What each step does -/

theorem construct_next (hstep : c.next p s .construct = some s') :
    s.thread ≠ .exited ∧ ∃ m, c.members[s.position]? = some m ∧
      s' = { c.initialise p s m with position := s.position + 1 } := by
  simp only [next] at hstep
  split at hstep
  · simp at hstep
  · rename_i halive
    simp only [Option.map_eq_some_iff] at hstep
    obtain ⟨m, hm, rfl⟩ := hstep
    exact ⟨halive, m, hm, rfl⟩

theorem run_next {error : Option String} (hstep : c.next p s (.run error) = some s') :
    s.thread = .started ∧ ((error ≠ none ∧ s' = { s with thread := .exited }) ∨
      (error = none ∧ s' = { s with thread := .accepting })) := by
  simp only [next] at hstep
  split at hstep
  · rename_i hthread
    refine ⟨hthread, ?_⟩
    cases error with
    | some reason => exact Or.inl ⟨by simp, (Option.some.inj hstep).symm⟩
    | none => exact Or.inr ⟨rfl, (Option.some.inj hstep).symm⟩
  · simp at hstep

theorem startAccept_next (hstep : c.next p s .startAccept = some s') :
    s.thread = .accepting ∧ s' = { s with
      thread := .waiting
      connections := s.connections ++ [s.owner]
      reads := s.reads ++ [s.owner] } := by
  simp only [next] at hstep
  split at hstep
  · rename_i hthread
    exact ⟨hthread, (Option.some.inj hstep).symm⟩
  · simp at hstep

theorem handleAccept_next {error : Option String}
    (hstep : c.next p s (.handleAccept error) = some s') :
    s.thread = .waiting ∧ ((error ≠ none ∧ s' = { s with thread := .exited }) ∨
      (error = none ∧ s' = { s with
        thread := .accepting
        reads := if c.handleAcceptReads then s.reads ++ [s.owner] else s.reads })) := by
  simp only [next] at hstep
  split at hstep
  · rename_i hthread
    refine ⟨hthread, ?_⟩
    cases error with
    | some reason => exact Or.inl ⟨by simp, (Option.some.inj hstep).symm⟩
    | none => exact Or.inr ⟨rfl, (Option.some.inj hstep).symm⟩
  · simp at hstep

/-! ## The owner member -/

theorem Initialised.construct (h : c.Initialised p s)
    (hstep : c.next p s .construct = some s') : c.Initialised p s' := by
  obtain ⟨-, m, hm, rfl⟩ := construct_next hstep
  have htake : c.members.take (s.position + 1) = c.members.take s.position ++ [m] := by
    rw [List.take_add_one, hm, Option.toList_some]
  cases m with
  | owner =>
      refine ⟨?_, fun hthread => ?_⟩
      · simp only [initialise, htake, List.mem_append, List.mem_singleton, or_true, and_true]
        split
        · rfl
        · rename_i hnames
          rw [h.owner, if_neg fun hboth => hnames hboth.1]
      · rw [htake]
        exact List.mem_append_left _ (h.thread hthread)
  | networkThread =>
      refine ⟨?_, fun _ => by simp [htake]⟩
      simp only [initialise, htake, h.owner, List.mem_append, List.mem_singleton, reduceCtorEq,
        or_false]
  | alive | ioService =>
      refine ⟨?_, fun hthread => ?_⟩
      · simp only [initialise, htake, h.owner, List.mem_append, List.mem_singleton,
          reduceCtorEq, or_false]
      · rw [htake]
        exact List.mem_append_left _ (h.thread hthread)

theorem Initialised.next (h : c.Initialised p s) {a : ServerAction}
    (hstep : c.next p s a = some s') : c.Initialised p s' := by
  cases a with
  | construct => exact h.construct hstep
  | run error =>
      obtain ⟨hthread, ⟨-, rfl⟩ | ⟨-, rfl⟩⟩ := run_next hstep
      · exact ⟨h.owner, fun _ => h.thread (by simp [hthread])⟩
      · exact ⟨h.owner, fun _ => h.thread (by simp [hthread])⟩
  | startAccept =>
      obtain ⟨hthread, rfl⟩ := startAccept_next hstep
      exact ⟨h.owner, fun _ => h.thread (by simp [hthread])⟩
  | handleAccept error =>
      obtain ⟨hthread, ⟨-, rfl⟩ | ⟨-, rfl⟩⟩ := handleAccept_next hstep
      · exact ⟨h.owner, fun _ => h.thread (by simp [hthread])⟩
      · exact ⟨h.owner, fun _ => h.thread (by simp [hthread])⟩

/-- A step that reads the owner records what it found, and no other step records
anything. -/
theorem next_records {a : ServerAction} (hstep : c.next p s a = some s') :
    ∃ made found, s'.connections = s.connections ++ made ∧ s'.reads = s.reads ++ found ∧
      (∀ o ∈ made, o = s.owner) ∧ (∀ o ∈ found, o = s.owner) ∧
      ((c.Reads a ∧ s.owner ∈ found) ∨ (¬ c.Reads a ∧ made = [] ∧ found = [])) := by
  cases a with
  | construct =>
      obtain ⟨-, m, -, rfl⟩ := construct_next hstep
      refine ⟨[], [], ?_, ?_, by simp, by simp, Or.inr ⟨id, rfl, rfl⟩⟩
      · cases m <;> simp [initialise]
      · cases m <;> simp [initialise]
  | run error =>
      obtain ⟨-, ⟨-, rfl⟩ | ⟨-, rfl⟩⟩ := run_next hstep
      · exact ⟨[], [], by simp, by simp, by simp, by simp, Or.inr ⟨id, rfl, rfl⟩⟩
      · exact ⟨[], [], by simp, by simp, by simp, by simp, Or.inr ⟨id, rfl, rfl⟩⟩
  | startAccept =>
      obtain ⟨-, rfl⟩ := startAccept_next hstep
      exact ⟨[s.owner], [s.owner], rfl, rfl, by simp, by simp,
        Or.inl ⟨trivial, List.mem_singleton_self _⟩⟩
  | handleAccept error =>
      obtain ⟨-, ⟨hfailed, rfl⟩ | ⟨hnone, rfl⟩⟩ := handleAccept_next hstep
      · exact ⟨[], [], by simp, by simp, by simp, by simp,
          Or.inr ⟨fun hreads => hfailed hreads.2, rfl, rfl⟩⟩
      · cases hreads : c.handleAcceptReads with
        | true =>
            exact ⟨[], [s.owner], by simp, by simp, by simp, by simp,
              Or.inl ⟨⟨hreads, hnone⟩, List.mem_singleton_self _⟩⟩
        | false =>
            exact ⟨[], [], by simp, by simp, by simp, by simp,
              Or.inr ⟨by simp [Reads, hreads], rfl, rfl⟩⟩

/-- A step loses the binding exactly when it reads an owner that is not there. -/
theorem Initialised.not_bound_next_iff (h : c.Initialised p s) {a : ServerAction}
    (hstep : c.next p s a = some s') :
    ¬ Bound p s' ↔ ¬ Bound p s ∨ (c.Reads a ∧ s.owner = none) := by
  have howner : s.owner = none ∨ s.owner = some p := by
    rw [h.owner]
    split
    · exact Or.inr rfl
    · exact Or.inl rfl
  obtain ⟨made, found, hmade, hfound, hmadeOwner, hfoundOwner, hreads⟩ := next_records hstep
  have hkept : Bound p s' → Bound p s := fun hb =>
    ⟨fun o ho => hb.connections o (by rw [hmade]; exact List.mem_append_left _ ho),
      fun o ho => hb.reads o (by rw [hfound]; exact List.mem_append_left _ ho)⟩
  rcases hreads with ⟨hreads, hmem⟩ | ⟨hsilent, rfl, rfl⟩
  · rcases howner with hnone | hsome
    · refine iff_of_true (fun hb => ?_) (Or.inr ⟨hreads, hnone⟩)
      have hlast := hb.reads s.owner (by rw [hfound]; exact List.mem_append_right _ hmem)
      rw [hnone] at hlast
      cases hlast
    · have hnew : Bound p s → Bound p s' := by
        refine fun hb => ⟨fun o ho => ?_, fun o ho => ?_⟩
        · rw [hmade] at ho
          rcases List.mem_append.mp ho with hold | hnew
          · exact hb.connections o hold
          · rw [hmadeOwner o hnew, hsome]
        · rw [hfound] at ho
          rcases List.mem_append.mp ho with hold | hnew
          · exact hb.reads o hold
          · rw [hfoundOwner o hnew, hsome]
      simp only [hsome, reduceCtorEq, and_false, or_false, not_iff_not]
      exact ⟨hkept, hnew⟩
  · rw [List.append_nil] at hmade hfound
    simp only [hsilent, false_and, or_false, not_iff_not]
    exact ⟨hkept, fun hb => ⟨by rw [hmade]; exact hb.connections,
      by rw [hfound]; exact hb.reads⟩⟩

theorem bound_start : Bound p start := ⟨by simp [start], by simp [start]⟩

section Runs

variable {trace : List (Server P × ServerAction)}

theorem initialised_run (h : Run (Steps (c.next p)) start trace s) : c.Initialised p s :=
  h.keeps initialised_start
    fun _ _ _ hinv hstep => hinv.next hstep

/-- A step that reads the owner is taken by the thread. -/
theorem thread_of_reads {a : ServerAction} (hreads : c.Reads a)
    (hstep : c.next p s a = some s') : s.thread ≠ .notStarted := by
  intro hthread
  cases a with
  | construct | run => exact hreads
  | startAccept =>
      rw [(startAccept_next hstep).1] at hthread
      cases hthread
  | handleAccept =>
      rw [(handleAccept_next hstep).1] at hthread
      cases hthread

/-- Over a run everything is bound exactly when the owner member is only read after it has
been initialised. -/
theorem bound_run_iff (h : Run (Steps (c.next p)) start trace s) :
    Bound p s ↔ ∀ x ∈ trace, c.Reads x.2 → x.1.owner ≠ none := by
  have hlatched : ¬ Bound p s ↔ ∃ x ∈ trace, c.Reads x.2 ∧ x.1.owner = none :=
    h.latched_iff (I := c.Initialised p) (L := fun s a => c.Reads a ∧ s.owner = none)
      initialised_start (not_not.mpr bound_start) (fun _ _ _ hinv hstep => hinv.next hstep)
      fun _ _ _ hinv hstep => hinv.not_bound_next_iff hstep
  rw [← not_iff_not, hlatched]
  simp only [not_forall, not_not, exists_prop]

/-- Where the owner is initialised first, the thread finds it initialised. -/
theorem Initialised.owner_eq (h : c.Initialised p s) (hfirst : c.OwnerFirst)
    (hthread : s.thread ≠ .notStarted) : s.owner = some p := by
  rw [h.owner, if_pos ⟨hfirst.1, mem_take_of_mem_takeWhile hfirst.2 (h.thread hthread)⟩]

/-- The constructor reaches every position before the thread has done anything. -/
theorem exists_run_position (n : Nat) (hn : n ≤ c.members.length) :
    ∃ trace s, Run (Steps (c.next p)) start trace s ∧ s.position = n ∧
      (s.thread = .notStarted ∨ s.thread = .started) := by
  induction n with
  | zero => exact ⟨[], start, .refl, rfl, Or.inl rfl⟩
  | succ n ih =>
      obtain ⟨trace, s, hrun, hposition, hthread⟩ := ih (by omega)
      have hm : c.members[s.position]? = some c.members[n] := by
        rw [hposition]
        exact List.getElem?_eq_getElem (by omega)
      have halive : s.thread ≠ .exited := by
        rcases hthread with h | h <;> simp [h]
      have hstep : c.next p s .construct =
          some { c.initialise p s c.members[n] with position := s.position + 1 } := by
        simp only [next, halive, if_false, hm, Option.map_some]
      refine ⟨_, _, hrun.snoc hstep, by rw [hposition], ?_⟩
      cases c.members[n] with
      | networkThread => exact Or.inr rfl
      | owner | alive | ioService => exact hthread

/-- Where the owner is not initialised first, the thread may create a connection without
one. -/
theorem exists_run_unbound (hlate : ¬ c.OwnerFirst) :
    ∃ trace s, Run (Steps (c.next p)) start trace s ∧ ¬ Bound p s := by
  -- the constructor stops as soon as the thread has started
  have hlt : (c.members.takeWhile (· ≠ .networkThread)).length < c.members.length :=
    length_takeWhile_lt c.networkThread_mem
  have hthread : c.members[(c.members.takeWhile (· ≠ .networkThread)).length]? =
      some .networkThread := getElem?_takeWhile_length c.networkThread_mem
  have htake : c.members.take (c.members.takeWhile (· ≠ .networkThread)).length =
      c.members.takeWhile (· ≠ .networkThread) :=
    (List.prefix_iff_eq_take.mp (List.takeWhile_prefix _)).symm
  obtain ⟨trace, s, hrun, hposition, hpoint⟩ :=
    exists_run_position (c := c) (p := p) _ (Nat.le_of_lt hlt)
  have hinit := initialised_run hrun
  have hnone : s.owner = none := by
    rw [hinit.owner, hposition, htake]
    exact if_neg hlate
  have halive : s.thread ≠ .exited := by
    rcases hpoint with h | h <;> simp [h]
  have hstart : c.next p s .construct =
      some { s with thread := .started, position := s.position + 1 } := by
    simp only [next, halive, if_false, hposition, hthread, Option.map_some, initialise]
  have hopen : c.next p { s with thread := .started, position := s.position + 1 } (.run none) =
      some { s with thread := .accepting, position := s.position + 1 } := rfl
  have haccept : c.next p { s with thread := .accepting, position := s.position + 1 }
      .startAccept = some { s with
        thread := .waiting
        position := s.position + 1
        connections := s.connections ++ [s.owner]
        reads := s.reads ++ [s.owner] } := rfl
  refine ⟨_, _, ((hrun.snoc hstart).snoc hopen).snoc haccept, fun hbound => ?_⟩
  have hlast := hbound.reads s.owner (by simp)
  rw [hnone] at hlast
  cases hlast

/-- A run binds every connection to `p` exactly when the owner member is only read after it
has been initialised, and all runs do exactly when the class initialises it before the
thread.  Of the five classes only the nuzzle server of an engine does. -/
theorem bound_iff (p : P) :
    (∀ c : ServerClass,
      (∀ trace s, Run (Steps (c.next p)) start trace s →
        (Bound p s ↔ ∀ x ∈ trace, c.Reads x.2 → x.1.owner ≠ none)) ∧
      ((∀ trace s, Run (Steps (c.next p)) start trace s → Bound p s) ↔ c.OwnerFirst)) ∧
    Engine.nuzzleServer.OwnerFirst ∧ ¬ Engine.pumpServer.OwnerFirst ∧
      ¬ Engine.engineServer.OwnerFirst ∧ ¬ Nuzzle.consumerServer.OwnerFirst ∧
      ¬ Pump.publisherServer.OwnerFirst := by
  refine ⟨fun c => ⟨fun trace s hrun => bound_run_iff hrun, ?_, ?_⟩, by decide⟩
  · intro hall
    by_contra hlate
    obtain ⟨trace, s, hrun, hunbound⟩ := exists_run_unbound (p := p) hlate
    exact hunbound (hall trace s hrun)
  · intro hfirst trace s hrun
    refine (bound_run_iff hrun).mpr fun x hx hreads => ?_
    obtain ⟨t₁, t₂, s', -, hbefore, hstep, -⟩ := hrun.around hx
    have hthread : x.1.thread ≠ .notStarted := thread_of_reads hreads hstep
    rw [(initialised_run hbefore).owner_eq hfirst hthread]
    simp

end Runs

/-- The thread creates a connection before the constructor has come to the last member. -/
def acceptBeforeOwner : List ServerAction :=
  [.construct, .construct, .construct, .run none, .startAccept, .construct]

theorem acceptBeforeOwner_not_bound :
    ¬ ∀ trace (s : Server (Fin 1)), Run (Steps (Engine.pumpServer.next 0)) start trace s →
      Bound 0 s := by
  intro hclaim
  obtain ⟨trace, s, hrun, hconnections⟩ :=
    exists_run_of_execute acceptBeforeOwner (Engine.pumpServer.next 0)
      (start : Server (Fin 1)) (fun _ s => s.connections = [none]) (by decide +kernel)
  have hfirst := (hclaim trace s hrun).connections none (by simp [hconnections])
  cases hfirst

end ServerClass

end Firehose.Network
