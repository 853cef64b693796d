import Firehose.Foundation.Run

set_option autoImplicit false

/-!
# Servers that keep lists of their peers

A server sends to the peers on its lists, and a peer may go away at any time.  If the
server does nothing when a peer goes, its lists are free of peers that have gone exactly
as long as no listed peer goes and no gone peer is put on a list.
-/

namespace Firehose.Foundation

/-- A server as far as its lists are concerned. -/
structure Registry (σ α ι : Type) where
  /-- What the server does when it handles an event. -/
  next : σ → α → Option σ
  /-- What the server does when a peer has gone. -/
  closed : σ → ι → σ
  /-- A peer is on some list of the server. -/
  Listed : σ → ι → Prop
  /-- The peers that are sent something when an event is handled. -/
  sends : σ → α → List ι
  /-- The peer that an event puts on a list. -/
  adds : α → Option ι

namespace Registry

variable {σ α ι : Type}

/-- A server and the peers that have gone. -/
structure State (σ ι : Type) where
  server : σ
  gone : List ι

/-- The server handles an event, or a peer goes. -/
inductive Event (α ι : Type)
  | handle (a : α)
  | close (i : ι)

/-- A peer goes once. -/
def step [DecidableEq ι] (r : Registry σ α ι) (s : State σ ι) :
    Event α ι → Option (State σ ι)
  | .handle a => (r.next s.server a).map fun server => { s with server := server }
  | .close i =>
      if i ∈ s.gone then none else some ⟨r.closed s.server i, s.gone ++ [i]⟩

/-- No peer that has gone is on a list. -/
def Forgotten (r : Registry σ α ι) (s : State σ ι) : Prop :=
  ∀ i ∈ s.gone, ¬ r.Listed s.server i

/-- In every state of a run the peers that have gone are forgotten, and none of them is
sent anything. -/
structure Forgets (r : Registry σ α ι) (trace : List (State σ ι × Event α ι))
    (s : State σ ι) : Prop where
  forgotten : Throughout r.Forgotten trace s
  unsent : ∀ x ∈ trace, ∀ a, x.2 = .handle a → ∀ i ∈ r.sends x.1.server a, i ∉ x.1.gone

/-- A peer that goes is on no list, and a peer that is put on a list has not gone. -/
def Careful (r : Registry σ α ι) (s : State σ ι) : Event α ι → Prop
  | .handle a => ∀ i ∈ r.adds a, i ∉ s.gone
  | .close i => ¬ r.Listed s.server i

/-- A server that lists the peers its events add, sends only to those on its lists, and
does nothing when one goes. -/
structure Lawful (r : Registry σ α ι) : Prop where
  closed_eq : ∀ s i, r.closed s i = s
  listed_of_adds : ∀ {s a s' i}, r.next s a = some s' → r.adds a = some i → r.Listed s' i
  listed_of_next : ∀ {s a s' i}, r.next s a = some s' → r.Listed s' i →
    r.Listed s i ∨ r.adds a = some i
  listed_of_sends : ∀ {s a s' i}, r.next s a = some s' → i ∈ r.sends s a → r.Listed s i

variable [DecidableEq ι] {r : Registry σ α ι}

/-- A step forgets the peers that have gone exactly when it is careful. -/
theorem Lawful.forgotten_step_iff (hr : r.Lawful) {s s' : State σ ι} {event : Event α ι}
    (hinv : r.Forgotten s) (h : Steps r.step s event s') :
    r.Forgotten s' ↔ r.Careful s event := by
  cases event with
  | handle a =>
      simp only [Steps, step, Option.map_eq_some_iff] at h
      obtain ⟨server, hnext, rfl⟩ := h
      constructor
      · intro hafter i hadds hgone
        exact hafter i hgone (hr.listed_of_adds hnext hadds)
      · intro hcareful i hgone hlisted
        rcases hr.listed_of_next hnext hlisted with hold | hadds
        · exact hinv i hgone hold
        · exact hcareful i hadds hgone
  | close i =>
      simp only [Steps, step] at h
      split at h
      · simp at h
      · simp only [Option.some.injEq] at h
        subst h
        simp only [Forgotten, Careful, hr.closed_eq, List.mem_append, List.mem_singleton]
        constructor
        · exact fun hafter => hafter i (Or.inr rfl)
        · rintro hcareful j (hold | rfl)
          · exact hinv j hold
          · exact hcareful

theorem Lawful.forgotten_throughout_iff (hr : r.Lawful) {s₀ : σ}
    {trace : List (State σ ι × Event α ι)} {s : State σ ι}
    (h : Run (Steps r.step) ⟨s₀, []⟩ trace s) :
    Throughout r.Forgotten trace s ↔ ∀ x ∈ trace, r.Careful x.1 x.2 := by
  induction h with
  | refl => simp [Throughout, Forgotten]
  | @snoc trace s s' event hrun hstep ih =>
      rw [throughout_snoc, ih, List.forall_mem_append, List.forall_mem_singleton]
      exact and_congr_right fun hbefore => hr.forgotten_step_iff (ih.mpr hbefore).2 hstep

/-- Over a run peers that have gone are forgotten exactly when every step is careful. -/
theorem Lawful.forgets_iff (hr : r.Lawful) {s₀ : σ}
    {trace : List (State σ ι × Event α ι)} {s : State σ ι}
    (h : Run (Steps r.step) ⟨s₀, []⟩ trace s) :
    r.Forgets trace s ↔ ∀ x ∈ trace, r.Careful x.1 x.2 := by
  rw [← hr.forgotten_throughout_iff h]
  constructor
  · exact fun hforgets => hforgets.forgotten
  · intro hforgotten
    refine ⟨hforgotten, fun x hx a ha i hi hgone => ?_⟩
    obtain ⟨t₁, t₂, s', -, -, hstep, -⟩ := h.around hx
    rw [ha] at hstep
    simp only [Steps, step, Option.map_eq_some_iff] at hstep
    obtain ⟨server, hnext, -⟩ := hstep
    exact hforgotten.1 x hx i hgone (hr.listed_of_sends hnext hi)

end Registry

end Firehose.Foundation
