import Firehose.Foundation.Channel
import Firehose.Foundation.Run
import Mathlib.Data.List.Forall2

set_option autoImplicit false

/-!
# Two executions in lockstep

Two systems whose states correspond, and which answer corresponding labels by steps to
states that correspond again, run side by side.  Channels correspond when their messages
do, one by one.
-/

namespace Firehose.Foundation

/-- What one system can do, the other can do under corresponding labels, and they end in
states that correspond. -/
theorem Run.lockstep {σ τ α β : Type} {step : σ → α → σ → Prop} {step' : τ → β → τ → Prop}
    {R : σ → τ → Prop} {L : α → β → Prop} {s₀ s : σ} {t₀ : τ} {trace : List (σ × α)}
    (h : Run step s₀ trace s) {labels : List β}
    (hlabels : List.Forall₂ L (trace.map (·.2)) labels) (hinit : R s₀ t₀)
    (hstep : ∀ s a s' t b, R s t → L a b → step s a s' → ∃ t', step' t b t' ∧ R s' t') :
    ∃ trace' t, Run step' t₀ trace' t ∧ trace'.map (·.2) = labels ∧ R s t := by
  induction h generalizing labels with
  | refl =>
      have hnil : labels = [] := by simpa using hlabels
      exact ⟨[], t₀, .refl, hnil.symm, hinit⟩
  | @snoc trace s s' a _ hone ih =>
      rw [List.map_append, List.map_singleton] at hlabels
      -- the last labels correspond, and so do the lists before them
      have hrev := List.rel_reverse hlabels
      rw [List.reverse_append, List.reverse_singleton, List.singleton_append] at hrev
      obtain ⟨b, before, hlast, hbefore, heq⟩ := List.forall₂_cons_left_iff.mp hrev
      have hsplit : labels = before.reverse ++ [b] := by
        rw [← List.reverse_reverse labels, heq, List.reverse_cons]
      have hbefore' := List.rel_reverse hbefore
      rw [List.reverse_reverse] at hbefore'
      obtain ⟨trace', t, hrun, hmap, hR⟩ := ih hbefore'
      obtain ⟨t', hnext, hR'⟩ := hstep s a s' t b hR hlast hone
      exact ⟨trace' ++ [(t, b)], t', hrun.snoc hnext, by simp [hmap, hsplit], hR'⟩

namespace Channel

variable {M M' A B : Type} {R : M → M' → Prop}

/-- The messages of two channels correspond, those taken and those in flight. -/
structure Related (R : M → M' → Prop) (ch : Channel M) (ch' : Channel M') : Prop where
  received : List.Forall₂ R ch.received ch'.received
  queue : List.Forall₂ R ch.queue ch'.queue

theorem related_empty : Related R (empty : Channel M) empty := ⟨.nil, .nil⟩

theorem Related.sent {ch : Channel M} {ch' : Channel M'} (h : Related R ch ch') :
    List.Forall₂ R ch.sent ch'.sent := List.rel_append h.received h.queue

theorem Related.push {ch : Channel M} {ch' : Channel M'} (h : Related R ch ch') {ms : List M}
    {ms' : List M'} (hms : List.Forall₂ R ms ms') : Related R (ch.push ms) (ch'.push ms') :=
  ⟨h.received, List.rel_append h.queue hms⟩

/-- What can be taken off one channel corresponds to what can be taken off the other. -/
theorem Related.pop? {ch rest : Channel M} {ch' : Channel M'} {m : M} (h : Related R ch ch')
    (hpop : ch.pop? = some (m, rest)) :
    ∃ m' rest', ch'.pop? = some (m', rest') ∧ R m m' ∧ Related R rest rest' := by
  obtain ⟨hqueue, hreceived, -⟩ := pop?_eq_some hpop
  have hrel := h.queue
  rw [hqueue] at hrel
  obtain ⟨m', tail, hm, htail, heq⟩ := List.forall₂_cons_left_iff.mp hrel
  refine ⟨m', ⟨ch'.received ++ [m'], tail⟩, by simp [Channel.pop?, heq], hm, ?_, htail⟩
  rw [hreceived]
  exact List.rel_append h.received (.cons hm .nil)

/-- A message to a peer corresponds to a message to the same peer. -/
def SamePeer (R : M → M' → Prop) (o : B × M) (o' : B × M') : Prop := o.1 = o'.1 ∧ R o.2 o'.2

variable [DecidableEq A] [DecidableEq B]

omit [DecidableEq A] in
theorem forall₂_addressedTo {out : List (B × M)} {out' : List (B × M')}
    (h : List.Forall₂ (SamePeer R) out out') (b : B) :
    List.Forall₂ R (addressedTo b out) (addressedTo b out') := by
  induction h with
  | nil => exact .nil
  | @cons o o' out out' hone _ ih =>
      obtain ⟨hpeer, hm⟩ := hone
      unfold addressedTo at ih ⊢
      by_cases hb : o.1 = b
      · rw [List.filter_cons_of_pos (by simpa using hb),
          List.filter_cons_of_pos (by simpa [← hpeer] using hb)]
        exact .cons hm ih
      · rw [List.filter_cons_of_neg (by simpa using hb),
          List.filter_cons_of_neg (by simpa [← hpeer] using hb)]
        exact ih

variable {chans : A × B → Channel M} {chans' : A × B → Channel M'}

theorem related_post (h : ∀ link, Related R (chans link) (chans' link)) (a : A)
    {out : List (B × M)} {out' : List (B × M')} (hout : List.Forall₂ (SamePeer R) out out')
    (link : A × B) : Related R (post chans a out link) (post chans' a out' link) := by
  unfold post
  split
  · exact (h link).push (forall₂_addressedTo hout link.2)
  · exact h link

theorem related_update (h : ∀ link, Related R (chans link) (chans' link)) (l : A × B)
    {ch : Channel M} {ch' : Channel M'} (hch : Related R ch ch') (link : A × B) :
    Related R (Function.update chans l ch link) (Function.update chans' l ch' link) := by
  by_cases hl : link = l
  · subst hl
    simpa using hch
  · simpa [hl] using h link

end Channel

end Firehose.Foundation
