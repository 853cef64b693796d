import Firehose.Foundation.Channel
import Firehose.Foundation.Run
import Mathlib.Algebra.Order.BigOperators.Group.Finset
import Mathlib.Data.DFinsupp.WellFounded

set_option autoImplicit false

/-!
# Systems of stages that drain

Work passes from stage to stage: a step takes one unit off a stage and may put any amount
of work on later ones.  However much that is, the steps come to an end, and where no stage
with work on it is stuck they end with no work left.
-/

namespace Firehose.Foundation

variable {σ α ι : Type}

/-- A step spends: some stage has less work after it, and the stages before that one have
what they had. -/
def Spends [LT ι] (load : σ → ι → Nat) (s s' : σ) : Prop :=
  ∃ i, (∀ j, j < i → load s' j = load s j) ∧ load s' i < load s i

/-- Spending cannot go on for ever. -/
theorem wellFounded_spends [LinearOrder ι] [Finite ι] (load : σ → ι → Nat) :
    WellFounded fun s' s => Spends load s s' :=
  InvImage.wf load (Pi.Lex.wellFounded (· < ·) fun _ => Nat.lt_wfRel.wf)

/-- The work at all places of a stage. -/
def stageLoad {L : Type} [Fintype L] [DecidableEq ι] (stage : L → ι) (work : L → Nat) (i : ι) :
    Nat :=
  ∑ l with stage l = i, work l

/-- A step spends that leaves less work at one place, and puts work on later stages only. -/
theorem spends_stageLoad {L : Type} [Fintype L] [LinearOrder ι] {stage : L → ι}
    (work : σ → L → Nat) {s s' : σ} {l : L} (hless : work s' l < work s l)
    (hothers : ∀ l', l' ≠ l → stage l' ≤ stage l → work s' l' = work s l') :
    Spends (fun s => stageLoad stage (work s)) s s' := by
  refine ⟨stage l, fun j hj => ?_, ?_⟩
  · refine Finset.sum_congr rfl fun l' hl' => ?_
    have hstage : stage l' = j := (Finset.mem_filter.mp hl').2
    have hbefore : stage l' < stage l := hstage ▸ hj
    exact hothers l' (fun heq => absurd hbefore (heq ▸ lt_irrefl _)) hbefore.le
  · refine Finset.sum_lt_sum (fun l' hl' => ?_) ⟨l, by simp, hless⟩
    have hstage : stage l' = stage l := (Finset.mem_filter.mp hl').2
    rcases eq_or_ne l' l with rfl | hother
    · exact hless.le
    · exact (hothers l' hother hstage.le).le

/-- Where some steps come to an end, and one of them is there as long as the goal is not
reached, a run of them reaches the goal. -/
theorem Run.exists_to_of_wellFounded {step : σ → α → σ → Prop} {I Goal : σ → Prop}
    {C : σ → α → Prop} (hwf : WellFounded fun s' s => ∃ a, C s a ∧ step s a s')
    (hstep : ∀ s, I s → ¬ Goal s → ∃ a s', C s a ∧ step s a s' ∧ I s') (s : σ) (hs : I s) :
    ∃ trace s', Run step s trace s' ∧ (∀ x ∈ trace, C x.1 x.2) ∧ I s' ∧ Goal s' := by
  induction s using hwf.induction with
  | _ s ih =>
      by_cases hgoal : Goal s
      · exact ⟨[], s, .refl, by simp, hs, hgoal⟩
      · obtain ⟨a, s₁, ha, hone, hinv⟩ := hstep s hs hgoal
        obtain ⟨trace, s', hrun, hC, hend⟩ := ih s₁ ⟨a, ha, hone⟩ hinv
        refine ⟨(s, a) :: trace, s', (single hone).trans hrun, ?_, hend⟩
        intro x hx
        rcases List.mem_cons.mp hx with rfl | hrest
        · exact ha
        · exact hC x hrest

/-! ## The work on a family of channels -/

namespace Channel

variable {L M : Type} [Fintype L]

/-- Number of messages in flight on all channels of a family. -/
def inFlight (chans : L → Channel M) : Nat := ∑ l, (chans l).queue.length

/-- Taking a message off one channel leaves one less in flight. -/
theorem inFlight_update_pop? [DecidableEq L] {chans : L → Channel M} {l : L} {m : M}
    {ch : Channel M} (h : (chans l).pop? = some (m, ch)) :
    inFlight (Function.update chans l ch) + 1 = inFlight chans := by
  have hlen : (chans l).queue.length = ch.queue.length + 1 := by
    rw [(pop?_eq_some h).1, List.length_cons]
  have hothers : ∑ l' ∈ Finset.univ.erase l, (Function.update chans l ch l').queue.length =
      ∑ l' ∈ Finset.univ.erase l, (chans l').queue.length :=
    Finset.sum_congr rfl fun l' hl' => by
      rw [Function.update_of_ne (Finset.ne_of_mem_erase hl')]
  unfold inFlight
  rw [← Finset.add_sum_erase _ _ (Finset.mem_univ l),
    ← Finset.add_sum_erase _ (fun l' => (chans l').queue.length) (Finset.mem_univ l),
    hothers, Function.update_self]
  simp only [hlen]
  omega

end Channel

end Firehose.Foundation
