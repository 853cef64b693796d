import Firehose.Cluster.PumpRun

set_option autoImplicit false

/-!
# One pump, one sequence

Whatever the order of connections and publishes at a pump, what it has sent to an engine
is what it has handled since the engine was connected.  So the sequences of its engines
are suffixes of one sequence.
-/

namespace Firehose.Cluster

open Firehose.Api Firehose.Foundation Firehose.Node

namespace PumpNode

variable {E : Type} [DecidableEq E] {trace : List (PumpNode E × PumpEvent E)}
variable {node : PumpNode E}

/-- Everything a connection can do. -/
theorem connect_next {node' : PumpNode E} {e : E} (h : Steps next node (.connect e) node') :
    e ∉ node.pump.engineConnections ∧
      node' = { node with pump := node.pump.connectToEngine e } := by
  simp only [Steps, next] at h
  split at h
  · simp at h
  · rename_i hfresh
    exact ⟨hfresh, (Option.some.inj h).symm⟩

/-- An engine is connected exactly when some step of the run has connected it. -/
theorem mem_engineConnections_iff (h : Run (Steps next) start trace node) (e : E) :
    e ∈ node.pump.engineConnections ↔ ∃ x ∈ trace, x.2 = .connect e := by
  have hclean : ¬ e ∈ (start : PumpNode E).pump.engineConnections := by simp [start, Pump.new]
  apply h.latched_iff (I := fun _ => True) (L := fun _ event => event = .connect e) trivial
    hclean fun _ _ _ _ _ => trivial
  intro node event node' _ hstep
  cases event with
  | connect e' =>
      obtain ⟨-, rfl⟩ := connect_next hstep
      simp [Pump.connectToEngine, eq_comm]
  | publish memory m =>
      rw [← Option.some.inj hstep]
      simp [Pump.onPublishReceive]

/-- An engine that no step has connected has been sent nothing. -/
theorem prepares_of_unconnected (h : Run (Steps next) start trace node) {e : E}
    (hnone : ∀ x ∈ trace, x.2 ≠ .connect e) : node.prepares e = [] := by
  have hnum := numbered_run h
  have hnot : e ∉ node.pump.engineConnections := by
    rw [mem_engineConnections_iff h]
    rintro ⟨x, hx, heq⟩
    exact hnone x hx heq
  rw [hnum.prepares_eq, List.filter_eq_nil_iff.mpr, List.map_nil]
  intro x hx he
  exact hnot (hnum.grown x hx e (of_decide_eq_true he))

/-- Once an engine is connected every publish that is handled finds it connected. -/
theorem connected_of_handled {node₀ : PumpNode E} {e : E}
    (he : e ∈ node₀.pump.engineConnections) (h : Run (Steps next) node₀ trace node) :
    ∀ x ∈ handled trace, e ∈ x.before.engineConnections := by
  have hall := h.keeps_throughout (I := fun node => e ∈ node.pump.engineConnections) he
    fun _ _ _ hmem hstep => engineConnections_next hmem hstep
  intro x hx
  obtain ⟨⟨s, event⟩, hmem, hat⟩ := List.mem_filterMap.mp hx
  cases event with
  | connect e' => simp [handledAt] at hat
  | publish memory m =>
      simp only [handledAt, Option.some.injEq] at hat
      subst hat
      exact hall.1 _ hmem

/-- An engine has been sent the prepares of exactly the publishes handled after it was
connected, in their order. -/
theorem prepares_since_connect {t₁ t₂ : List (PumpNode E × PumpEvent E)} {s : PumpNode E}
    {e : E} (h : Run (Steps next) start (t₁ ++ (s, .connect e) :: t₂) node) :
    node.prepares e = (handled t₂).map Handled.prepare := by
  have hmem : (s, PumpEvent.connect e) ∈ t₁ ++ (s, PumpEvent.connect e) :: t₂ := by simp
  have hcut : t₁ ++ (s, PumpEvent.connect e) :: t₂ =
      (t₁ ++ [(s, PumpEvent.connect e)]) ++ t₂ := by simp
  have hnum := numbered_run h
  rw [hcut] at h
  obtain ⟨s', hupto, hafter⟩ := h.split
  obtain ⟨hbefore, hstep⟩ := hupto.unsnoc
  obtain ⟨hfresh, rfl⟩ := connect_next hstep
  -- the publishes handled before find the engine unconnected, those after connected
  have hold : (handled t₁).filter (fun x => decide (e ∈ x.before.engineConnections)) = [] := by
    refine List.filter_eq_nil_iff.mpr fun x hx he => hfresh ?_
    exact (numbered_run hbefore).grown x hx e (of_decide_eq_true he)
  have hnew : (handled t₂).filter (fun x => decide (e ∈ x.before.engineConnections)) =
      handled t₂ := by
    refine List.filter_eq_self.mpr fun x hx => decide_eq_true ?_
    exact connected_of_handled (by simp [Pump.connectToEngine]) hafter x hx
  have hhandled : handled (t₁ ++ (s, PumpEvent.connect e) :: t₂) = handled t₁ ++ handled t₂ := by
    simp [handled, handledAt]
  rw [hnum.prepares_eq, hhandled, List.filter_append, hold, hnew, List.nil_append]

/-- What an engine has been sent ends the sequence of all prepares. -/
theorem prepares_isSuffix (h : Run (Steps next) start trace node) (e : E) :
    node.prepares e <:+ (handled trace).map Handled.prepare := by
  by_cases hconn : ∃ x ∈ trace, x.2 = .connect e
  · obtain ⟨⟨s, event⟩, hx, rfl⟩ := hconn
    obtain ⟨t₁, t₂, rfl⟩ := List.append_of_mem hx
    rw [prepares_since_connect h]
    refine List.IsSuffix.map _ ⟨handled t₁, ?_⟩
    simp [handled, handledAt]
  · rw [prepares_of_unconnected h fun x hx heq => hconn ⟨x, hx, heq⟩]
    exact List.nil_suffix

/-- A pump gives its engines one sequence. -/
structure OneSequence (trace : List (PumpNode E × PumpEvent E)) (node : PumpNode E) : Prop where
  /-- The publishes are numbered 0, 1, 2, … in the order they are handled. -/
  ids : (handled trace).map (fun x => x.prepare.globalId.toNat) =
    List.range (handled trace).length
  /-- A prepare says what its publish says. -/
  content : ∀ x ∈ handled trace, x.prepare.content = x.publish.content
  /-- An engine has been sent what was handled since it was connected. -/
  since : ∀ t₁ s e t₂, trace = t₁ ++ (s, .connect e) :: t₂ →
    node.prepares e = (handled t₂).map Handled.prepare
  unconnected : ∀ e, (∀ x ∈ trace, x.2 ≠ .connect e) → node.prepares e = []
  /-- Of the sequences of two engines one ends the other. -/
  nested : ∀ e e', node.prepares e <:+ node.prepares e' ∨ node.prepares e' <:+ node.prepares e

/-- Below 2^64 publishes every run of a pump gives its engines one sequence. -/
theorem oneSequence_run (h : Run (Steps next) start trace node)
    (hfew : (handled trace).length ≤ 2 ^ 64) : OneSequence trace node where
  ids := by
    have hnum := numbered_run h
    have hids : (handled trace).map (fun x => x.prepare.globalId.toNat) =
        ((handled trace).map (·.before.globalRequestIdSeed)).map UInt64.toNat := by
      rw [List.map_map]
      rfl
    rw [hids, hnum.ids_eq, List.map_map]
    conv_rhs => rw [← List.map_id (List.range _)]
    apply List.map_congr_left
    intro k hk
    exact Numbered.toNat_ofNat_index hfew (List.mem_range.mp hk)
  content := fun _ _ => rfl
  since := by
    rintro t₁ s e t₂ rfl
    exact prepares_since_connect h
  unconnected := fun _ hnone => prepares_of_unconnected h hnone
  nested := fun e e' =>
    List.suffix_or_suffix_of_suffix (prepares_isSuffix h e) (prepares_isSuffix h e')

/-- One engine is there from the start, another comes between two publishes. -/
def publishConnectPublish (e e' : E) : List (PumpEvent E) :=
  [.connect e, .publish default (RequestPublish.on 7 [1]).set, .connect e',
    .publish default (RequestPublish.on 7 [2]).set]

theorem oneSequence_publishConnectPublish :
    ∃ (trace : List (PumpNode (Fin 2) × PumpEvent (Fin 2))) (node : PumpNode (Fin 2)),
      Run (Steps next) start trace node ∧ (node.prepares 0).length = 2 ∧
        (node.prepares 1).length = 1 ∧ OneSequence trace node := by
  obtain ⟨trace, node, hrun, hfirst, hsecond, hfew⟩ :=
    exists_run_of_execute (publishConnectPublish 0 1) next (start : PumpNode (Fin 2))
      (fun trace node => (node.prepares 0).length = 2 ∧ (node.prepares 1).length = 1 ∧
        (handled trace).length ≤ 2 ^ 64) (by decide +kernel)
  exact ⟨trace, node, hrun, hfirst, hsecond, oneSequence_run hrun hfew⟩

end PumpNode

end Firehose.Cluster
