import Mathlib.Data.List.Forall2

set_option autoImplicit false

/-!
# Runs of a labelled transition system

A run is kept with its trace, the list of the steps taken: each step with the
state it was taken in.  A property of a run that speaks about what happened, and
not only about the state reached, is a property of the trace.
-/

namespace Firehose.Foundation

variable {σ α : Type}

/-- `Run step s₀ trace s`: the steps of `trace` lead from `s₀` to `s`. -/
inductive Run (step : σ → α → σ → Prop) (s₀ : σ) : List (σ × α) → σ → Prop
  | refl : Run step s₀ [] s₀
  | snoc {trace : List (σ × α)} {s s' : σ} {a : α} :
      Run step s₀ trace s → step s a s' → Run step s₀ (trace ++ [(s, a)]) s'

namespace Run

variable {step : σ → α → σ → Prop} {s₀ s₁ s₂ s : σ} {trace t₁ t₂ : List (σ × α)}

/-- A relation between the steps taken and the state they lead to holds after every run
when each step preserves it.  `C` is what the run is assumed to satisfy at each of its
steps, in view of the steps before. -/
theorem history_invariant {C : List (σ × α) → σ → α → Prop} {I : List (σ × α) → σ → Prop}
    (h : Run step s₀ trace s)
    (hC : ∀ t₁ x t₂, trace = t₁ ++ x :: t₂ → C t₁ x.1 x.2) (hinit : I [] s₀)
    (hstep : ∀ t s a s', Run step s₀ t s → I t s → C t s a → step s a s' →
      I (t ++ [(s, a)]) s') : I trace s := by
  induction h with
  | refl => exact hinit
  | @snoc trace s s' a hrun hs ih =>
      have hbefore : I trace s := ih fun t₁ x t₂ ht => hC t₁ x (t₂ ++ [(s, a)]) (by simp [ht])
      exact hstep trace s a s' hrun hbefore (hC trace (s, a) [] rfl) hs

/-- An invariant that every step of the trace preserves holds of the state reached.
`C` is what the run is assumed to satisfy at each of its steps. -/
theorem invariant {C : σ → α → Prop} {I : σ → Prop} (h : Run step s₀ trace s)
    (hC : ∀ x ∈ trace, C x.1 x.2) (hinit : I s₀)
    (hstep : ∀ s a s', I s → C s a → step s a s' → I s') : I s :=
  h.history_invariant (C := fun _ s a => C s a) (I := fun _ s => I s)
    (fun t₁ x t₂ ht => hC x (by simp [ht])) hinit
    fun _ s a s' _ hinv hc hs => hstep s a s' hinv hc hs

/-- A run keeps what each of its steps keeps. -/
theorem keeps {I : σ → Prop} (h : Run step s₀ trace s) (hinit : I s₀)
    (hstep : ∀ s a s', I s → step s a s' → I s') : I s :=
  h.invariant (C := fun _ _ => True) (fun _ _ => trivial) hinit
    fun s a s' hs _ hone => hstep s a s' hs hone

/-- The same of a relation between the steps taken and the state. -/
theorem history_keeps {I : List (σ × α) → σ → Prop} (h : Run step s₀ trace s)
    (hinit : I [] s₀) (hstep : ∀ t s a s', I t s → step s a s' → I (t ++ [(s, a)]) s') :
    I trace s :=
  h.history_invariant (C := fun _ _ _ => True) (fun _ _ _ _ => trivial) hinit
    fun t s a s' _ hs _ hone => hstep t s a s' hs hone

/-- Two runs compose. -/
theorem trans (h₁ : Run step s₀ t₁ s₁) (h₂ : Run step s₁ t₂ s₂) :
    Run step s₀ (t₁ ++ t₂) s₂ := by
  induction h₂ with
  | refl => simpa using h₁
  | snoc _ hs ih =>
      rw [← List.append_assoc]
      exact .snoc ih hs

/-- The empty run ends where it started. -/
theorem eq_of_nil (h : Run step s₀ [] s) : s = s₀ := by
  generalize htr : ([] : List (σ × α)) = tr at h
  cases h with
  | refl => rfl
  | snoc => simp at htr

theorem single {a : α} (h : step s a s₁) : Run step s [(s, a)] s₁ := .snoc .refl h

/-- The last step of a nonempty run. -/
theorem unsnoc {x : σ × α} (h : Run step s₀ (trace ++ [x]) s) :
    Run step s₀ trace x.1 ∧ step x.1 x.2 s := by
  generalize htr : trace ++ [x] = tr at h
  cases h with
  | refl => simp at htr
  | snoc hrun hstep =>
      obtain ⟨rfl, hx⟩ := List.append_inj' htr rfl
      simp only [List.cons.injEq, and_true] at hx
      subst hx
      exact ⟨hrun, hstep⟩

/-- A run splits at every cut point of its trace. -/
theorem split (h : Run step s₀ (t₁ ++ t₂) s) :
    ∃ s₁, Run step s₀ t₁ s₁ ∧ Run step s₁ t₂ s := by
  generalize htr : t₁ ++ t₂ = tr at h
  induction h generalizing t₂ with
  | refl =>
      simp only [List.append_eq_nil_iff] at htr
      obtain ⟨rfl, rfl⟩ := htr
      exact ⟨s₀, .refl, .refl⟩
  | @snoc trace s s' a hrun hstep ih =>
      rcases List.eq_nil_or_concat t₂ with rfl | ⟨t, x, rfl⟩
      · refine ⟨s', ?_, .refl⟩
        rw [List.append_nil] at htr
        subst htr
        exact .snoc hrun hstep
      · rw [List.concat_eq_append, ← List.append_assoc] at htr
        obtain ⟨htr, hx⟩ := List.append_inj' htr rfl
        obtain ⟨s₁, hr₁, hr₂⟩ := ih htr
        simp only [List.cons.injEq, and_true] at hx
        subst hx
        exact ⟨s₁, hr₁, by simpa using Run.snoc hr₂ hstep⟩

/-- Two runs whose labels correspond end in states that correspond, when single steps
keep the correspondence. -/
theorem related {R : σ → σ → Prop} {L : α → α → Prop} {s₀' s' : σ} {trace' : List (σ × α)}
    (h : Run step s₀ trace s) (h' : Run step s₀' trace' s')
    (hlabels : List.Forall₂ L (trace.map (·.2)) (trace'.map (·.2))) (hinit : R s₀ s₀')
    (hstep : ∀ s a t s' a' t', R s s' → L a a' → step s a t → step s' a' t' → R t t') :
    R s s' := by
  induction h generalizing trace' s' with
  | refl =>
      have hnil : trace' = [] := by cases trace' <;> simp_all
      subst hnil
      rwa [h'.eq_of_nil]
  | @snoc trace s t a _ hlast ih =>
      rcases List.eq_nil_or_concat trace' with rfl | ⟨before, x, rfl⟩
      · have hlen := hlabels.length_eq
        simp at hlen
      · rw [List.concat_eq_append] at h' hlabels
        obtain ⟨hbefore, hlast'⟩ := h'.unsnoc
        -- the last labels correspond, and so do the lists before them
        have hrev := List.rel_reverse hlabels
        simp only [List.map_append, List.map_singleton, List.reverse_append,
          List.reverse_singleton, List.singleton_append] at hrev
        cases hrev with
        | cons hone hinitial =>
            have hinitial' := List.rel_reverse hinitial
            simp only [List.reverse_reverse] at hinitial'
            exact hstep _ _ _ _ _ _ (ih hbefore hinitial') hone hlast hlast'

/-- A run of one system is a run of a system that can do as much under other labels. -/
theorem relabel {β : Type} {step' : σ → β → σ → Prop} (f : α → β)
    (hstep : ∀ s a s', step s a s' → step' s (f a) s') (h : Run step s₀ trace s) :
    Run step' s₀ (trace.map fun x => (x.1, f x.2)) s := by
  induction h with
  | refl => exact .refl
  | snoc _ hs ih =>
      rw [List.map_append]
      exact .snoc ih (hstep _ _ _ hs)

/-- Where there is always a step that makes a measure smaller, a run reaches its goal. -/
theorem exists_to {I Goal : σ → Prop} {C : σ → α → Prop} (μ : σ → Nat)
    (hstep : ∀ s, I s → ¬ Goal s → ∃ a s', C s a ∧ step s a s' ∧ I s' ∧ μ s' < μ s)
    (s : σ) (hs : I s) :
    ∃ trace s', Run step s trace s' ∧ (∀ x ∈ trace, C x.1 x.2) ∧ I s' ∧ Goal s' := by
  by_cases hgoal : Goal s
  · exact ⟨[], s, .refl, by simp, hs, hgoal⟩
  · obtain ⟨a, s₁, ha, hone, hinv, hless⟩ := hstep s hs hgoal
    obtain ⟨trace, s', hrun, hC, hend⟩ := exists_to μ hstep s₁ hinv
    refine ⟨(s, a) :: trace, s', (single hone).trans hrun, ?_, hend⟩
    intro x hx
    rcases List.mem_cons.mp hx with rfl | hrest
    · exact ha
    · exact hC x hrest
termination_by μ s

/-- A state of affairs that some steps bring about and no step ends is there exactly when
one of these steps has been taken. -/
theorem latched_iff {I Bad : σ → Prop} {L : σ → α → Prop} (h : Run step s₀ trace s)
    (hinit : I s₀) (hclean : ¬ Bad s₀) (hinv : ∀ s a s', I s → step s a s' → I s')
    (hstep : ∀ s a s', I s → step s a s' → (Bad s' ↔ Bad s ∨ L s a)) :
    Bad s ↔ ∃ x ∈ trace, L x.1 x.2 := by
  induction h with
  | refl => simp [hclean]
  | @snoc trace s s' a hrun hone ih =>
      have hI : I s := hrun.keeps hinit hinv
      rw [hstep s a s' hI hone, ih]
      simp only [List.mem_append, List.mem_singleton, or_and_right, exists_or, exists_eq_left]

/-- The run around one of its steps. -/
theorem around {x : σ × α} (h : Run step s₀ trace s) (hx : x ∈ trace) :
    ∃ t₁ t₂ s', trace = t₁ ++ x :: t₂ ∧ Run step s₀ t₁ x.1 ∧ step x.1 x.2 s' ∧
      Run step s' t₂ s := by
  obtain ⟨t₁, t₂, rfl⟩ := List.append_of_mem hx
  rw [List.append_cons] at h
  obtain ⟨s', h₁, h₂⟩ := h.split
  obtain ⟨h₀, hstep⟩ := h₁.unsnoc
  exact ⟨t₁, t₂, s', rfl, h₀, hstep, h₂⟩

/-- Every entry of a list that grows along a run has been added by one of its steps. -/
theorem exists_added {β : Type} {f : σ → List β} (h : Run step s₀ trace s)
    (hgrows : ∀ s a s', step s a s' → f s <+: f s') {i : Nat} {b : β}
    (hinit : (f s₀).length ≤ i) (hb : (f s)[i]? = some b) :
    ∃ t₁ x t₂ s', trace = t₁ ++ x :: t₂ ∧ Run step s₀ t₁ x.1 ∧ step x.1 x.2 s' ∧
      (f x.1).length ≤ i ∧ (f s')[i]? = some b := by
  induction h with
  | refl =>
      rw [List.getElem?_eq_none hinit] at hb
      cases hb
  | @snoc trace s s' a hrun hstep ih =>
      rcases Nat.lt_or_ge i (f s).length with hold | hnew
      · obtain ⟨added, hadded⟩ := hgrows s a s' hstep
        rw [← hadded, List.getElem?_append_left hold] at hb
        obtain ⟨t₁, x, t₂, s₁, rfl, hrest⟩ := ih hb
        exact ⟨t₁, x, t₂ ++ [(s, a)], s₁, by simp, hrest⟩
      · exact ⟨trace, (s, a), [], s', rfl, hrun, hstep, hnew, hb⟩

/-- The run up to one of its steps. -/
theorem before {x : σ × α} (h : Run step s₀ (t₁ ++ x :: t₂) s) : Run step s₀ t₁ x.1 := by
  rw [List.append_cons] at h
  obtain ⟨s', hupto, -⟩ := h.split
  exact hupto.unsnoc.1

/-- The run around its step number `i`. -/
theorem cut {x : σ × α} {i : Nat} (h : Run step s₀ t₁ s) (hx : t₁[i]? = some x) :
    ∃ s', Run step s₀ (t₁.take i) x.1 ∧ step x.1 x.2 s' ∧
      Run step s' (t₁.drop (i + 1)) s := by
  obtain ⟨hi, hget⟩ := List.getElem?_eq_some_iff.mp hx
  have hcut : t₁ = (t₁.take i ++ [x]) ++ t₁.drop (i + 1) := by
    rw [List.append_assoc, List.singleton_append, ← hget, List.getElem_cons_drop,
      List.take_append_drop]
  rw [hcut] at h
  obtain ⟨s', h₁, h₂⟩ := h.split
  obtain ⟨h₀, hstep⟩ := h₁.unsnoc
  exact ⟨s', h₀, hstep, h₂⟩

end Run

/-- A property of every state of a run, the last one included. -/
def Throughout (I : σ → Prop) (trace : List (σ × α)) (s : σ) : Prop :=
  (∀ x ∈ trace, I x.1) ∧ I s

theorem throughout_snoc {I : σ → Prop} {trace : List (σ × α)} {s s' : σ} {a : α} :
    Throughout I (trace ++ [(s, a)]) s' ↔ Throughout I trace s ∧ I s' := by
  simp only [Throughout, List.mem_append, List.mem_singleton, and_congr_left_iff]
  intro _
  constructor
  · exact fun h => ⟨fun x hx => h x (Or.inl hx), h (s, a) (Or.inr rfl)⟩
  · rintro ⟨h, hs⟩ x (hx | rfl)
    · exact h x hx
    · exact hs

/-- An invariant holds in every state of a run. -/
theorem Run.throughout {step : σ → α → σ → Prop} {s₀ s : σ} {trace : List (σ × α)}
    {C : σ → α → Prop} {I : σ → Prop} (h : Run step s₀ trace s)
    (hC : ∀ x ∈ trace, C x.1 x.2) (hinit : I s₀)
    (hstep : ∀ s a s', I s → C s a → step s a s' → I s') : Throughout I trace s := by
  refine ⟨fun x hx => ?_, h.invariant hC hinit hstep⟩
  obtain ⟨t₁, t₂, s', rfl, hbefore, -, -⟩ := h.around hx
  exact hbefore.invariant (fun y hy => hC y (List.mem_append_left _ hy)) hinit hstep

theorem Run.keeps_throughout {step : σ → α → σ → Prop} {s₀ s : σ} {trace : List (σ × α)}
    {I : σ → Prop} (h : Run step s₀ trace s) (hinit : I s₀)
    (hstep : ∀ s a s', I s → step s a s' → I s') : Throughout I trace s :=
  h.throughout (C := fun _ _ => True) (fun _ _ => trivial) hinit
    fun s a s' hs _ hone => hstep s a s' hs hone

/-- A view that a step either leaves alone or moves as an event says is the replay of the
events of the run. -/
theorem Run.replay {β τ : Type} {step : σ → α → σ → Prop} {s₀ s : σ} {trace : List (σ × α)}
    {I : σ → Prop} {view : σ → τ} {event : α → Option β} {apply : τ → β → τ}
    (h : Run step s₀ trace s) (hinit : I s₀) (hinv : ∀ s a s', I s → step s a s' → I s')
    (hstep : ∀ s a s', I s → step s a s' →
      view s' = (event a).elim (view s) (apply (view s))) :
    view s = (trace.filterMap fun x => event x.2).foldl apply (view s₀) := by
  induction h with
  | refl => rfl
  | @snoc trace s s' a hrun hone ih =>
      have hI : I s := hrun.keeps hinit hinv
      rw [hstep s a s' hI hone, List.filterMap_append, List.foldl_append, ← ih]
      cases hev : event a with
      | none => simp [hev]
      | some b => simp [hev]

/-! ## Projections

A view of a system that every step either leaves alone or moves by a step of a smaller
system turns each run of the large system into a run of the small one. -/

section Projection

variable {τ β : Type} {step : σ → α → σ → Prop} {step' : τ → β → τ → Prop}

/-- The steps of a trace that the view sees. -/
def projectTrace (view : σ → τ) (event : σ → α → Option β) (trace : List (σ × α)) :
    List (τ × β) :=
  trace.filterMap fun x => (event x.1 x.2).map fun b => (view x.1, b)

theorem forall_mem_projectTrace {view : σ → τ} {event : σ → α → Option β}
    {trace : List (σ × α)} {Q : τ → β → Prop} :
    (∀ y ∈ projectTrace view event trace, Q y.1 y.2) ↔
      ∀ x ∈ trace, ∀ b ∈ event x.1 x.2, Q (view x.1) b := by
  constructor
  · intro h x hx b hb
    exact h (view x.1, b) (List.mem_filterMap.mpr ⟨x, hx, by rw [hb]; rfl⟩)
  · intro h y hy
    obtain ⟨x, hx, heq⟩ := List.mem_filterMap.mp hy
    obtain ⟨b, hb, rfl⟩ := Option.map_eq_some_iff.mp heq
    exact h x hx b hb

/-- What a single step is to a view. -/
def Simulates (step' : τ → β → τ → Prop) (view : σ → τ) (event : σ → α → Option β)
    (s : σ) (a : α) (s' : σ) : Prop :=
  match event s a with
  | none => view s' = view s
  | some b => step' (view s) b (view s')

/-- A step leaves the view alone or is a step of it. -/
theorem Simulates.cases {view : σ → τ} {event : σ → α → Option β} {s s' : σ} {a : α}
    (h : Simulates step' view event s a s') :
    (event s a = none ∧ view s' = view s) ∨
      ∃ b, event s a = some b ∧ step' (view s) b (view s') := by
  unfold Simulates at h
  cases hev : event s a with
  | none =>
      rw [hev] at h
      exact Or.inl ⟨rfl, h⟩
  | some b =>
      rw [hev] at h
      exact Or.inr ⟨b, rfl, h⟩

/-- A step that the view sees is a step of it. -/
theorem Simulates.step_of_event {view : σ → τ} {event : σ → α → Option β} {s s' : σ} {a : α}
    {b : β} (h : Simulates step' view event s a s') (hev : event s a = some b) :
    step' (view s) b (view s') := by
  unfold Simulates at h
  rwa [hev] at h

/-- What a view's own steps preserve, the steps of the large system preserve. -/
theorem Simulates.preserves {view : σ → τ} {event : σ → α → Option β} {s s' : σ} {a : α}
    {I : τ → Prop} (h : Simulates step' view event s a s') (hinv : I (view s))
    (hstep : ∀ b ∈ event s a, step' (view s) b (view s') → I (view s')) : I (view s') := by
  rcases h.cases with ⟨-, hsame⟩ | ⟨b, hev, hview⟩
  · rwa [hsame]
  · exact hstep b hev hview

theorem Run.project {view : σ → τ} {event : σ → α → Option β}
    (hsim : ∀ s a s', step s a s' → Simulates step' view event s a s')
    {s₀ s : σ} {trace : List (σ × α)} (h : Run step s₀ trace s) :
    Run step' (view s₀) (projectTrace view event trace) (view s) := by
  induction h with
  | refl => exact .refl
  | @snoc trace s s' a _ hs ih =>
      unfold projectTrace at ih ⊢
      rw [List.filterMap_append]
      rcases (hsim s a s' hs).cases with ⟨hev, hsame⟩ | ⟨b, hev, hview⟩
      · simpa [hev, hsame] using ih
      · simpa [hev] using Run.snoc ih hview

/-- One step more. -/
theorem Run.snocProjected {view : σ → τ} {event : σ → α → Option β} {t₀ : τ} {s s' : σ} {a : α}
    {trace : List (σ × α)} (h : Run step' t₀ (projectTrace view event trace) (view s))
    (hsim : Simulates step' view event s a s') :
    Run step' t₀ (projectTrace view event (trace ++ [(s, a)])) (view s') := by
  unfold projectTrace at h ⊢
  rw [List.filterMap_append]
  rcases hsim.cases with ⟨hev, hsame⟩ | ⟨b, hev, hnext⟩
  · simpa [hev, hsame] using h
  · simpa [hev] using Run.snoc h hnext

/-- The same when a step is known to be one of the view only after the steps before it. -/
theorem Run.projectWithin {view : σ → τ} {event : σ → α → Option β} {s₀ s : σ}
    {trace : List (σ × α)} (h : Run step s₀ trace s)
    (hsim : ∀ t s a s', Run step s₀ t s → step s a s' → t ++ [(s, a)] <+: trace →
      Simulates step' view event s a s') :
    Run step' (view s₀) (projectTrace view event trace) (view s) := by
  refine h.history_invariant (C := fun t s a => t ++ [(s, a)] <+: trace)
    (I := fun t s => Run step' (view s₀) (projectTrace view event t) (view s)) ?_ .refl ?_
  · rintro t₁ x t₂ rfl
    exact ⟨t₂, by simp⟩
  · intro t s a s' hbefore hview hcut hone
    exact hview.snocProjected (hsim t s a s' hbefore hone hcut)

end Projection

/-! ## Executable systems -/

/-- The step relation of a system given by a partial function. -/
def Steps (next : σ → α → Option σ) (s : σ) (a : α) (s' : σ) : Prop := next s a = some s'

/-- Run a list of labels, keeping the trace. -/
def execute (next : σ → α → Option σ) : σ → List α → Option (List (σ × α) × σ)
  | s, [] => some ([], s)
  | s, a :: rest =>
      match next s a with
      | none => none
      | some s' => (execute next s' rest).map fun r => ((s, a) :: r.1, r.2)

/-- What `execute` returns is a run over the labels it was given. -/
theorem run_of_execute {next : σ → α → Option σ} :
    ∀ {labels : List α} {s₀ s : σ} {trace : List (σ × α)},
      execute next s₀ labels = some (trace, s) →
        Run (Steps next) s₀ trace s ∧ trace.map (·.2) = labels := by
  intro labels
  induction labels with
  | nil =>
      intro s₀ s trace h
      simp only [execute, Option.some.injEq, Prod.mk.injEq] at h
      obtain ⟨rfl, rfl⟩ := h
      exact ⟨.refl, rfl⟩
  | cons a rest ih =>
      intro s₀ s trace h
      rw [execute] at h
      split at h
      · simp at h
      · rename_i s' hs
        simp only [Option.map_eq_some_iff, Prod.mk.injEq] at h
        obtain ⟨⟨tr, last⟩, hrest, rfl, rfl⟩ := h
        obtain ⟨hrun, hlabels⟩ := ih hrest
        exact ⟨(Run.single hs).trans hrun, by simp [hlabels]⟩

/-- A check that succeeds on an executed run exhibits a run over these labels that
satisfies it. -/
theorem exists_labelled_run_of_execute (labels : List α) (next : σ → α → Option σ) (s₀ : σ)
    (check : List (σ × α) → σ → Prop) [∀ trace s, Decidable (check trace s)]
    (h : (execute next s₀ labels).any (fun r => decide (check r.1 r.2)) = true) :
    ∃ trace s, Run (Steps next) s₀ trace s ∧ trace.map (·.2) = labels ∧ check trace s := by
  cases hrun : execute next s₀ labels with
  | none => simp [hrun] at h
  | some r =>
      obtain ⟨hrun', hlabels⟩ := run_of_execute hrun
      exact ⟨r.1, r.2, hrun', hlabels, by simpa [hrun] using h⟩

/-- A check that succeeds on an executed run exhibits a run that satisfies it. -/
theorem exists_run_of_execute (labels : List α) (next : σ → α → Option σ) (s₀ : σ)
    (check : List (σ × α) → σ → Prop) [∀ trace s, Decidable (check trace s)]
    (h : (execute next s₀ labels).any (fun r => decide (check r.1 r.2)) = true) :
    ∃ trace s, Run (Steps next) s₀ trace s ∧ check trace s := by
  obtain ⟨trace, s, hrun, -, hcheck⟩ :=
    exists_labelled_run_of_execute labels next s₀ check h
  exact ⟨trace, s, hrun, hcheck⟩

end Firehose.Foundation
