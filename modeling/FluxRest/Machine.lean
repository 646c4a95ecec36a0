import Mathlib.Data.List.Infix
import Mathlib.Data.Option.Basic

/-! Machines that take one event at a time, and what holds along their runs. -/
namespace Machine

variable {σ ε : Type}

/-- The state after a sequence of events, where each of them can happen. -/
def run (step : σ → ε → Option σ) : σ → List ε → Option σ
  | s, [] => some s
  | s, e :: es => (step s e).bind fun t => run step t es

variable {step : σ → ε → Option σ}

theorem run_cons {s u : σ} {e : ε} {es : List ε} :
    run step s (e :: es) = some u ↔ ∃ t, step s e = some t ∧ run step t es = some u := by
  rw [run, Option.bind_eq_some_iff]

theorem run_append {s u : σ} {es es' : List ε} :
    run step s (es ++ es') = some u ↔ ∃ t, run step s es = some t ∧ run step t es' = some u := by
  induction es generalizing s with
  | nil => simp [run]
  | cons e es ih =>
    rw [List.cons_append, run_cons]
    constructor
    · intro h
      obtain ⟨t, ht, hu⟩ := h
      obtain ⟨t', ht', hu⟩ := ih.mp hu
      exact ⟨t', run_cons.mpr ⟨t, ht, ht'⟩, hu⟩
    · intro h
      obtain ⟨t', ht', hu⟩ := h
      obtain ⟨t, ht, ht'⟩ := run_cons.mp ht'
      exact ⟨t, ht, ih.mpr ⟨t', ht', hu⟩⟩

/-- What every step keeps, every run keeps. -/
theorem run_invariant {I : σ → Prop} (hstep : ∀ s e t, I s → step s e = some t → I t) {s t : σ}
    {es : List ε} (hs : I s) (h : run step s es = some t) : I t := by
  induction es generalizing s with
  | nil =>
    cases h
    exact hs
  | cons e es ih =>
    obtain ⟨u, hu, ht⟩ := run_cons.mp h
    exact ih (hstep s e u hs hu) ht

/-- What holds at the end of a run and did not at its start was brought about by one of its steps. -/
theorem run_brings {P : σ → Prop} {s t : σ} {es : List ε} (hs : ¬ P s) (h : run step s es = some t)
    (ht : P t) : ∃ e ∈ es, ∃ u v, step u e = some v ∧ ¬ P u ∧ P v := by
  induction es generalizing s with
  | nil =>
    cases h
    exact absurd ht hs
  | cons e es ih =>
    obtain ⟨u, hu, hrest⟩ := run_cons.mp h
    by_cases hP : P u
    · exact ⟨e, List.mem_cons_self, s, u, hu, hs, hP⟩
    · obtain ⟨e', he', hstep⟩ := ih hP hrest
      exact ⟨e', List.mem_cons_of_mem e he', hstep⟩

/-- Each event of a run meets `P` in the state it comes in. -/
def Along (step : σ → ε → Option σ) (P : σ → ε → Prop) : σ → List ε → Prop
  | _, [] => True
  | s, e :: es => P s e ∧ ∀ t ∈ step s e, Along step P t es

instance Along.decidable {P : σ → ε → Prop} [∀ s e, Decidable (P s e)] :
    ∀ s es, Decidable (Along step P s es)
  | _, [] => .isTrue trivial
  | s, e :: es =>
    have (t : σ) : Decidable (Along step P t es) := Along.decidable t es
    inferInstanceAs (Decidable (P s e ∧ ∀ t ∈ step s e, Along step P t es))

/-- What the steps that meet `P` keep, a run of such steps keeps. -/
theorem run_invariant_along {I : σ → Prop} {P : σ → ε → Prop}
    (hstep : ∀ s e t, I s → P s e → step s e = some t → I t) {s t : σ} {es : List ε} (hs : I s)
    (ha : Along step P s es) (h : run step s es = some t) : I t := by
  induction es generalizing s with
  | nil =>
    cases h
    exact hs
  | cons e es ih =>
    obtain ⟨u, hu, ht⟩ := run_cons.mp h
    exact ih (hstep s e u hs ha.1 hu) (ha.2 u hu) ht

/-- `t` is the state after some sequence of events from `s`. -/
def Reaches (step : σ → ε → Option σ) (s t : σ) : Prop := ∃ es, run step s es = some t

theorem Reaches.next {s t u : σ} {e : ε} (h : Reaches step s t) (hu : step t e = some u) :
    Reaches step s u := by
  obtain ⟨es, hes⟩ := h
  exact ⟨es ++ [e], run_append.mpr ⟨t, hes, run_cons.mpr ⟨u, hu, rfl⟩⟩⟩

/-- Induction along a run, where what is known of the states before a step may be used. -/
theorem Reaches.invariant {I : σ → Prop} {s t : σ} (h : Reaches step s t) (h0 : I s)
    (hstep : ∀ u e v, Reaches step s u → I u → step u e = some v → I v) : I t := by
  obtain ⟨es, hes⟩ := h
  induction es using List.reverseRecOn generalizing t with
  | nil =>
    cases hes
    exact h0
  | append_singleton es e ih =>
    obtain ⟨u, hu, ht⟩ := run_append.mp hes
    obtain ⟨v, hv, hnil⟩ := run_cons.mp ht
    cases hnil
    exact hstep u e t ⟨es, hu⟩ (ih hu) hv

/-- A run adds no more to a count than it has events of the kind that add to it. -/
theorem run_countP_le {m : σ → ℕ} {p : ε → Bool}
    (hstep : ∀ s e t, step s e = some t → m t ≤ m s + if p e then 1 else 0) {s t : σ} {es : List ε}
    (h : run step s es = some t) : m t ≤ m s + es.countP p := by
  induction es generalizing s with
  | nil =>
    cases h
    exact le_refl _
  | cons e es ih =>
    obtain ⟨u, hu, ht⟩ := run_cons.mp h
    have hfirst : m u ≤ m s + if p e then 1 else 0 := hstep s e u hu
    have hrest : m t ≤ m u + es.countP p := ih ht
    rw [List.countP_cons]
    omega

/-- A run of events that meet `P` has no more of one kind than the state it begins in has to
spend. -/
theorem run_spends {I : σ → Prop} {P : ε → Prop} {m : σ → ℕ} {p : ε → Bool}
    (hstep : ∀ s e t, I s → P e → step s e = some t → I t ∧ m t + (if p e then 1 else 0) ≤ m s)
    {s t : σ} {es : List ε} (hs : I s) (hP : ∀ e ∈ es, P e) (h : run step s es = some t) :
    es.countP p + m t ≤ m s := by
  induction es generalizing s with
  | nil =>
    cases h
    rw [List.countP_nil, Nat.zero_add]
  | cons e es ih =>
    obtain ⟨u, hu, ht⟩ := run_cons.mp h
    obtain ⟨hI, hfirst⟩ := hstep s e u hs (hP e List.mem_cons_self) hu
    have hrest : es.countP p + m t ≤ m u :=
      ih hI (fun e' he' => hP e' (List.mem_cons_of_mem e he')) ht
    rw [List.countP_cons]
    omega

theorem Reaches.first {s t u : σ} {e : ε} (ht : step s e = some t) (h : Reaches step t u) :
    Reaches step s u := by
  obtain ⟨es, hes⟩ := h
  exact ⟨e :: es, run_cons.mpr ⟨t, ht, hes⟩⟩

/-- Two machines that take the same steps in every state that one of them comes to have the same
runs. -/
theorem run_congr {step' : σ → ε → Option σ} {s : σ}
    (h : ∀ t e, Reaches step s t → step t e = step' t e) (es : List ε) :
    run step s es = run step' s es := by
  induction es generalizing s with
  | nil => rfl
  | cons e es ih =>
    rw [run, run, ← h s e ⟨[], rfl⟩]
    cases hu : step s e with
    | none => rfl
    | some u => exact ih fun t e' ht => h t e' (ht.first hu)

/-- A machine whose steps are steps of another, where part of the state and of the events is left
out, does no more than the other can do. -/
theorem Reaches.project {σ' ε' : Type} {step' : σ' → ε' → Option σ'} {p : σ' → σ} {q : ε' → ε}
    (hstep : ∀ s e t, step' s e = some t → step (p s) (q e) = some (p t)) {s t : σ'}
    (h : Reaches step' s t) : Reaches step (p s) (p t) := by
  obtain ⟨es, hes⟩ := h
  refine ⟨es.map q, ?_⟩
  induction es generalizing s with
  | nil =>
    cases hes
    rfl
  | cons e es ih =>
    obtain ⟨u, hu, ht⟩ := run_cons.mp hes
    exact run_cons.mpr ⟨p u, hstep s e u hu, ih ht⟩

/-- Every way of going on comes to `goal` after finitely many moves, and none gets stuck. -/
inductive Leads (move : σ → σ → Prop) (goal : σ → Prop) : σ → Prop where
  | here {s} (h : goal s) : Leads move goal s
  | on {s} (hmove : ∃ t, move s t) (h : ∀ t, move s t → Leads move goal t) : Leads move goal s

/-- Moves that come to the goal or get smaller in a well-founded order lead to the goal. -/
theorem Leads.of_decreasing_until {α : Type} {r : α → α → Prop} (hr : WellFounded r) {m : σ → α}
    {move : σ → σ → Prop} {goal I : σ → Prop}
    (hmove : ∀ s t, I s → ¬ goal s → move s t → I t ∧ (goal t ∨ r (m t) (m s)))
    (hgoal : ∀ s, I s → ¬ goal s → ∃ t, move s t) {s : σ} (hs : I s) : Leads move goal s := by
  induction h : m s using hr.induction generalizing s with
  | _ a ih =>
    by_cases hs' : goal s
    · exact .here hs'
    · apply Leads.on (hgoal s hs hs')
      intro t ht
      obtain ⟨hI, ht' | hlt⟩ := hmove s t hs hs' ht
      · exact .here ht'
      · rw [h] at hlt
        exact ih (m t) hlt hI rfl

theorem Leads.of_decreasing {α : Type} {r : α → α → Prop} (hr : WellFounded r) {m : σ → α}
    {move : σ → σ → Prop} {goal I : σ → Prop}
    (hmove : ∀ s t, I s → move s t → I t ∧ r (m t) (m s))
    (hgoal : ∀ s, I s → ¬ goal s → ∃ t, move s t) {s : σ} (hs : I s) : Leads move goal s := by
  refine Leads.of_decreasing_until hr (m := m) (I := I) ?_ hgoal hs
  intro s t hI _ ht
  obtain ⟨hI', hlt⟩ := hmove s t hI ht
  exact ⟨hI', Or.inr hlt⟩

/-- What every move keeps may be added to what the moves lead to. -/
theorem Leads.strengthen {move : σ → σ → Prop} {goal goal' I : σ → Prop}
    (hkeep : ∀ s t, I s → move s t → I t) (hgoal : ∀ s, I s → goal s → goal' s) {s : σ}
    (h : Leads move goal s) (hs : I s) : Leads move goal' s := by
  induction h with
  | here h => exact .here (hgoal _ hs h)
  | on hmove _ ih => exact .on hmove fun t ht => ih t ht (hkeep _ t hs ht)

end Machine

/-! Histories list what has happened, the latest first. -/
namespace History

variable {α : Type}

/-- Each entry satisfies `P` of what came before it. -/
def Always (P : α → List α → Prop) : List α → Prop
  | [] => True
  | a :: older => P a older ∧ Always P older

theorem Always.append {P : α → List α → Prop} {newer older : List α} (h : Always P older)
    (hn : ∀ a mid, a :: mid <:+ newer → P a (mid ++ older)) : Always P (newer ++ older) := by
  induction newer with
  | nil => exact h
  | cons a newer ih =>
    constructor
    · exact hn a newer (List.suffix_refl _)
    · apply ih
      intro b mid hb
      exact hn b mid (hb.trans (List.suffix_cons a newer))

theorem Always.of_append {P : α → List α → Prop} {newer older : List α}
    (h : Always P (newer ++ older)) : Always P older := by
  induction newer with
  | nil => exact h
  | cons a newer ih => exact ih h.2

/-- What `Always` says of any entry. -/
theorem Always.entry {P : α → List α → Prop} {newer older : List α} {a : α}
    (h : Always P (newer ++ a :: older)) : P a older :=
  h.of_append.1

end History
