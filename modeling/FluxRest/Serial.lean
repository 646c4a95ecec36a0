import FluxRest.Machine
import Mathlib.Data.List.Forall2

/-! An object that serves one request after the other, and histories of what it has served. -/
namespace Serial

variable {σ ρ α : Type}

/-- From `s` on, the requests of a history were served one after the other, each in the state that
the ones before it had left, with the replies of the history; the latest is first. -/
inductive Served (serve : σ → ρ → α → σ → Prop) (s : σ) : List (ρ × α) → σ → Prop
  | nil : Served serve s [] s
  | cons {h t r a u} (hs : Served serve s h t) (hr : serve t r a u) : Served serve s ((r, a) :: h) u

variable {serve : σ → ρ → α → σ → Prop} {s t u : σ} {h : List (ρ × α)}

/-- What every request keeps, every history keeps. -/
theorem Served.invariant {I : σ → Prop} (hstep : ∀ t r a u, I t → serve t r a u → I u) (hs : I s)
    (hh : Served serve s h t) : I t := by
  induction hh with
  | nil => exact hs
  | cons _ hr ih => exact hstep _ _ _ _ ih hr

/-- A history that goes on after another begins in the state that the other left. -/
theorem served_append {older newer : List (ρ × α)} : Served serve s (newer ++ older) u ↔
    ∃ t, Served serve s older t ∧ Served serve t newer u := by
  induction newer generalizing u with
  | nil =>
    constructor
    · intro hs
      exact ⟨u, hs, .nil⟩
    · rintro ⟨t, hs, hnil⟩
      cases hnil
      exact hs
  | cons e newer ih =>
    constructor
    · intro hs
      cases hs with
      | cons hs hr =>
        obtain ⟨t, holder, hnewer⟩ := ih.mp hs
        exact ⟨t, holder, .cons hnewer hr⟩
    · rintro ⟨t, holder, hnewer⟩
      cases hnewer with
      | cons hs hr => exact .cons (ih.mpr ⟨t, holder, hs⟩) hr

/-- Each reply of a history was made in the state that the requests before it had left. -/
theorem Served.entry {older newer : List (ρ × α)} {r : ρ} {a : α}
    (hh : Served serve s (newer ++ (r, a) :: older) u) :
    ∃ t v, Served serve s older t ∧ serve t r a v := by
  obtain ⟨v, hs, -⟩ := served_append.mp hh
  cases hs with
  | cons hs hr => exact ⟨_, v, hs, hr⟩

/-- Where each request adds one entry to a log if its reply tells of it, and none otherwise, the log
of a whole history is what its replies tell of, in their order. -/
theorem Served.ledger {γ : Type} {log : σ → List γ} {tells : ρ × α → Bool} {P : γ → ρ × α → Prop}
    (hstep : ∀ t r a u, (r, a) ∈ h → serve t r a u →
      tells (r, a) = false ∧ log u = log t ∨
        tells (r, a) = true ∧ ∃ c, log u = log t ++ [c] ∧ P c (r, a))
    (hs : log s = []) (hh : Served serve s h t) :
    List.Forall₂ P (log t) (h.reverse.filter tells) := by
  induction hh with
  | nil =>
    rw [hs]
    exact .nil
  | cons _ hr ih =>
    have hearlier := ih fun t r a u hmem => hstep t r a u (List.mem_cons_of_mem _ hmem)
    rw [List.reverse_cons, List.filter_append]
    obtain ⟨hsilent, hlog⟩ | ⟨htells, c, hlog, hc⟩ := hstep _ _ _ _ List.mem_cons_self hr
    · rw [hlog, List.filter_singleton, hsilent, cond_false, List.append_nil]
      exact hearlier
    · rw [hlog, List.filter_singleton, htells, cond_true]
      exact List.rel_append hearlier (.cons hc .nil)

end Serial
