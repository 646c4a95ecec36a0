import FluxRest.Py.Exc

/-! Rules for computations that may raise: what they leave alone, what they return, and what
they add to a log. -/
namespace Py
namespace Proc

variable {σ α β γ : Type}

/-- `x` leaves the part `f` of the state as it was, whether it returns or raises. -/
def Keeps (f : σ → γ) (x : Proc σ α) : Prop := ∀ s, f (x.run s).2 = f s

namespace Keeps

variable {f : σ → γ}

theorem pure (a : α) : Keeps f (Pure.pure a : Proc σ α) := fun _ => rfl

theorem throw (e : Exc) : Keeps f (MonadExcept.throw e : Proc σ α) := fun _ => rfl

theorem get : Keeps f (MonadState.get : Proc σ σ) := fun _ => rfl

theorem ofExcept (r : Except Exc α) : Keeps f (ofExcept r : Proc σ α) := fun _ => rfl

theorem modify {g : σ → σ} (h : ∀ s, f (g s) = f s) :
    Keeps f (MonadState.modifyGet fun s => ((), g s) : Proc σ Unit) := h

theorem bind {x : Proc σ α} {g : α → Proc σ β} (hx : Keeps f x) (hg : ∀ a, Keeps f (g a)) :
    Keeps f (x >>= g) := fun s => by
  rw [run_bind]
  have h := hx s
  rcases hr : x.run s with ⟨r, t⟩
  rw [hr] at h
  cases r with
  | ok a => exact (hg a t).trans h
  | error e => exact h

theorem tryCatch {x : Proc σ α} {h : Exc → Proc σ α} (hx : Keeps f x)
    (hh : ∀ e, Keeps f (h e)) : Keeps f (MonadExcept.tryCatch x h) := fun s => by
  rw [run_tryCatch]
  have hs := hx s
  rcases hr : x.run s with ⟨r, t⟩
  rw [hr] at hs
  cases r with
  | ok a => exact hs
  | error e => exact (hh e t).trans hs

theorem map {x : Proc σ α} {g : α → β} (hx : Keeps f x) : Keeps f (g <$> x) :=
  bind hx fun _ => pure _

end Keeps

/-- Every value `x` returns satisfies `P`. -/
def Returns (P : α → Prop) (x : Proc σ α) : Prop := ∀ s a, (x.run s).1 = .ok a → P a

namespace Returns

variable {P : α → Prop} {Q : β → Prop}

theorem pure {a : α} (h : P a) : Returns P (Pure.pure a : Proc σ α) := fun _ _ e => by
  cases e
  exact h

theorem throw (e : Exc) : Returns P (MonadExcept.throw e : Proc σ α) := fun _ _ h => by cases h

/-- The rule of sequence: what `x` returns may be used of what follows. -/
theorem seq {x : Proc σ α} {g : α → Proc σ β} (hx : Returns P x)
    (hg : ∀ a, P a → Returns Q (g a)) : Returns Q (x >>= g) := fun s b h => by
  rw [run_bind] at h
  rcases hr : x.run s with ⟨r, t⟩
  rw [hr] at h
  cases r with
  | ok a => exact hg a (hx s a (by rw [hr])) t b h
  | error e => cases h

theorem bind {x : Proc σ α} {g : α → Proc σ β} (hg : ∀ a, Returns Q (g a)) :
    Returns Q (x >>= g) :=
  seq (P := fun _ => True) (fun _ _ _ => True.intro) fun a _ => hg a

theorem map {x : Proc σ α} {g : α → β} (hx : Returns P x) (hg : ∀ a, P a → Q (g a)) :
    Returns Q (g <$> x) := seq hx fun a ha => pure (hg a ha)

theorem trivial (x : Proc σ α) : Returns (fun _ => True) x := fun _ _ _ => True.intro

theorem tryCatch {x : Proc σ α} {h : Exc → Proc σ α} (hx : Returns P x)
    (hh : ∀ e, Returns P (h e)) : Returns P (MonadExcept.tryCatch x h) := fun s a he => by
  rw [run_tryCatch] at he
  rcases hr : x.run s with ⟨r, t⟩
  rw [hr] at he
  cases r with
  | ok b =>
    have hb := hx s b (by rw [hr])
    cases he
    exact hb
  | error e => exact hh e t a he

theorem ofExcept {r : Except Exc α} (h : ∀ a, r = .ok a → P a) :
    Returns P (ofExcept r : Proc σ α) := fun _ a e => h a e

end Returns

/-- Each run of `x` appends to the log `f`, and `P` relates what it appends to its outcome. -/
def Emits (f : σ → List γ) (P : List γ → Except Exc α → Prop) (x : Proc σ α) : Prop :=
  ∀ s, ∃ l, f (x.run s).2 = f s ++ l ∧ P l (x.run s).1

namespace Emits

variable {f : σ → List γ} {P P' : List γ → Except Exc α → Prop} {Q : List γ → Except Exc β → Prop}

/-- The rule of consequence. -/
theorem imp {x : Proc σ α} (hx : Emits f P x) (h : ∀ l r, P l r → P' l r) : Emits f P' x := by
  intro s
  obtain ⟨l, hl, hp⟩ := hx s
  exact ⟨l, hl, h l _ hp⟩

theorem of_keeps {x : Proc σ α} {R : α → Prop} (hk : Keeps f x) (hr : Returns R x)
    (h : ∀ r, (∀ a, r = .ok a → R a) → P [] r) : Emits f P x := by
  intro s
  have hs := hk s
  exact ⟨[], by rw [hs, List.append_nil], h _ fun a ha => hr s a ha⟩

theorem seq {x : Proc σ α} {g : α → Proc σ β} (hx : Emits f P x)
    (herr : ∀ l e, P l (.error e) → Q l (.error e))
    (hg : ∀ l a, P l (.ok a) → Emits f (fun l' r => Q (l ++ l') r) (g a)) :
    Emits f Q (x >>= g) := by
  intro s
  obtain ⟨l, hl, hp⟩ := hx s
  rcases hr : x.run s with ⟨r, t⟩
  rw [hr] at hl hp
  cases r with
  | ok a =>
    obtain ⟨l', hl', hq⟩ := hg l a hp t
    rw [run_bind_ok hr]
    exact ⟨l ++ l', by rw [hl', hl, List.append_assoc], hq⟩
  | error e =>
    rw [run_bind_error hr]
    exact ⟨l, hl, herr l e hp⟩

theorem tryCatch {x : Proc σ α} {h : Exc → Proc σ α} (hx : Emits f P x)
    (hok : ∀ l a, P l (.ok a) → P' l (.ok a))
    (hh : ∀ l e, P l (.error e) → Emits f (fun l' r => P' (l ++ l') r) (h e)) :
    Emits f P' (MonadExcept.tryCatch x h) := by
  intro s
  obtain ⟨l, hl, hp⟩ := hx s
  rcases hr : x.run s with ⟨r, t⟩
  rw [hr] at hl hp
  cases r with
  | ok a =>
    rw [run_tryCatch_ok hr]
    exact ⟨l, hl, hok l a hp⟩
  | error e =>
    obtain ⟨l', hl', hq⟩ := hh l e hp t
    rw [run_tryCatch_error hr]
    exact ⟨l ++ l', by rw [hl', hl, List.append_assoc], hq⟩

/-! What holds of each part of a log, and of any two parts put together, holds of the whole. -/

section Append

variable {R : List γ → Prop} (happend : ∀ l l', R l → R l' → R (l ++ l'))
include happend

theorem append_seq {x : Proc σ α} {g : α → Proc σ β} (hx : Emits f (fun l _ => R l) x)
    (hg : ∀ a, Emits f (fun l _ => R l) (g a)) : Emits f (fun l _ => R l) (x >>= g) :=
  hx.seq (fun _ _ h => h) fun l a h => (hg a).imp fun l' _ h' => happend l l' h h'

theorem append_tryCatch {x : Proc σ α} {h : Exc → Proc σ α} (hx : Emits f (fun l _ => R l) x)
    (hh : ∀ e, Emits f (fun l _ => R l) (h e)) :
    Emits f (fun l _ => R l) (MonadExcept.tryCatch x h) :=
  hx.tryCatch (fun _ _ h => h) fun l e h => (hh e).imp fun l' _ h' => happend l l' h h'

end Append

theorem pure {a : α} (h : P [] (.ok a)) : Emits f P (Pure.pure a : Proc σ α) := by
  intro s
  exact ⟨[], (List.append_nil _).symm, h⟩

theorem throw {e : Exc} (h : P [] (.error e)) : Emits f P (MonadExcept.throw e : Proc σ α) := by
  intro s
  exact ⟨[], (List.append_nil _).symm, h⟩

theorem ofExcept {r : Except Exc α} (h : P [] r) : Emits f P (ofExcept r : Proc σ α) := by
  intro s
  exact ⟨[], (List.append_nil _).symm, h⟩

end Emits

/-- A Hoare triple: from a state with `P`, the outcome of `x` and the state it leaves satisfy `Q`. -/
def Spec (P : σ → Prop) (x : Proc σ α) (Q : Except Exc α → σ → Prop) : Prop :=
  ∀ s, P s → Q (x.run s).1 (x.run s).2

namespace Spec

variable {P P' R : σ → Prop} {Q Q' : Except Exc α → σ → Prop} {S : Except Exc β → σ → Prop}

theorem imp {x : Proc σ α} (hx : Spec P x Q) (hp : ∀ s, P' s → P s)
    (hq : ∀ r s, Q r s → Q' r s) : Spec P' x Q' := by
  intro s hs
  exact hq _ _ (hx s (hp s hs))

theorem seq {x : Proc σ α} {g : α → Proc σ β} (hx : Spec P x Q)
    (herr : ∀ e s, Q (.error e) s → S (.error e) s) (hg : ∀ a, Spec (Q (.ok a)) (g a) S) :
    Spec P (x >>= g) S := by
  intro s hs
  have hq := hx s hs
  rcases hr : x.run s with ⟨e | a, t⟩
  · rw [hr] at hq
    rw [run_bind_error hr]
    exact herr e t hq
  · rw [hr] at hq
    rw [run_bind_ok hr]
    exact hg a t hq

theorem tryCatch {x : Proc σ α} {h : Exc → Proc σ α} (hx : Spec P x Q)
    (hok : ∀ a s, Q (.ok a) s → Q' (.ok a) s) (hh : ∀ e, Spec (Q (.error e)) (h e) Q') :
    Spec P (MonadExcept.tryCatch x h) Q' := by
  intro s hs
  have hq := hx s hs
  rcases hr : x.run s with ⟨e | a, t⟩
  · rw [hr] at hq
    rw [run_tryCatch_error hr]
    exact hh e t hq
  · rw [hr] at hq
    rw [run_tryCatch_ok hr]
    exact hok a t hq

end Spec

/-- `x` keeps the invariant `P`, whether it returns or raises. -/
def Preserves (P : σ → Prop) (x : Proc σ α) : Prop := Spec P x fun _ => P

namespace Preserves

variable {P R : σ → Prop}

theorem pure (a : α) : Preserves P (Pure.pure a : Proc σ α) := fun _ h => h

theorem throw (e : Exc) : Preserves P (MonadExcept.throw e : Proc σ α) := fun _ h => h

theorem ofExcept (r : Except Exc α) : Preserves P (ofExcept r : Proc σ α) := fun _ h => h

theorem modify {g : σ → σ} (h : ∀ s, P s → P (g s)) :
    Preserves P (MonadState.modifyGet fun s => ((), g s) : Proc σ Unit) := h

theorem bind {x : Proc σ α} {g : α → Proc σ β} (hx : Preserves P x)
    (hg : ∀ a, Preserves P (g a)) : Preserves P (x >>= g) :=
  Spec.seq hx (fun _ _ h => h) hg

theorem tryCatch {x : Proc σ α} {h : Exc → Proc σ α} (hx : Preserves P x)
    (hh : ∀ e, Preserves P (h e)) : Preserves P (MonadExcept.tryCatch x h) :=
  Spec.tryCatch hx (fun _ _ h => h) hh

theorem map {x : Proc σ α} {g : α → β} (hx : Preserves P x) : Preserves P (g <$> x) :=
  bind hx fun _ => pure _

end Preserves
end Proc
end Py
