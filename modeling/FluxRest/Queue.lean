import Mathlib.Algebra.Order.Field.Basic
import Mathlib.Algebra.Order.Floor.Semiring
import Mathlib.Data.List.Infix
import Mathlib.Data.List.Pairwise
import Mathlib.Order.Lattice

/-! Queues of entries with a deadline, in the order of their deadlines. -/
namespace Queue

variable {α τ : Type} [LinearOrder τ]

/-- Earlier entries have earlier deadlines. -/
def Sorted (q : List (α × τ)) : Prop := q.Pairwise fun a b => a.2 ≤ b.2

/-- The entries whose deadline is still to come. -/
def pending (now : τ) (q : List (α × τ)) : List (α × τ) := q.filter fun e => decide (now < e.2)

/-- The entries whose deadline has passed. -/
def due (now : τ) (q : List (α × τ)) : List (α × τ) := q.filter fun e => decide (e.2 ≤ now)

theorem mem_due {now : τ} {q : List (α × τ)} {e : α × τ} : e ∈ due now q ↔ e ∈ q ∧ e.2 ≤ now := by
  rw [due, List.mem_filter, decide_eq_true_eq]

theorem mem_pending {now : τ} {q : List (α × τ)} {e : α × τ} :
    e ∈ pending now q ↔ e ∈ q ∧ now < e.2 := by
  rw [pending, List.mem_filter, decide_eq_true_eq]

theorem Sorted.of_suffix {q q' : List (α × τ)} (h : Sorted q) (hs : q' <:+ q) : Sorted q' :=
  List.Pairwise.sublist hs.sublist h

/-- An entry that is due no earlier than the others goes to the end. -/
theorem Sorted.concat {q : List (α × τ)} (h : Sorted q) {e : α × τ} (he : ∀ d ∈ q, d.2 ≤ e.2) :
    Sorted (q ++ [e]) := by
  unfold Sorted
  rw [List.pairwise_append]
  refine ⟨h, List.pairwise_singleton _ _, ?_⟩
  intro d hd e' he'
  rw [List.mem_singleton.mp he']
  exact he d hd

theorem Sorted.head_le {q : List (α × τ)} {e d : α × τ} (h : Sorted (e :: q)) (hd : d ∈ e :: q) :
    e.2 ≤ d.2 := by
  rcases List.mem_cons.mp hd with rfl | hd
  · exact le_refl _
  · exact List.rel_of_pairwise_cons h hd

/-- In a sorted queue the entries that are due come first. -/
theorem Sorted.pending_isSuffix {q : List (α × τ)} (h : Sorted q) (now : τ) : pending now q <:+ q := by
  induction q with
  | nil => exact List.suffix_refl _
  | cons e q ih =>
    have htail : Sorted q := List.Pairwise.of_cons h
    by_cases he : now < e.2
    · have hall : ∀ d ∈ e :: q, decide (now < d.2) = true := by
        intro d hd
        rw [decide_eq_true_eq]
        exact lt_of_lt_of_le he (h.head_le hd)
      rw [pending, List.filter_eq_self.mpr hall]
    · have hcons : pending now (e :: q) = pending now q := by
        rw [pending, List.filter_cons_of_neg (by simpa using he)]
        rfl
      rw [hcons]
      exact (ih htail).trans (List.suffix_cons e q)

/-- What is still pending later was pending before. -/
theorem pending_isSuffix_pending {q : List (α × τ)} (h : Sorted q) {now now' : τ} (hle : now ≤ now') :
    pending now' q <:+ pending now q := by
  have hpending : pending now' (pending now q) = pending now' q := by
    unfold pending
    rw [List.filter_filter]
    apply List.filter_congr
    intro e _
    have hlt : now' < e.2 → now < e.2 := fun h => lt_of_le_of_lt hle h
    simpa using hlt
  rw [← hpending]
  exact (h.of_suffix (h.pending_isSuffix now)).pending_isSuffix now'

/-- The queue holds the last of the entries that ever came, which `history` lists the latest
first. -/
def Latest (q history : List (α × τ)) : Prop := ∃ gone, history = q.reverse ++ gone

omit [LinearOrder τ] in
theorem Latest.concat {q history : List (α × τ)} (h : Latest q history) (e : α × τ) :
    Latest (q ++ [e]) (e :: history) := by
  obtain ⟨gone, rfl⟩ := h
  refine ⟨gone, ?_⟩
  rw [List.reverse_append]
  rfl

omit [LinearOrder τ] in
theorem Latest.of_suffix {q q' history : List (α × τ)} (h : Latest q history) (hs : q' <:+ q) :
    Latest q' history := by
  obtain ⟨gone, rfl⟩ := h
  obtain ⟨front, rfl⟩ := hs
  refine ⟨front.reverse ++ gone, ?_⟩
  rw [List.reverse_append, List.append_assoc]

omit [LinearOrder τ] in
theorem Latest.mem {q history : List (α × τ)} (h : Latest q history) {e : α × τ} (he : e ∈ q) :
    e ∈ history := by
  obtain ⟨gone, rfl⟩ := h
  exact List.mem_append_left gone (List.mem_reverse.mpr he)

omit [LinearOrder τ] in
/-- Where no key comes twice, the entry of a key is unique and so is its place. -/
theorem split_unique {l l' r r' : List (α × τ)} {k : α} {x y : τ}
    (hn : ((l ++ (k, x) :: r).map Prod.fst).Nodup) (h : l ++ (k, x) :: r = l' ++ (k, y) :: r') :
    l = l' ∧ x = y := by
  induction l generalizing l' with
  | nil =>
    cases l' with
    | nil =>
      obtain ⟨hxy, -⟩ := List.cons.inj h
      exact ⟨rfl, (Prod.mk.inj hxy).2⟩
    | cons e l' =>
      obtain ⟨rfl, rfl⟩ := List.cons.inj h
      simp at hn
  | cons e l ih =>
    cases l' with
    | nil =>
      obtain ⟨rfl, rfl⟩ := List.cons.inj h
      simp at hn
    | cons e' l' =>
      obtain ⟨rfl, htail⟩ := List.cons.inj h
      obtain ⟨rfl, hxy⟩ := ih (List.nodup_cons.mp hn).2 htail
      exact ⟨rfl, hxy⟩

omit [LinearOrder τ] in
/-- The entries behind the head of the queue are those that came after it. -/
theorem Latest.newer_of_head {e : α × τ} {rest newer older : List (α × τ)} {d : τ}
    (hn : ((newer ++ (e.1, d) :: older).map Prod.fst).Nodup)
    (h : Latest (e :: rest) (newer ++ (e.1, d) :: older)) : newer.length = rest.length := by
  obtain ⟨gone, hgone⟩ := h
  rw [List.reverse_cons, List.append_assoc] at hgone
  obtain ⟨rfl, -⟩ := split_unique hn hgone
  exact List.length_reverse

section Rounds

variable {K : Type} [Field K] [LinearOrder K] [IsStrictOrderedRing K] [FloorSemiring K]

/-- How many times `limit` goes into a time, rounded up; never, where there is no limit. -/
def periods (limit : Option K) (x : K) : ℕ :=
  match limit with
  | none => 0
  | some t => ⌈x / t⌉₊

/-- How many rounds empty the queue, if each of them waits for the head to be due, but for no more
than `limit`, and removes what is due. -/
def rounds (limit : Option K) (now : K) (q : List (α × K)) : ℕ :=
  q.length + match q.getLast? with
    | none => 0
    | some e => periods limit (e.2 - now)

variable {limit : Option K} {x y now now' : K} {q q' : List (α × K)}

theorem periods_mono (hlimit : ∀ t ∈ limit, 0 < t) (h : x ≤ y) :
    periods limit x ≤ periods limit y := by
  cases limit with
  | none => exact le_refl _
  | some t =>
    have ht : 0 < t := hlimit t rfl
    exact Nat.ceil_mono (div_le_div_of_nonneg_right h ht.le)

theorem periods_lt {t : K} (ht : 0 < t) (hx : 0 ≤ x) (h : x + t ≤ y) :
    periods (some t) x < periods (some t) y := by
  have hstep : x / t + 1 ≤ y / t := by
    rw [div_add_one ht.ne']
    exact div_le_div_of_nonneg_right h ht.le
  have hceil : ⌈x / t⌉₊ + 1 ≤ ⌈y / t⌉₊ := by
    rw [← Nat.ceil_add_one (div_nonneg hx ht.le)]
    exact Nat.ceil_mono hstep
  exact hceil

/-- What leaves the queue at its head saves a round each. -/
theorem rounds_le (hlimit : ∀ t ∈ limit, 0 < t) (hs : q' <:+ q) (h : now ≤ now') :
    rounds limit now' q' + q.length ≤ rounds limit now q + q'.length := by
  obtain ⟨front, rfl⟩ := hs
  unfold rounds
  cases hlast : q'.getLast? with
  | none =>
    dsimp only
    omega
  | some e =>
    have hsame : (front ++ q').getLast? = some e := by
      rw [List.getLast?_append, hlast, Option.some_or]
    have hle : periods limit (e.2 - now') ≤ periods limit (e.2 - now) :=
      periods_mono hlimit (sub_le_sub_left h e.2)
    rw [hsame]
    dsimp only
    omega

theorem rounds_pending_lt (hlimit : ∀ t ∈ limit, 0 < t) (hs : Sorted q) {e : α × K}
    (he : e ∈ q.head?) (h : now ≤ now')
    (hwait : e.2 ≤ now' ∨ ∃ t, limit = some t ∧ now + t ≤ now') :
    rounds limit now' (pending now' q) < rounds limit now q := by
  have hsuffix : pending now' q <:+ q := hs.pending_isSuffix now'
  have hle := rounds_le hlimit hsuffix h
  have hlength := hsuffix.length_le
  by_cases hall : pending now' q = q
  · obtain hdue | ⟨t, rfl, hwait⟩ := hwait
    · have hmem : e ∈ pending now' q := by
        rw [hall]
        exact List.mem_of_mem_head? he
      exact absurd hdue (not_le.mpr (mem_pending.mp hmem).2)
    · obtain ⟨l, hl⟩ : ∃ l, q.getLast? = some l := by
        cases q with
        | nil => cases he
        | cons d q => exact ⟨_, List.getLast?_cons⟩
      have hlate : now' < l.2 := by
        have hmem : l ∈ pending now' q := by
          rw [hall]
          exact List.mem_of_getLast? hl
        exact (mem_pending.mp hmem).2
      have hlt : periods (some t) (l.2 - now') < periods (some t) (l.2 - now) := by
        apply periods_lt (hlimit t rfl)
        · exact sub_nonneg.mpr hlate.le
        · rw [sub_add, sub_le_sub_iff_left]
          exact le_sub_iff_add_le.mpr hwait
      rw [hall]
      unfold rounds
      rw [hl]
      dsimp only
      omega
  · have hshorter : (pending now' q).length < q.length := by
      apply lt_of_le_of_ne hlength
      intro heq
      exact hall (hsuffix.eq_of_length heq)
    omega

/-- The queue is empty after as many rounds as it has entries, and those it takes for the last of
them to be due. -/
theorem rounds_le_of_soon (hlimit : ∀ t ∈ limit, 0 < t) {n : ℕ} {linger : K}
    (hlength : q.length ≤ n) (h : ∀ e ∈ q, e.2 ≤ now + linger) :
    rounds limit now q ≤ n + periods limit linger := by
  unfold rounds
  cases hl : q.getLast? with
  | none =>
    dsimp only
    omega
  | some e =>
    have hsoon : e.2 - now ≤ linger := sub_le_iff_le_add'.mpr (h e (List.mem_of_getLast? hl))
    have hle := periods_mono hlimit hsoon
    dsimp only
    omega

end Rounds

end Queue
