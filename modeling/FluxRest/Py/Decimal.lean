import FluxRest.Py.Text
import Mathlib.Algebra.Group.Nat.Defs

/-! Decimal numerals: `int` reads back what `str` writes. -/
namespace Py

theorem isDigit_eq (c : Char) : isDigit c = c.isDigit := by
  simp only [isDigit, Char.isDigit, ge_iff_le, UInt32.le_iff_toNat_le]
  rfl

theorem isDigit_of_mem_natStr {n : ℕ} {c : Char} (h : c ∈ natStr n) : isDigit c = true := by
  rw [isDigit_eq]
  exact Nat.isDigit_of_mem_toDigits (by decide) (by decide) h

theorem natStr_ne_nil (n : ℕ) : natStr n ≠ [] := Nat.toDigits_ne_nil

theorem all_isDigit_natStr (n : ℕ) : (natStr n).all isDigit = true := by
  rw [List.all_eq_true]
  intro c hc
  exact isDigit_of_mem_natStr hc

theorem digitsValue_natStr (n : ℕ) : digitsValue 0 (natStr n) = n := by
  have hvalue : ∀ (s : Str) (acc : ℕ), digitsValue acc s = Nat.ofDigitChars 10 s acc := by
    intro s
    induction s with
    | nil =>
      intro acc
      rw [Nat.ofDigitChars_nil]
      rfl
    | cons c s ih =>
      intro acc
      rw [Nat.ofDigitChars_cons, ← ih]
      rfl
  rw [hvalue]
  exact Nat.ofDigitChars_ten_toDigits

/-- Only the numeral of zero begins with a zero. -/
theorem natStr_zero {n : ℕ} {s : Str} (h : natStr n = '0' :: s) : n = 0 ∧ s = [] := by
  induction n using Nat.strong_induction_on generalizing s with
  | _ n ih =>
    unfold natStr at h ih
    rw [Nat.toDigits_eq_if (by decide)] at h
    split_ifs at h with hlt
    · obtain ⟨hc, hs⟩ := List.cons.inj h
      exact ⟨Nat.digitChar_eq_zero.mp hc, hs.symm⟩
    · obtain ⟨c, t, ht⟩ := List.exists_cons_of_ne_nil (natStr_ne_nil (n / 10))
      unfold natStr at ht
      rw [ht, List.cons_append] at h
      obtain ⟨rfl, -⟩ := List.cons.inj h
      have hzero : n / 10 = 0 := (ih (n / 10) (by omega) ht).1
      omega

theorem not_isIntSpace_of_isDigit {c : Char} (h : isDigit c = true) : isIntSpace c = false := by
  have h' : 48 ≤ c.toNat ∧ c.toNat ≤ 57 := by simpa [isDigit] using h
  simp [isIntSpace]
  omega

/-- A text without white space is left alone. -/
theorem intStrip_of_not_space {s : Str} (h : ∀ c ∈ s, isIntSpace c = false) : intStrip s = s := by
  have hkeep : ∀ l : Str, (∀ c ∈ l, isIntSpace c = false) → l.dropWhile isIntSpace = l := by
    intro l hl
    cases l with
    | nil => rfl
    | cons c l => rw [List.dropWhile_cons_of_neg (by rw [hl c List.mem_cons_self]; decide)]
  unfold intStrip
  rw [hkeep s h, hkeep s.reverse (by simpa using h), List.reverse_reverse]

/-- `int` accepts as many digits as the numeral has. -/
def Fits (limit : Option ℕ) (n : ℕ) : Prop := ∀ k ∈ limit, (natStr n).length ≤ k

theorem filter_natStr (n : ℕ) : (natStr n).filter isDigit = natStr n :=
  List.filter_eq_self.mpr fun _ hc => isDigit_of_mem_natStr hc

theorem intDigits_natStr (n : ℕ) : intDigits false 0 (natStr n) = some n := by
  have hall := all_isDigit_natStr n
  have hvalue := digitsValue_natStr n
  obtain ⟨c, s, hs⟩ := List.exists_cons_of_ne_nil (natStr_ne_nil n)
  rw [hs] at hall hvalue ⊢
  rw [List.all_cons, Bool.and_eq_true] at hall
  rw [intDigits, if_pos hall.1, intDigits_of_digits hall.2, ← hvalue]
  rfl

theorem not_limited {limit : Option ℕ} {n : ℕ} (h : Fits limit n) :
    limit.any (· < ((natStr n).filter isDigit).length) = false := by
  rw [filter_natStr]
  cases limit with
  | none => rfl
  | some k => simpa using h k rfl

theorem int_natStr {limit : Option ℕ} {n : ℕ} (h : Fits limit n) :
    int limit (natStr n) = some (n : ℤ) := by
  have hstrip : intStrip (natStr n) = natStr n :=
    intStrip_of_not_space fun c hc => not_isIntSpace_of_isDigit (isDigit_of_mem_natStr hc)
  have hsign : intSign (natStr n) = (false, natStr n) := by
    unfold intSign
    split
    · next hs =>
      have hplus : isDigit '+' = true := isDigit_of_mem_natStr (n := n) (by simp [hs])
      cases hplus
    · next hs =>
      have hminus : isDigit '-' = true := isDigit_of_mem_natStr (n := n) (by simp [hs])
      cases hminus
    · rfl
  unfold int
  rw [hstrip, hsign]
  dsimp only
  rw [not_limited h, intDigits_natStr]
  rfl

theorem int_intStr {limit : Option ℕ} {i : ℤ} (h : Fits limit i.natAbs) :
    int limit (intStr i) = some i := by
  cases i with
  | ofNat n => exact int_natStr h
  | negSucc n =>
    have hstrip : intStrip ('-' :: natStr (n + 1)) = '-' :: natStr (n + 1) := by
      refine intStrip_of_not_space fun c hc => ?_
      obtain rfl | hc := List.mem_cons.mp hc
      · decide
      · exact not_isIntSpace_of_isDigit (isDigit_of_mem_natStr hc)
    have hlimit : limit.any (· < ((natStr (n + 1)).filter isDigit).length) = false := not_limited h
    have hsign : intSign ('-' :: natStr (n + 1)) = (true, natStr (n + 1)) := rfl
    unfold int intStr
    rw [hstrip, hsign]
    dsimp only
    rw [hlimit, intDigits_natStr]
    rfl

theorem intDigits_lt {seen : Bool} {acc n : ℕ} {s : Str} (h : intDigits seen acc s = some n) :
    n < (acc + 1) * 10 ^ (s.filter isDigit).length := by
  induction s generalizing seen acc with
  | nil =>
    simp only [intDigits] at h
    split_ifs at h
    cases h
    simp
  | cons c s ih =>
    simp only [intDigits] at h
    split_ifs at h with hc hunderscore
    · have hdigit : digitValue c < 10 := by
        simp only [isDigit, Bool.and_eq_true, decide_eq_true_eq, Char.reduceToNat] at hc
        simp only [digitValue, Char.reduceToNat]
        omega
      have hlater := ih h
      rw [List.filter_cons_of_pos hc, List.length_cons, Nat.pow_succ]
      calc n < (10 * acc + digitValue c + 1) * 10 ^ (s.filter isDigit).length := hlater
        _ ≤ (10 * (acc + 1)) * 10 ^ (s.filter isDigit).length := Nat.mul_le_mul_right _ (by omega)
        _ = (acc + 1) * (10 ^ (s.filter isDigit).length * 10) := by
          rw [Nat.mul_comm 10 (acc + 1), Nat.mul_assoc, Nat.mul_comm 10 (10 ^ _)]
    · rw [List.filter_cons_of_neg hc]
      exact ih h

/-- What `int` reads has no more digits than the text it was read from. -/
theorem int_fits {limit : Option ℕ} {s : Str} {i : ℤ} (h : int limit s = some i) :
    Fits limit i.natAbs := by
  unfold int at h
  rcases hsign : intSign (intStrip s) with ⟨neg, digits⟩
  rw [hsign] at h
  dsimp only at h
  cases hlimit : limit.any (· < (digits.filter isDigit).length) with
  | true =>
    rw [hlimit, if_pos rfl] at h
    cases h
  | false =>
  rw [hlimit, if_neg (by decide)] at h
  obtain ⟨i, hi, rfl⟩ := Option.map_eq_some_iff.mp h
  obtain ⟨n, hn, hcast⟩ := Option.bind_eq_some_iff.mp hi
  cases hcast
  have habs : (if neg then -(n : ℤ) else n).natAbs = n := by
    split_ifs
    · rw [Int.natAbs_neg, Int.natAbs_natCast]
    · rw [Int.natAbs_natCast]
  have hpos : 0 < (digits.filter isDigit).length := by
    cases digits with
    | nil => cases hn
    | cons c t =>
      simp only [intDigits, Bool.false_eq_true, and_false, if_false] at hn
      split_ifs at hn with hc
      rw [List.filter_cons_of_pos hc]
      exact Nat.succ_pos _
  have hlt : n < 10 ^ (digits.filter isDigit).length := by simpa using intDigits_lt hn
  have hlength : (natStr n).length ≤ (digits.filter isDigit).length :=
    (Nat.length_toDigits_le_iff (by decide) hpos).mpr hlt
  rw [habs]
  intro k hk
  cases hk
  have hk' : (digits.filter isDigit).length ≤ k := by simpa using hlimit
  exact le_trans hlength hk'

end Py
