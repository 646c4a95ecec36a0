import FluxRest.Py.Url

/-! Percent-encoding: every spelling of a text's UTF-8 bytes is read back as that text. -/
namespace Py

theorem toNat_byte {n : ℕ} (h : n < 256) : (UInt8.ofNat n).toNat = n :=
  Nat.mod_eq_of_lt h

theorem byte_lt {n : ℕ} (h : n < 256) (k : UInt8) : UInt8.ofNat n < k ↔ n < k.toNat := by
  rw [UInt8.lt_iff_toNat_lt, toNat_byte h]

theorem byte_le {n : ℕ} (h : n < 256) (k : UInt8) : UInt8.ofNat n ≤ k ↔ n ≤ k.toNat := by
  rw [UInt8.le_iff_toNat_le, toNat_byte h]

theorem le_byte {n : ℕ} (h : n < 256) (k : UInt8) : k ≤ UInt8.ofNat n ↔ k.toNat ≤ n := by
  rw [UInt8.le_iff_toNat_le, toNat_byte h]

/-! What `decode` makes of a well-formed sequence, by its length. -/

theorem isContinuation_byte {n : ℕ} (h : n < 64) : isContinuation (UInt8.ofNat (n + 0x80)) = true := by
  have hb : n + 0x80 < 256 := by omega
  rw [isContinuation, Bool.and_eq_true, decide_eq_true_eq, decide_eq_true_eq, le_byte hb, byte_le hb]
  exact ⟨by simp, by simp; omega⟩

theorem decode_one {n : ℕ} (h : n < 0x80) (bs : Bytes) :
    decode (UInt8.ofNat n :: bs) = Char.ofNat n :: decode bs := by
  have hb : n < 256 := by omega
  have hlt : UInt8.ofNat n < 0x80 := (byte_lt hb _).mpr h
  rw [decode.eq_def]
  dsimp only
  rw [if_pos hlt, toNat_byte hb]

theorem decode_two {m n : ℕ} (hm : 2 ≤ m ∧ m < 32) (hn : n < 64) (bs : Bytes) :
    decode (UInt8.ofNat (m + 0xc0) :: UInt8.ofNat (n + 0x80) :: bs) =
      Char.ofNat (m * 64 + n) :: decode bs := by
  have hb : m + 0xc0 < 256 := by omega
  have hone : ¬ UInt8.ofNat (m + 0xc0) < 0x80 := by
    rw [byte_lt hb]
    simp
  have htwo : (0xc2 ≤ UInt8.ofNat (m + 0xc0) && UInt8.ofNat (m + 0xc0) ≤ 0xdf) = true := by
    rw [Bool.and_eq_true, decide_eq_true_eq, decide_eq_true_eq, le_byte hb, byte_le hb]
    simp
    omega
  rw [decode.eq_def]
  dsimp only
  rw [if_neg hone, if_pos htwo]
  rw [if_pos (isContinuation_byte hn), toNat_byte hb, toNat_byte (by omega), Nat.add_sub_cancel,
    Nat.add_sub_cancel]

theorem decode_three {m k n : ℕ} (hm : m < 16) (hk : k < 64) (hn : n < 64)
    (hfirst : m = 0 → 32 ≤ k) (hlast : m = 13 → k < 32) (bs : Bytes) :
    decode (UInt8.ofNat (m + 0xe0) :: UInt8.ofNat (k + 0x80) :: UInt8.ofNat (n + 0x80) :: bs) =
      Char.ofNat (m * 4096 + k * 64 + n) :: decode bs := by
  have hb : m + 0xe0 < 256 := by omega
  have hk' : k + 0x80 < 256 := by omega
  have hone : ¬ UInt8.ofNat (m + 0xe0) < 0x80 := by
    rw [byte_lt hb]
    simp
  have htwo : ¬ (0xc2 ≤ UInt8.ofNat (m + 0xe0) && UInt8.ofNat (m + 0xe0) ≤ 0xdf) = true := by
    rw [Bool.and_eq_true, decide_eq_true_eq, decide_eq_true_eq, le_byte hb, byte_le hb]
    simp
  have hthree : (0xe0 ≤ UInt8.ofNat (m + 0xe0) && UInt8.ofNat (m + 0xe0) ≤ 0xef) = true := by
    rw [Bool.and_eq_true, decide_eq_true_eq, decide_eq_true_eq, le_byte hb, byte_le hb]
    simp
    omega
  have hsecond : isSecondOfThree (UInt8.ofNat (m + 0xe0)) (UInt8.ofNat (k + 0x80)) = true := by
    rw [isSecondOfThree, isContinuation_byte hk, Bool.true_and, Bool.and_eq_true, Bool.or_eq_true,
      Bool.or_eq_true, bne_iff_ne, bne_iff_ne, decide_eq_true_eq, decide_eq_true_eq, le_byte hk',
      byte_le hk', ← UInt8.toNat_inj.ne, ← UInt8.toNat_inj.ne, toNat_byte hb]
    simp
    omega
  rw [decode.eq_def]
  dsimp only
  rw [if_neg hone, if_neg htwo, if_pos hthree, if_pos hsecond, if_pos (isContinuation_byte hn), toNat_byte hb, toNat_byte hk',
    toNat_byte (by omega)]
  simp only [Nat.add_sub_cancel]

theorem decode_four {m k l n : ℕ} (hm : m < 5) (hk : k < 64) (hl : l < 64) (hn : n < 64)
    (hfirst : m = 0 → 16 ≤ k) (hlast : m = 4 → k < 16) (bs : Bytes) :
    decode (UInt8.ofNat (m + 0xf0) :: UInt8.ofNat (k + 0x80) :: UInt8.ofNat (l + 0x80) ::
      UInt8.ofNat (n + 0x80) :: bs) =
      Char.ofNat (m * 262144 + k * 4096 + l * 64 + n) :: decode bs := by
  have hb : m + 0xf0 < 256 := by omega
  have hk' : k + 0x80 < 256 := by omega
  have hone : ¬ UInt8.ofNat (m + 0xf0) < 0x80 := by
    rw [byte_lt hb]
    simp
  have htwo : ¬ (0xc2 ≤ UInt8.ofNat (m + 0xf0) && UInt8.ofNat (m + 0xf0) ≤ 0xdf) = true := by
    rw [Bool.and_eq_true, decide_eq_true_eq, decide_eq_true_eq, le_byte hb, byte_le hb]
    simp
  have hthree : ¬ (0xe0 ≤ UInt8.ofNat (m + 0xf0) && UInt8.ofNat (m + 0xf0) ≤ 0xef) = true := by
    rw [Bool.and_eq_true, decide_eq_true_eq, decide_eq_true_eq, le_byte hb, byte_le hb]
    simp
  have hfour : (0xf0 ≤ UInt8.ofNat (m + 0xf0) && UInt8.ofNat (m + 0xf0) ≤ 0xf4) = true := by
    rw [Bool.and_eq_true, decide_eq_true_eq, decide_eq_true_eq, le_byte hb, byte_le hb]
    simp
    omega
  have hsecond : isSecondOfFour (UInt8.ofNat (m + 0xf0)) (UInt8.ofNat (k + 0x80)) = true := by
    rw [isSecondOfFour, isContinuation_byte hk, Bool.true_and, Bool.and_eq_true, Bool.or_eq_true,
      Bool.or_eq_true, bne_iff_ne, bne_iff_ne, decide_eq_true_eq, decide_eq_true_eq, le_byte hk',
      byte_le hk', ← UInt8.toNat_inj.ne, ← UInt8.toNat_inj.ne, toNat_byte hb]
    simp
    omega
  rw [decode.eq_def]
  dsimp only
  rw [if_neg hone, if_neg htwo, if_neg hthree, if_pos hfour, if_pos hsecond,
    if_pos (isContinuation_byte hl), if_pos (isContinuation_byte hn), toNat_byte hb, toNat_byte hk',
    toNat_byte (by omega), toNat_byte (by omega)]
  simp only [Nat.add_sub_cancel]

theorem decode_encodeChar (c : Char) (bs : Bytes) :
    decode (String.utf8EncodeChar c ++ bs) = c :: decode bs := by
  have hc : Char.ofNat c.val.toNat = c := Char.ofNat_toNat c
  have hvalid : c.val.toNat < 0xd800 ∨ 0xdfff < c.val.toNat ∧ c.val.toNat < 0x110000 := c.valid
  unfold String.utf8EncodeChar
  dsimp only
  generalize c.val.toNat = v at hc hvalid
  split_ifs with hone htwo hthree
  · rw [List.singleton_append, decode_one (by omega), hc]
  · rw [List.cons_append, List.singleton_append, decode_two (by omega) (by omega)]
    have hv : v / 64 % 0x20 * 64 + v % 0x40 = v := by omega
    rw [hv, hc]
  · rw [List.cons_append, List.cons_append, List.singleton_append,
      decode_three (by omega) (by omega) (by omega) (by omega) (by omega)]
    have hv : v / 4096 % 0x10 * 4096 + v / 64 % 0x40 * 64 + v % 0x40 = v := by omega
    rw [hv, hc]
  · rw [List.cons_append, List.cons_append, List.cons_append, List.singleton_append,
      decode_four (by omega) (by omega) (by omega) (by omega) (by omega) (by omega)]
    have hv : v / 262144 % 0x08 * 262144 + v / 4096 % 0x40 * 4096 + v / 64 % 0x40 * 64 +
      v % 0x40 = v := by omega
    rw [hv, hc]

theorem decode_encode (s : Str) : decode (encode s) = s := by
  induction s with
  | nil => rfl
  | cons c s ih =>
    rw [encode, List.flatMap_cons, decode_encodeChar]
    exact congrArg (c :: ·) ih

/-! The spellings of a sequence of bytes. -/

/-- The characters that stand for themselves in a URL. -/
def isUnreserved (c : Char) : Bool :=
  isAsciiAlpha c || isDigit c || c = '-' || c = '.' || c = '_' || c = '~'

/-- Each byte is escaped, in hex digits of either case, or is unreserved and stands for itself. -/
inductive Spells : Bytes → Str → Prop
  | nil : Spells [] []
  | literal {c bs e} (hc : isUnreserved c = true) (h : Spells bs e) :
      Spells (UInt8.ofNat c.toNat :: bs) (c :: e)
  | escaped {a b x y bs e} (ha : hexValue a = some x) (hb : hexValue b = some y)
      (h : Spells bs e) : Spells (UInt8.ofNat (16 * x + y) :: bs) ('%' :: a :: b :: e)

theorem isUnreserved_of_hex {c : Char} {x : ℕ} (h : hexValue c = some x) : isUnreserved c = true := by
  have hrange : 48 ≤ c.toNat ∧ c.toNat ≤ 57 ∨ 65 ≤ c.toNat ∧ c.toNat ≤ 70 ∨
      97 ≤ c.toNat ∧ c.toNat ≤ 102 := by
    unfold hexValue at h
    dsimp only at h
    split_ifs at h with h1 h2 h3
    · exact Or.inl h1
    · exact Or.inr (Or.inl h2)
    · exact Or.inr (Or.inr h3)
  simp [isUnreserved, isAsciiAlpha, isDigit]
  omega

theorem toNat_of_unreserved {c : Char} (h : isUnreserved c = true) :
    45 ≤ c.toNat ∧ c.toNat < 128 ∧ c.toNat ≠ 47 ∧ c.toNat ≠ 63 := by
  simp [isUnreserved, isAsciiAlpha, isDigit] at h
  rcases h with ((((h | h) | rfl) | rfl) | rfl) | rfl
  · omega
  · omega
  · decide
  · decide
  · decide
  · decide

theorem Spells.chars {bs : Bytes} {e : Str} (h : Spells bs e) :
    ∀ c ∈ e, isUnreserved c = true ∨ c = '%' := by
  induction h with
  | nil => exact nofun
  | literal hc _ ih =>
    intro c' hc'
    obtain rfl | hc' := List.mem_cons.mp hc'
    · exact Or.inl hc
    · exact ih c' hc'
  | escaped ha hb _ ih =>
    intro c' hc'
    obtain rfl | hc' := List.mem_cons.mp hc'
    · exact Or.inr rfl
    · obtain rfl | hc' := List.mem_cons.mp hc'
      · exact Or.inl (isUnreserved_of_hex ha)
      · obtain rfl | hc' := List.mem_cons.mp hc'
        · exact Or.inl (isUnreserved_of_hex hb)
        · exact ih c' hc'

theorem Spells.toNat {bs : Bytes} {e : Str} (h : Spells bs e) {c : Char} (hc : c ∈ e) :
    37 ≤ c.toNat ∧ c.toNat < 128 ∧ c.toNat ≠ 47 ∧ c.toNat ≠ 63 := by
  obtain hu | rfl := h.chars c hc
  · have hc := toNat_of_unreserved hu
    omega
  · decide

theorem unquoteToBytes_cons {c : Char} (hc : c ≠ '%') (s : Str) :
    unquoteToBytes (c :: s) = UInt8.ofNat c.toNat :: unquoteToBytes s := by
  rw [unquoteToBytes.eq_def]
  split
  · next h => cases h
  · next h =>
    obtain ⟨rfl, -⟩ := List.cons.inj h
    exact absurd rfl hc
  · next h =>
    obtain ⟨rfl, rfl⟩ := List.cons.inj h
    rfl

theorem Spells.unquoteToBytes {bs : Bytes} {e : Str} (h : Spells bs e) :
    unquoteToBytes e = bs := by
  induction h with
  | nil => rfl
  | @literal c _ _ hc _ ih =>
    have hne : c ≠ '%' := by
      rintro rfl
      cases hc
    rw [unquoteToBytes_cons hne, ih]
  | escaped ha hb _ ih =>
    rw [Py.unquoteToBytes, ha, hb]
    dsimp only
    rw [ih]

theorem unquoteRuns_ascii {s : Str} (hs : ∀ c ∈ s, c.toNat < 128) (run : Str) :
    unquoteRuns run s = decode (unquoteToBytes (run.reverse ++ s)) := by
  induction s generalizing run with
  | nil => rw [unquoteRuns, List.append_nil]
  | cons c s ih =>
    have hc : c.toNat < 128 := hs c List.mem_cons_self
    rw [unquoteRuns, if_pos hc, ih fun c' hc' => hs c' (List.mem_cons_of_mem _ hc')]
    rw [List.reverse_cons, List.append_assoc, List.singleton_append]

/-- Without an escape the bytes are the characters. -/
theorem Spells.decode {bs : Bytes} {e : Str} (h : Spells bs e) (hp : '%' ∉ e) : decode bs = e := by
  induction h with
  | nil => rfl
  | literal hc _ ih =>
    rw [decode_one (toNat_of_unreserved hc).2.1, Char.ofNat_toNat,
      ih fun hp' => hp (List.mem_cons_of_mem _ hp')]
  | escaped => exact absurd List.mem_cons_self hp

/-- `unquote` reads back any spelling of a text. -/
theorem Spells.unquote {s e : Str} (h : Spells (encode s) e) : unquote e = s := by
  unfold Py.unquote
  split_ifs with hp
  · rw [unquoteRuns_ascii fun c hc => (h.toNat hc).2.1, List.reverse_nil, List.nil_append,
      h.unquoteToBytes, decode_encode]
  · rw [← h.decode hp, decode_encode]

/-- Unreserved text spells itself. -/
theorem spells_self {s : Str} (h : ∀ c ∈ s, isUnreserved c = true) : Spells (encode s) s := by
  induction s with
  | nil => exact .nil
  | cons c s ih =>
    have hc : isUnreserved c = true := h c List.mem_cons_self
    have hone : String.utf8EncodeChar c = [UInt8.ofNat c.toNat] := by
      unfold String.utf8EncodeChar
      exact if_pos (Nat.le_of_lt_succ (toNat_of_unreserved hc).2.1)
    rw [encode, List.flatMap_cons, hone]
    exact .literal hc (ih fun c' hc' => h c' (List.mem_cons_of_mem _ hc'))

/-! What `unquote` keeps of a text. -/

/-- An ASCII byte is no part of a longer sequence. -/
theorem mem_decode {b : UInt8} (hb : b < 0x80) {bs : Bytes} (h : b ∈ bs) :
    Char.ofNat b.toNat ∈ decode bs := by
  have hcont : isContinuation b = false := by
    have hlt : b.toNat < 128 := UInt8.lt_iff_toNat_lt.mp hb
    simp [isContinuation, UInt8.le_iff_toNat_le]
    omega
  have hthree : ∀ a, isSecondOfThree a b = false := by
    intro a
    simp [isSecondOfThree, hcont]
  have hfour : ∀ a, isSecondOfFour a b = false := by
    intro a
    simp [isSecondOfFour, hcont]
  fun_induction decode bs <;> grind

section Kept

variable {c : Char} (hp : c ≠ '%') (hx : hexValue c = none)
include hp hx

/-- No escape takes up a character that is no hex digit. -/
theorem mem_unquoteToBytes {s : Str} (h : c ∈ s) : UInt8.ofNat c.toNat ∈ unquoteToBytes s := by
  fun_induction unquoteToBytes s <;> grind

variable (hc : c.toNat < 128)
include hc

theorem mem_unquoteRuns {run s : Str} (h : c ∈ run ∨ c ∈ s) : c ∈ unquoteRuns run s := by
  have hdecode : ∀ run : Str, c ∈ run → c ∈ decode (unquoteToBytes run.reverse) := by
    intro run hrun
    have hbyte := mem_unquoteToBytes hp hx (List.mem_reverse.mpr hrun)
    have hmem := mem_decode ((byte_lt (by omega) 0x80).mpr hc) hbyte
    rwa [toNat_byte (by omega), Char.ofNat_toNat] at hmem
  fun_induction unquoteRuns run s with
  | case1 run => exact hdecode run (by simpa using h)
  | case2 run x s hascii ih => exact ih (by grind)
  | case3 run x s hascii ih => grind

theorem mem_unquote {s : Str} (h : c ∈ s) : c ∈ unquote s := by
  unfold unquote
  split_ifs
  · exact mem_unquoteRuns hp hx hc (Or.inr h)
  · exact h

end Kept

end Py
