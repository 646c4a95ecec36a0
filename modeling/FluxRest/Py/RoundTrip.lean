import FluxRest.Py.Loads
import FluxRest.Py.Decimal

/-! What `json.dumps` writes, `json.loads` reads back. -/
namespace Py.Json

/-! Strings. -/

/-- Four hexadecimal digits. -/
def hexText (hex : ℕ → Char) (n : ℕ) : Str :=
  [hex (n / 4096 % 16), hex (n / 256 % 16), hex (n / 16 % 16), hex (n % 16)]

/-- `hex` writes the digits that `hexValue` reads, all of them printable. -/
structure WritesHex (hex : ℕ → Char) : Prop where
  value : ∀ n < 16, hexValue (hex n) = some n
  printable : ∀ n < 16, 32 ≤ (hex n).toNat ∧ (hex n).toNat ≤ 126

/-- `escapeChar`, with its hexadecimal digits written out. -/
theorem escapeChar_eq (c : Char) : ∃ hex, WritesHex hex ∧ escapeChar c =
    if c = '"' then ['\\', '"']
    else if c = '\\' then ['\\', '\\']
    else if 32 ≤ c.toNat ∧ c.toNat ≤ 126 then [c]
    else if c.toNat = 10 then ['\\', 'n']
    else if c.toNat = 13 then ['\\', 'r']
    else if c.toNat = 9 then ['\\', 't']
    else if c.toNat = 8 then ['\\', 'b']
    else if c.toNat = 12 then ['\\', 'f']
    else if c.toNat < 0x10000 then '\\' :: 'u' :: hexText hex c.toNat
    else '\\' :: 'u' :: hexText hex (0xd800 + (c.toNat - 0x10000) / 1024) ++
      '\\' :: 'u' :: hexText hex (0xdc00 + (c.toNat - 0x10000) % 1024) :=
  ⟨fun n => Char.ofNat (if n < 10 then 48 + n else 87 + n), ⟨by decide, by decide⟩, rfl⟩

section Unicode

variable {hex : ℕ → Char} (hhex : WritesHex hex)
include hhex

theorem hex4_hexText {n : ℕ} (hn : n < 0x10000) (s : Str) : hex4 (hexText hex n ++ s) = some (n, s) := by
  have hvalue : 4096 * (n / 4096 % 16) + 256 * (n / 256 % 16) + 16 * (n / 16 % 16) + n % 16 = n := by
    omega
  have hmod : ∀ m, hexValue (hex (m % 16)) = some (m % 16) := fun m =>
    hhex.value _ (Nat.mod_lt m (by decide))
  simp only [hexText, List.cons_append, List.nil_append, hex4, hmod, Option.bind_eq_bind,
    Option.bind_some, hvalue]
  rfl

theorem unicode_hexText {c : Char} (hc : c.toNat < 0x10000) (s : Str) :
    unicode (hexText hex c.toNat ++ s) = some (c, s) := by
  -- a character is no surrogate
  have hvalid : ¬ (0xd800 ≤ c.toNat ∧ c.toNat ≤ 0xdbff) ∧ ¬ (0xdc00 ≤ c.toNat ∧ c.toNat ≤ 0xdfff) := by
    have hscalar := c.valid
    simp only [UInt32.isValidChar, Nat.isValidChar, Char.toNat_val] at hscalar
    omega
  rw [unicode, hex4_hexText hhex hc]
  simp only [Option.bind_eq_bind, Option.bind_some, hvalid, if_false, Char.ofNat_toNat]
  rfl

theorem unicode_pair {c : Char} {high low : ℕ} (hhigh : 0xd800 ≤ high ∧ high ≤ 0xdbff)
    (hlow : 0xdc00 ≤ low ∧ low ≤ 0xdfff)
    (hc : 0x10000 + 1024 * (high - 0xd800) + (low - 0xdc00) = c.toNat) (s : Str) :
    unicode (hexText hex high ++ '\\' :: 'u' :: (hexText hex low ++ s)) = some (c, s) := by
  have hpair : lowSurrogate ('\\' :: 'u' :: (hexText hex low ++ s)) = some (low, s) := by
    rw [lowSurrogate, hex4_hexText hhex (by omega)]
    simp only [Option.filter_some, hlow, decide_true, Bool.and_self, if_true]
  rw [unicode, hex4_hexText hhex (by omega)]
  simp only [Option.bind_eq_bind, Option.bind_some, hhigh, and_self, if_true, hpair, hc,
    Char.ofNat_toNat]
  rfl

end Unicode

theorem character_escapeChar (c : Char) (s : Str) :
    character (escapeChar c ++ s) = some (some c, s) := by
  obtain ⟨hex, hhex, heq⟩ := escapeChar_eq c
  have hchar : ∀ n, c.toNat = n → c = Char.ofNat n := by
    intro n hn
    rw [← hn, Char.ofNat_toNat]
  have hu : ∀ t r, unicode t = some (c, r) → character ('\\' :: 'u' :: t) = some (some c, r) := by
    intro t r ht
    simp only [character, Char.reduceEq, if_false, if_true, ht, Option.map_some]
  rw [heq]
  split_ifs with hquote hslash hprint hn hr ht hb hf hsmall
  · rw [hquote]
    rfl
  · rw [hslash]
    rfl
  · have hlow : ¬ c.toNat < 32 := by omega
    simp only [List.cons_append, List.nil_append, character, hquote, hslash, hlow, if_false]
  · rw [hchar 10 hn]
    rfl
  · rw [hchar 13 hr]
    rfl
  · rw [hchar 9 ht]
    rfl
  · rw [hchar 8 hb]
    rfl
  · rw [hchar 12 hf]
    rfl
  · exact hu _ _ (unicode_hexText hhex hsmall s)
  · have hscalar : c.toNat < 0x110000 := by
      have hvalid := c.valid
      simp only [UInt32.isValidChar, Nat.isValidChar, Char.toNat_val] at hvalid
      omega
    rw [List.cons_append, List.cons_append, List.append_assoc]
    exact hu _ _ (unicode_pair hhex (by omega) (by omega) (by omega) s)

theorem escapeChar_ne_nil (c : Char) : escapeChar c ≠ [] := by
  intro h
  have hread := character_escapeChar c []
  rw [h] at hread
  cases hread

theorem scanString_quoted (s : Str) (t : Str) {n : ℕ} (hn : s.length < n) :
    scanString n (s.flatMap escapeChar ++ '"' :: t) = some (s, t) := by
  induction s generalizing n with
  | nil =>
    obtain ⟨n, rfl⟩ := Nat.exists_eq_add_one_of_ne_zero (Nat.ne_of_gt hn)
    rfl
  | cons c s ih =>
    obtain ⟨n, rfl⟩ := Nat.exists_eq_add_one_of_ne_zero (Nat.ne_of_gt (Nat.zero_lt_of_lt hn))
    have hrest := ih (n := n) (by simpa using hn)
    rw [List.flatMap_cons, List.append_assoc, scanString, character_escapeChar]
    dsimp only
    rw [hrest]
    rfl

theorem length_le_escaped (s : Str) : s.length ≤ (s.flatMap escapeChar).length := by
  induction s with
  | nil => exact le_refl _
  | cons c s ih =>
    have hpos := List.length_pos_of_ne_nil (escapeChar_ne_nil c)
    rw [List.flatMap_cons, List.length_append, List.length_cons]
    omega

/-- What follows the opening quote of a string that `dumps` wrote. -/
theorem scanString_quote {s u : Str} (t : Str) (hu : quote s = '"' :: u) :
    scanString ((u ++ t).length + 1) (u ++ t) = some (s, t) := by
  have hu' : u = s.flatMap escapeChar ++ ['"'] := by
    simpa [quote] using hu.symm
  subst hu'
  rw [List.append_assoc]
  refine scanString_quoted s t ?_
  have hlength := length_le_escaped s
  simp only [List.length_append, List.length_cons, List.length_nil]
  omega

/-! Numbers. -/

/-- No numeral goes on with this text. -/
def EndsNumber (t : Str) : Prop := ∀ c ∈ t.head?, isDigit c = false ∧ c ≠ '.' ∧ c ≠ 'e' ∧ c ≠ 'E'

theorem endsNumber_cons {c : Char} (hc : isDigit c = false ∧ c ≠ '.' ∧ c ≠ 'e' ∧ c ≠ 'E') (t : Str) :
    EndsNumber (c :: t) := by
  intro x hx
  obtain rfl : c = x := by simpa using hx
  exact hc

theorem span_append {p : Char → Bool} {s t : Str}
    (h : s.dropWhile p = [] → ∀ c ∈ t.head?, p c = false) :
    (s ++ t).takeWhile p = s.takeWhile p ∧ (s ++ t).dropWhile p = s.dropWhile p ++ t := by
  induction s with
  | nil =>
    cases t with
    | nil => exact ⟨rfl, rfl⟩
    | cons c t =>
      have hc : p c = false := h rfl c rfl
      simp [hc]
  | cons c s ih =>
    cases hc : p c with
    | true =>
      have hrest := ih (by simpa [hc] using h)
      simp [hc, hrest.1, hrest.2]
    | false => simp [hc]

theorem digits_append {s t : Str} (ht : EndsNumber t) :
    (s ++ t).takeWhile isDigit = s.takeWhile isDigit ∧
      (s ++ t).dropWhile isDigit = s.dropWhile isDigit ++ t :=
  span_append fun _ c hc => (ht c hc).1

theorem natural_append {s t w r : Str} (ht : EndsNumber t) (h : matchWhole.natural s = some (w, r)) :
    matchWhole.natural (s ++ t) = some (w, r ++ t) := by
  unfold matchWhole.natural at h
  split at h
  · cases h
    rfl
  · next c s hzero =>
    split_ifs at h with hc
    cases h
    have hne : c ≠ '0' := fun hc0 => hzero (by rw [hc0])
    rw [List.cons_append, matchWhole.natural]
    · rw [if_pos hc, (digits_append ht).1, (digits_append ht).2]
    · exact hne
  · cases h

/-- A numeral's whole part begins with a digit, or with a sign before one. -/
def BeginsNumber (s : Str) : Prop :=
  ∃ c t, isDigit c = true ∧ (s = c :: t ∨ s = '-' :: c :: t)

theorem natural_begins {s w r : Str} (h : matchWhole.natural s = some (w, r)) :
    ∃ c t, isDigit c = true ∧ s = c :: t := by
  unfold matchWhole.natural at h
  split at h
  · exact ⟨_, _, rfl, rfl⟩
  · split_ifs at h with hc
    exact ⟨_, _, hc, rfl⟩
  · cases h

theorem matchWhole_begins {s w r : Str} (h : matchWhole s = some (w, r)) : BeginsNumber s := by
  unfold matchWhole at h
  split at h
  · obtain ⟨r', hr, -⟩ := Option.map_eq_some_iff.mp h
    obtain ⟨c, t, hc, rfl⟩ := natural_begins hr
    exact ⟨c, t, hc, Or.inr rfl⟩
  · obtain ⟨c, t, hc, rfl⟩ := natural_begins h
    exact ⟨c, t, hc, Or.inl rfl⟩

theorem matchWhole_digit {c : Char} (hc : isDigit c = true) (s : Str) :
    matchWhole (c :: s) = matchWhole.natural (c :: s) := by
  unfold matchWhole
  split
  · next heq =>
    obtain ⟨rfl, -⟩ := List.cons.inj heq
    cases hc
  · rfl

theorem matchWhole_append {s t w r : Str} (ht : EndsNumber t) (h : matchWhole s = some (w, r)) :
    matchWhole (s ++ t) = some (w, r ++ t) := by
  obtain ⟨c, u, hc, rfl | rfl⟩ := matchWhole_begins h
  · rw [matchWhole_digit hc] at h
    rw [List.cons_append, matchWhole_digit hc]
    exact natural_append ht h
  · obtain ⟨r', hr, heq⟩ := Option.map_eq_some_iff.mp h
    cases heq
    exact Option.map_eq_some_iff.mpr ⟨_, natural_append ht hr, rfl⟩

theorem matchFraction_append {s t f r : Str} (ht : EndsNumber t) (h : matchFraction s = (f, r)) :
    matchFraction (s ++ t) = (f, r ++ t) := by
  have hnone : ∀ {u : Str}, (∀ c v, u = '.' :: c :: v → isDigit c = false) →
      matchFraction u = ([], u) := by
    intro u hu
    unfold matchFraction
    split
    · next c v =>
      rw [if_neg (by rw [hu c v rfl]; decide)]
    · rfl
  by_cases hdigit : ∃ c v, s = '.' :: c :: v ∧ isDigit c = true
  · obtain ⟨c, v, rfl, hc⟩ := hdigit
    simp only [matchFraction, hc, if_true, Prod.mk.injEq] at h
    simp only [List.cons_append, matchFraction, hc, if_true, (digits_append ht).1,
      (digits_append ht).2, h.1, h.2]
  · have hs : ∀ c v, s = '.' :: c :: v → isDigit c = false := by
      intro c v hv
      by_contra hc
      exact hdigit ⟨c, v, hv, by simpa using hc⟩
    rw [hnone hs] at h
    cases h
    refine hnone fun c v hv => ?_
    match s, hs, hv with
    | [], _, hv =>
      have hdot := ht '.' (by rw [List.nil_append] at hv; rw [hv]; rfl)
      exact absurd rfl hdot.2.1
    | ['.'], _, hv =>
      have hhead : t.head? = some c := by
        simp only [List.cons_append, List.nil_append, List.cons.injEq, true_and] at hv
        rw [hv]
        rfl
      exact (ht c hhead).1
    | x :: y :: s, hs, hv =>
      simp only [List.cons_append, List.cons.injEq] at hv
      obtain ⟨rfl, rfl, -⟩ := hv
      exact hs y s rfl

theorem matchExponent_append {s t e : Str} (ht : EndsNumber t) (h : matchExponent s = (e, [])) :
    matchExponent (s ++ t) = (e, t) := by
  cases s with
  | nil =>
    cases h
    rw [List.nil_append]
    unfold matchExponent
    split
    · next c u =>
      have hc := ht c rfl
      rw [if_neg (by simp [hc.2.2.1, hc.2.2.2])]
    · rfl
  | cons c s =>
    unfold matchExponent at h
    dsimp only at h
    split_ifs at h with hc hempty
    · cases h
    · have hsign : matchSign (s ++ t) = ((matchSign s).1, (matchSign s).2 ++ t) := by
        cases s with
        | nil => exact absurd rfl hempty
        | cons x s =>
          unfold matchSign
          by_cases hminus : x = '-'
          · rw [hminus]
            rfl
          · by_cases hplus : x = '+'
            · rw [hplus]
              rfl
            · simp [hminus, hplus]
      obtain ⟨hdigits, hrest⟩ := Prod.mk.inj h
      have hspan := digits_append (s := (matchSign s).2) ht
      simp only [List.cons_append, matchExponent, hc, if_true, hsign, hspan.1, hspan.2, hempty,
        Bool.false_eq_true, if_false, hrest, List.nil_append, ← hdigits]
    · cases h

theorem matchNumber_append {s t w f e : Str} (ht : EndsNumber t)
    (h : matchNumber s = some (w, f, e, [])) : matchNumber (s ++ t) = some (w, f, e, t) := by
  simp only [matchNumber, Option.bind_eq_bind, Option.bind_eq_some_iff] at h
  obtain ⟨⟨w', r⟩, hw, h⟩ := h
  rcases hf : matchFraction r with ⟨f', r'⟩
  rcases he : matchExponent r' with ⟨e', r''⟩
  simp only [hf, he] at h
  cases h
  simp only [matchNumber, matchWhole_append ht hw, Option.bind_eq_bind, Option.bind_some,
    matchFraction_append ht hf, matchExponent_append ht he]
  rfl

theorem matchNumber_begins {s w f e r : Str} (h : matchNumber s = some (w, f, e, r)) :
    BeginsNumber s := by
  simp only [matchNumber, Option.bind_eq_bind, Option.bind_eq_some_iff] at h
  obtain ⟨⟨w', r⟩, hw, -⟩ := h
  exact matchWhole_begins hw

theorem matchNumber_intStr (i : ℤ) : matchNumber (intStr i) = some (intStr i, [], [], []) := by
  have hnatural : ∀ n, matchWhole.natural (natStr n) = some (natStr n, []) := by
    intro n
    have hall := all_isDigit_natStr n
    obtain ⟨c, s, hs⟩ := List.exists_cons_of_ne_nil (natStr_ne_nil n)
    by_cases hc : c = '0'
    · subst hc
      rw [hs, (natStr_zero hs).2]
      rfl
    · rw [hs] at hall ⊢
      rw [List.all_cons, Bool.and_eq_true] at hall
      have hspan : s.takeWhile isDigit = s ∧ s.dropWhile isDigit = [] := by
        rw [List.takeWhile_eq_self_iff, List.dropWhile_eq_nil_iff]
        exact ⟨List.all_eq_true.mp hall.2, List.all_eq_true.mp hall.2⟩
      rw [matchWhole.natural, if_pos hall.1, hspan.1, hspan.2]
      exact hc
  have hwhole : matchWhole (intStr i) = some (intStr i, []) := by
    cases i with
    | ofNat n =>
      obtain ⟨c, s, hs⟩ := List.exists_cons_of_ne_nil (natStr_ne_nil n)
      have hc : isDigit c = true := isDigit_of_mem_natStr (n := n) (by simp [hs])
      have hn := hnatural n
      change matchWhole (natStr n) = some (natStr n, [])
      rw [hs] at hn ⊢
      rw [matchWhole_digit hc, hn]
    | negSucc n => exact Option.map_eq_some_iff.mpr ⟨_, hnatural (n + 1), rfl⟩
  simp only [matchNumber, hwhole, Option.bind_eq_bind, Option.bind_some]
  rfl

/-! Values. -/

variable {num : Numbers}

/-- A text that a float is written as, and read from. -/
def IsFloat (num : Numbers) (r : Str) : Prop :=
  (r, float r) ∈ constants ∨ ∃ w f e, matchNumber r = some (w, f, e, []) ∧
    ofNumeral num w f e = some (float r)

mutual
/-- A value as Python holds it: the keys of a `dict` are distinct, a float is written as it is
read, and an integer has no more digits than `int` reads. -/
def Holds (num : Numbers) : Json → Prop
  | int i => Fits num.intLimit i.natAbs
  | float r => IsFloat num r
  | arr items => HoldsItems num items
  | obj fields => (fields.map Prod.fst).Nodup ∧ HoldsFields num fields
  | _ => True

def HoldsItems (num : Numbers) : List Json → Prop
  | [] => True
  | v :: items => Holds num v ∧ HoldsItems num items

def HoldsFields (num : Numbers) : List (Str × Json) → Prop
  | [] => True
  | (_, v) :: fields => Holds num v ∧ HoldsFields num fields
end

theorem mem_constants {e : Str × Json} : e ∈ constants ↔ e = ("null".toList, .null) ∨
    e = ("true".toList, .bool true) ∨ e = ("false".toList, .bool false) ∨
    e = ("NaN".toList, .float "NaN".toList) ∨ e = ("Infinity".toList, .float "Infinity".toList) ∨
    e = ("-Infinity".toList, .float "-Infinity".toList) := by
  simp only [constants, List.mem_cons, List.not_mem_nil, or_false]

theorem scanConstant_none {s : Str} (h : BeginsNumber s) : scanConstant s = none := by
  have hfirst : ∀ e ∈ constants, e.1.isPrefixOf s = false := by
    intro e he
    by_contra hname
    obtain ⟨u, hu⟩ := List.isPrefixOf_iff_prefix.mp (Bool.not_eq_false _ ▸ hname)
    obtain ⟨c, t, hc, rfl | rfl⟩ := h
    · obtain rfl | rfl | rfl | rfl | rfl | rfl := mem_constants.mp he <;> (cases hu; cases hc)
    · obtain rfl | rfl | rfl | rfl | rfl | rfl := mem_constants.mp he <;> cases hu
      cases hc
  rw [scanConstant, Option.map_eq_none_iff, List.find?_eq_none]
  intro e he
  rw [hfirst e he]
  decide

theorem scanOnce_number {n : ℕ} {s w f e t : Str} {v : Json} (h : matchNumber s = some (w, f, e, t))
    (hv : ofNumeral num w f e = some v) : scanOnce num (n + 1) s = some (v, t) := by
  have hbegins := matchNumber_begins h
  have hscan : scanNumber num s = some (v, t) := by
    simp only [scanNumber, h, Option.bind_eq_bind, Option.bind_some, hv]
    rfl
  unfold scanOnce
  split
  · obtain ⟨c, u, hc, heq | heq⟩ := hbegins
    · cases heq
      cases hc
    · cases heq
  · obtain ⟨c, u, hc, heq | heq⟩ := hbegins
    · cases heq
      cases hc
    · cases heq
  · obtain ⟨c, u, hc, heq | heq⟩ := hbegins
    · cases heq
      cases hc
    · cases heq
  · rw [scanConstant_none hbegins]
    exact hscan

theorem scanOnce_constant {name : Str} {v : Json} (h : (name, v) ∈ constants) (n : ℕ) (t : Str) :
    scanOnce num (n + 1) (name ++ t) = some (v, t) := by
  obtain h | h | h | h | h | h := mem_constants.mp h <;> (cases h; rfl)

theorem scanOnce_int {i : ℤ} (h : Fits num.intLimit i.natAbs) (n : ℕ) {t : Str} (ht : EndsNumber t) :
    scanOnce num (n + 1) (intStr i ++ t) = some (.int i, t) := by
  refine scanOnce_number (matchNumber_append ht (matchNumber_intStr i)) ?_
  simp only [ofNumeral, and_self, if_true, int_intStr h]
  rfl

theorem scanOnce_float {r : Str} (h : IsFloat num r) (n : ℕ) {t : Str} (ht : EndsNumber t) :
    scanOnce num (n + 1) (r ++ t) = some (.float r, t) := by
  obtain h | ⟨w, f, e, hr, hv⟩ := h
  · exact scanOnce_constant h n t
  · exact scanOnce_number (matchNumber_append ht hr) hv

/-- What `dumps` writes begins with no white space and is no end of a list. -/
theorem dumps_begins {v : Json} (h : Holds num v) :
    ∃ c s, dumps v = c :: s ∧ isBlank c = false ∧ c ≠ ']' := by
  have hnumber : ∀ s, BeginsNumber s → ∃ c t, s = c :: t ∧ isBlank c = false ∧ c ≠ ']' := by
    rintro s ⟨c, t, hc, rfl | rfl⟩
    · refine ⟨c, t, rfl, ?_, ?_⟩
      · cases hb : isBlank c with
        | false => rfl
        | true =>
          simp only [isBlank, Bool.or_eq_true, decide_eq_true_eq] at hb
          obtain ((rfl | rfl) | rfl) | rfl := hb <;> cases hc
      · rintro rfl
        cases hc
    · exact ⟨'-', c :: t, rfl, rfl, by decide⟩
  cases v with
  | null => exact ⟨'n', _, rfl, rfl, by decide⟩
  | bool b => cases b <;> exact ⟨_, _, rfl, rfl, by decide⟩
  | int i => exact hnumber _ (matchNumber_begins (matchNumber_intStr i))
  | float r =>
    obtain h | ⟨w, f, e, hr, -⟩ := h
    · have hconstant : ∀ x ∈ constants, ∃ c t, x.1 = c :: t ∧ isBlank c = false ∧ c ≠ ']' := by
        intro x hx
        obtain rfl | rfl | rfl | rfl | rfl | rfl := mem_constants.mp hx <;>
          exact ⟨_, _, rfl, rfl, by decide⟩
      exact hconstant _ h
    · exact hnumber r (matchNumber_begins hr)
  | str s => exact ⟨'"', _, rfl, rfl, by decide⟩
  | arr items => exact ⟨'[', _, rfl, rfl, by decide⟩
  | obj fields => exact ⟨'\x7b', _, rfl, rfl, by decide⟩

theorem dumpsItems_begins {v : Json} {items : List Json} (h : HoldsItems num (v :: items)) :
    ∃ c s, dumpsItems (v :: items) = c :: s ∧ isBlank c = false ∧ c ≠ ']' := by
  rw [HoldsItems] at h
  obtain ⟨c, s, hs, hc⟩ := dumps_begins h.1
  cases items with
  | nil => exact ⟨c, s ++ [']'], by rw [dumpsItems, hs]; rfl, hc⟩
  | cons w items => exact ⟨c, _, by rw [dumpsItems, hs]; rfl, hc⟩

theorem dumpsFields_begins (e : Str × Json) (fields : List (Str × Json)) :
    ∃ s, dumpsFields (e :: fields) = '"' :: s := by
  cases fields with
  | nil => exact ⟨_, by rw [dumpsFields]; rfl⟩
  | cons e' fields => exact ⟨_, by rw [dumpsFields]; rfl⟩

theorem skipBlanks_cons {c : Char} (hc : isBlank c = false) (s : Str) :
    skipBlanks (c :: s) = c :: s :=
  List.dropWhile_cons_of_neg (by rw [hc]; decide)

theorem skipBlanks_dumps {v : Json} (h : Holds num v) (t : Str) :
    skipBlanks (dumps v ++ t) = dumps v ++ t := by
  obtain ⟨c, s, hs, hc, -⟩ := dumps_begins h
  rw [hs, List.cons_append, skipBlanks_cons hc]

theorem skipBlanks_dumpsItems {v : Json} {items : List Json} (h : HoldsItems num (v :: items)) (t : Str) :
    skipBlanks (dumpsItems (v :: items) ++ t) = dumpsItems (v :: items) ++ t := by
  obtain ⟨c, s, hs, hc, -⟩ := dumpsItems_begins h
  rw [hs, List.cons_append, skipBlanks_cons hc]

theorem skipBlanks_dumpsFields (e : Str × Json) (fields : List (Str × Json)) (t : Str) :
    skipBlanks (dumpsFields (e :: fields) ++ t) = dumpsFields (e :: fields) ++ t := by
  obtain ⟨s, hs⟩ := dumpsFields_begins e fields
  rw [hs, List.cons_append, skipBlanks_cons rfl]

theorem skipBlanks_blank (s : Str) : skipBlanks (' ' :: s) = skipBlanks s := rfl

theorem quote_begins (k : Str) : ∃ u, quote k = '"' :: u := ⟨_, rfl⟩

/-- The keys of a `dict` keep their order. -/
theorem dictOf_of_nodup {fields : List (Str × Json)} (h : (fields.map Prod.fst).Nodup) :
    dictOf fields = fields := by
  have hfold : ∀ (later items : List (Str × Json)), ((items ++ later).map Prod.fst).Nodup →
      later.foldl (fun items e => setItem e.1 e.2 items) items = items ++ later := by
    intro later
    induction later with
    | nil =>
      intro items _
      rw [List.append_nil]
      rfl
    | cons e later ih =>
      intro items hitems
      have hnew : items.any (·.1 = e.1) = false := by
        rw [List.any_eq_false]
        intro x hx heq
        have hsplit := hitems
        rw [List.map_append, List.nodup_append] at hsplit
        exact hsplit.2.2 x.1 (List.mem_map_of_mem hx) e.1 (by simp) (of_decide_eq_true heq)
      have hset : setItem e.1 e.2 items = items ++ [e] := by
        unfold setItem
        rw [hnew]
        rfl
      have hrest := ih (items ++ [e]) (by simpa using hitems)
      rw [List.foldl_cons, hset, hrest, List.append_assoc]
      rfl
  exact hfold fields [] (by simpa using h)

/-- An item of a list ends where the next one or the end of the list begins. -/
theorem endsNumber_comma (t : Str) : EndsNumber (", ".toList ++ t) :=
  endsNumber_cons ⟨rfl, by decide, by decide, by decide⟩ _

variable (num) in
/-- A key and the colon after it. -/
theorem jsonObject_entry (n : ℕ) (k : Str) {v : Json} (h : Holds num v) (t : Str) :
    jsonObject num (n + 1) (quote k ++ (": ".toList ++ (dumps v ++ t))) =
      match scanOnce num n (dumps v ++ t) with
      | none => none
      | some (v, s) =>
        match skipBlanks s with
        | '\x7d' :: s => some ([(k, v)], s)
        | ',' :: s => (jsonObject num n (skipBlanks s)).map fun r => ((k, v) :: r.1, r.2)
        | _ => none := by
  obtain ⟨u, hu⟩ := quote_begins k
  have hcolon : skipBlanks (": ".toList ++ (dumps v ++ t)) = ':' :: ' ' :: (dumps v ++ t) := rfl
  rw [hu, List.cons_append, jsonObject, scanString_quote _ hu]
  dsimp only
  rw [hcolon]
  conv_rhs => rw [← skipBlanks_dumps h, ← skipBlanks_blank]
  rfl

-- the induction is on the value; the bound on open calls goes down with the text
mutual
/-- `scan_once` reads a value back, and stops where it ends. -/
theorem scanOnce_dumps : ∀ {v : Json}, Holds num v → ∀ {n : ℕ}, (dumps v).length ≤ n → ∀ {t : Str},
    EndsNumber t → scanOnce num n (dumps v ++ t) = some (v, t)
  | v, h, 0, hn, _, _ => by
    obtain ⟨c, s, hs, -⟩ := dumps_begins h
    rw [hs] at hn
    cases hn
  | .null, _, n + 1, _, t, _ => scanOnce_constant (mem_constants.mpr (Or.inl rfl)) n t
  | .bool true, _, n + 1, _, t, _ => scanOnce_constant (mem_constants.mpr (Or.inr (Or.inl rfl))) n t
  | .bool false, _, n + 1, _, t, _ =>
    scanOnce_constant (mem_constants.mpr (Or.inr (Or.inr (Or.inl rfl)))) n t
  | .int i, h, n + 1, _, t, ht => scanOnce_int (by simpa only [Holds] using h) n ht
  | .float r, h, n + 1, _, t, ht => by
    rw [Holds] at h
    rw [dumps]
    exact scanOnce_float h n ht
  | .str s, _, n + 1, _, t, _ => by
    obtain ⟨u, hu⟩ := quote_begins s
    rw [dumps, hu, List.cons_append, scanOnce, scanString_quote t hu]
    rfl
  | .arr [], _, n + 1, _, t, _ => rfl
  | .arr (v :: items), h, n + 1, hn, t, _ => by
    rw [Holds] at h
    have hitems : (dumpsItems (v :: items)).length ≤ n := by
      rw [dumps, List.length_cons] at hn
      omega
    have hread := jsonArray_dumps h hitems t
    obtain ⟨c, s, hs, hblank, hend⟩ := dumpsItems_begins h
    rw [hs] at hread
    rw [dumps, hs, List.cons_append, scanOnce, List.cons_append, skipBlanks_cons hblank]
    rw [List.cons_append] at hread
    split
    · next heq => exact absurd (List.cons.inj heq).1 hend
    · rw [hread]
      rfl
  | .obj [], _, n + 1, _, t, _ => rfl
  | .obj (e :: fields), h, n + 1, hn, t, _ => by
    rw [Holds] at h
    have hfields : (dumpsFields (e :: fields)).length ≤ n := by
      rw [dumps, List.length_cons] at hn
      omega
    have hread := jsonObject_dumps h.2 hfields t
    obtain ⟨s, hs⟩ := dumpsFields_begins e fields
    rw [hs] at hread
    rw [dumps, hs, List.cons_append, scanOnce, List.cons_append, skipBlanks_cons rfl]
    rw [List.cons_append] at hread
    split
    · next heq => cases (List.cons.inj heq).1
    · rw [hread, Option.map_some, dictOf_of_nodup h.1]

theorem jsonArray_dumps : ∀ {v : Json} {items : List Json}, HoldsItems num (v :: items) → ∀ {n : ℕ},
    (dumpsItems (v :: items)).length ≤ n → ∀ t : Str,
    jsonArray num n (dumpsItems (v :: items) ++ t) = some (v :: items, t)
  | v, [], h, n, hn, t => by
    rw [HoldsItems] at h
    rw [dumpsItems, List.length_append] at hn
    obtain ⟨m, rfl⟩ : ∃ m, n = m + 1 := ⟨n - 1, by simp at hn; omega⟩
    have hread := scanOnce_dumps h.1 (n := m) (by simpa using hn) (t := ']' :: t)
      (endsNumber_cons ⟨rfl, by decide, by decide, by decide⟩ _)
    rw [dumpsItems, List.append_assoc, jsonArray]
    rw [List.cons_append, List.nil_append, hread]
    rfl
  | v, w :: items, h, n, hn, t => by
    rw [HoldsItems] at h
    rw [dumpsItems, List.length_append, List.length_append] at hn
    obtain ⟨m, rfl⟩ : ∃ m, n = m + 1 := ⟨n - 1, by simp at hn; omega⟩
    have hread := scanOnce_dumps h.1 (n := m) (by simp at hn; omega)
      (endsNumber_comma (dumpsItems (w :: items) ++ t))
    have hrest := jsonArray_dumps h.2 (n := m) (by simp at hn; omega) t
    have hcomma : skipBlanks (", ".toList ++ (dumpsItems (w :: items) ++ t)) =
        ',' :: ' ' :: (dumpsItems (w :: items) ++ t) := rfl
    rw [dumpsItems, List.append_assoc, List.append_assoc, jsonArray, hread]
    dsimp only
    rw [hcomma]
    change Option.map _ (jsonArray num m (skipBlanks (' ' :: (dumpsItems (w :: items) ++ t)))) = _
    rw [skipBlanks_blank, skipBlanks_dumpsItems h.2, hrest]
    rfl

theorem jsonObject_dumps : ∀ {e : Str × Json} {fields : List (Str × Json)},
    HoldsFields num (e :: fields) → ∀ {n : ℕ}, (dumpsFields (e :: fields)).length ≤ n → ∀ t : Str,
    jsonObject num n (dumpsFields (e :: fields) ++ t) = some (e :: fields, t)
  | (k, v), [], h, n, hn, t => by
    rw [HoldsFields] at h
    rw [dumpsFields] at hn
    obtain ⟨m, rfl⟩ : ∃ m, n = m + 1 := ⟨n - 1, by simp at hn; omega⟩
    have hread := scanOnce_dumps h.1 (n := m) (by simp at hn; omega) (t := '\x7d' :: t)
      (endsNumber_cons ⟨rfl, by decide, by decide, by decide⟩ _)
    have hentry := jsonObject_entry num m k h.1 ('\x7d' :: t)
    rw [dumpsFields]
    simp only [List.append_assoc, List.cons_append, List.nil_append]
    rw [hentry, hread]
    rfl
  | (k, v), e :: fields, h, n, hn, t => by
    rw [HoldsFields] at h
    rw [dumpsFields] at hn
    obtain ⟨m, rfl⟩ : ∃ m, n = m + 1 := ⟨n - 1, by simp at hn; omega⟩
    have hread := scanOnce_dumps h.1 (n := m) (by simp at hn; omega)
      (endsNumber_comma (dumpsFields (e :: fields) ++ t))
    have hrest := jsonObject_dumps h.2 (n := m) (by simp at hn; omega) t
    have hentry := jsonObject_entry num m k h.1 (", ".toList ++ (dumpsFields (e :: fields) ++ t))
    have hcomma : skipBlanks (", ".toList ++ (dumpsFields (e :: fields) ++ t)) =
        ',' :: ' ' :: (dumpsFields (e :: fields) ++ t) := rfl
    rw [dumpsFields]
    simp only [List.append_assoc]
    rw [hentry, hread]
    dsimp only
    rw [hcomma]
    change Option.map _ (jsonObject num m (skipBlanks (' ' :: (dumpsFields (e :: fields) ++ t)))) = _
    rw [skipBlanks_blank, skipBlanks_dumpsFields, hrest]
    rfl
end

/-- `json.loads` reads back what `json.dumps` wrote, white space around it or not. -/
theorem loadsText_dumps {v : Json} (h : Holds num v) {t : Str} (ht : skipBlanks t = []) :
    loadsText num (dumps v ++ t) = some v := by
  have hends : EndsNumber t := by
    intro c hc
    have hblank : isBlank c = true := by
      cases t with
      | nil => cases hc
      | cons x t =>
        cases hc
        exact List.dropWhile_eq_nil_iff.mp ht _ List.mem_cons_self
    simp only [isBlank, Bool.or_eq_true, decide_eq_true_eq] at hblank
    obtain ((rfl | rfl) | rfl) | rfl := hblank <;>
      exact ⟨rfl, by decide, by decide, by decide⟩
  have hread := scanOnce_dumps h (n := (dumps v ++ t).length + 1)
    (by rw [List.length_append]; omega) hends
  rw [loadsText, skipBlanks_dumps h, hread]
  simp only [ht, if_true]

end Py.Json
