import Mathlib.Data.List.Infix
import Mathlib.Data.List.TakeWhile

/-! Python text as a list of code points: the `str` methods, `int` and the two
codecs a small HTTP program uses, as the standard library documents them. -/
namespace Py

abbrev Str := List Char
abbrev Bytes := List UInt8

/-- `s.split(c, 1)[0]`. -/
def before (c : Char) (s : Str) : Str := s.takeWhile (· ≠ c)

/-- The rest of `s.split(c, 1)`, empty when `c` does not occur. -/
def after (c : Char) (s : Str) : Str := (s.dropWhile (· ≠ c)).drop 1

/-- `s.split(c)`. -/
def split (c : Char) : Str → List Str
  | [] => [[]]
  | x :: s => if x = c then [] :: split c s else
      match split c s with
      | [] => [[x]]
      | w :: ws => (x :: w) :: ws

theorem before_isPrefix (c : Char) (s : Str) : before c s <+: s := List.takeWhile_prefix _

/-- Cutting at `c` keeps a prefix that does not contain `c`. -/
theorem before_append {c : Char} {p : Str} (hp : c ∉ p) (s : Str) :
    before c (p ++ s) = p ++ before c s := by
  simp only [before]
  apply List.takeWhile_append_of_pos
  rintro x hx
  simp only [ne_eq, decide_eq_true_eq]
  rintro rfl
  exact hp hx

/-- The first `c` is not in a prefix without it. -/
theorem after_append {c : Char} {p : Str} (hp : c ∉ p) (s : Str) :
    after c (p ++ s) = after c s := by
  unfold after
  rw [List.dropWhile_append_of_pos]
  intro x hx
  rw [decide_eq_true_eq]
  rintro rfl
  exact hp hx

/-- `c.isspace()`. -/
def isSpace (c : Char) : Bool :=
  let n := c.toNat
  (9 ≤ n && n ≤ 13) || (28 ≤ n && n ≤ 32) || n == 0x85 || n == 0xa0 || n == 0x1680 ||
    (0x2000 ≤ n && n ≤ 0x200a) || n == 0x2028 || n == 0x2029 || n == 0x202f || n == 0x205f ||
    n == 0x3000

/-- `s.strip()`. -/
def strip (s : Str) : Str :=
  ((s.dropWhile isSpace).reverse.dropWhile isSpace).reverse

/-- `strip` takes the white space off the end of a text without any other. -/
theorem strip_append {s t : Str} (hs : ∀ c ∈ s, isSpace c = false) (ht : ∀ c ∈ t, isSpace c = true) :
    strip (s ++ t) = s := by
  have hkeep : ∀ l : Str, (∀ c ∈ l, isSpace c = false) → l.dropWhile isSpace = l := by
    intro l hl
    cases l with
    | nil => rfl
    | cons c l => rw [List.dropWhile_cons_of_neg (by rw [hl c List.mem_cons_self]; decide)]
  have hfirst : (s ++ t).dropWhile isSpace = if s = [] then [] else s ++ t := by
    cases s with
    | nil =>
      rw [if_pos rfl, List.nil_append, List.dropWhile_eq_nil_iff]
      exact ht
    | cons c s =>
      have hc : ¬ isSpace c = true := by
        rw [hs c List.mem_cons_self]
        decide
      rw [if_neg (List.cons_ne_nil c s), List.cons_append, List.dropWhile_cons_of_neg hc]
  unfold strip
  rw [hfirst]
  split_ifs with hnil
  · rw [hnil]
    rfl
  · rw [List.reverse_append, List.dropWhile_append_of_pos (by simpa using ht), hkeep]
    · exact List.reverse_reverse s
    · simpa using hs

theorem mem_of_mem_strip {s : Str} {c : Char} (h : c ∈ strip s) : c ∈ s := by
  have hright := List.mem_reverse.mp ((List.dropWhile_sublist isSpace).subset (List.mem_reverse.mp h))
  exact (List.dropWhile_sublist isSpace).subset hright

/-- What `strip` leaves does not end with white space. -/
theorem isSpace_of_strip {s t : Str} {c : Char} (h : strip s = t ++ [c]) : isSpace c = false := by
  have hhead := List.head?_dropWhile_not isSpace (s.dropWhile isSpace).reverse
  have hcons : (s.dropWhile isSpace).reverse.dropWhile isSpace = c :: t.reverse := by
    rw [← List.reverse_reverse ((s.dropWhile isSpace).reverse.dropWhile isSpace)]
    exact (congrArg List.reverse h).trans (by simp)
  simpa [hcons] using hhead

def isDigit (c : Char) : Bool := '0'.toNat ≤ c.toNat && c.toNat ≤ '9'.toNat

def digitValue (c : Char) : ℕ := c.toNat - '0'.toNat

/-- The number a run of ASCII digits denotes. -/
def digitsValue (acc : ℕ) (s : Str) : ℕ := s.foldl (fun n c => 10 * n + digitValue c) acc

/-- Digits with single underscores between them; `seen` says a digit came just before. -/
def intDigits : Bool → ℕ → Str → Option ℕ
  | seen, acc, [] => if seen then some acc else none
  | seen, acc, c :: s =>
    if isDigit c then intDigits true (10 * acc + digitValue c) s
    else if c = '_' ∧ seen then intDigits false acc s
    else none

theorem intDigits_of_digits {s : Str} (hs : s.all isDigit) (acc : ℕ) :
    intDigits true acc s = some (digitsValue acc s) := by
  induction s generalizing acc with
  | nil => rfl
  | cons c s ih =>
    simp only [List.all_cons, Bool.and_eq_true] at hs
    simp only [intDigits, hs.1, if_true, ih hs.2, digitsValue, List.foldl_cons]

/-- White space that `int` skips: C's `isspace`, and the non-ASCII blanks it folds to one. -/
def isIntSpace (c : Char) : Bool :=
  (9 ≤ c.toNat && c.toNat ≤ 13) || c.toNat == 32 || (127 ≤ c.toNat && isSpace c)

def intStrip (s : Str) : Str :=
  ((s.dropWhile isIntSpace).reverse.dropWhile isIntSpace).reverse

/-- The sign and the digits of an `int` literal. -/
def intSign : Str → Bool × Str
  | '+' :: s => (false, s)
  | '-' :: s => (true, s)
  | s => (false, s)

/-- `int(s)` on Latin-1 text; `none` is its `ValueError`. `limit` is the interpreter's bound
on the number of digits, where it has one. -/
def int (limit : Option ℕ) (s : Str) : Option ℤ :=
  let (neg, digits) := intSign (intStrip s)
  if limit.any (· < (digits.filter isDigit).length) then none
  else (intDigits false 0 digits).map fun n => if neg then -(n : ℤ) else n

/-- `str(n)`. -/
def natStr (n : ℕ) : Str := Nat.toDigits 10 n

def intStr : ℤ → Str
  | .ofNat n => natStr n
  | .negSucc n => '-' :: natStr (n + 1)

/-- The zeros of the decimal digits beyond ASCII, in Unicode 14. -/
def decimalZeros : List ℕ := [
  0x660, 0x6f0, 0x7c0, 0x966, 0x9e6, 0xa66, 0xae6, 0xb66, 0xbe6, 0xc66, 0xce6, 0xd66, 0xde6, 0xe50,
  0xed0, 0xf20, 0x1040, 0x1090, 0x17e0, 0x1810, 0x1946, 0x19d0, 0x1a80, 0x1a90, 0x1b50, 0x1bb0,
  0x1c40, 0x1c50, 0xa620, 0xa8d0, 0xa900, 0xa9d0, 0xa9f0, 0xaa50, 0xabf0, 0xff10, 0x104a0, 0x10d30,
  0x11066, 0x110f0, 0x11136, 0x111d0, 0x112f0, 0x11450, 0x114d0, 0x11650, 0x116c0, 0x11730, 0x118e0,
  0x11950, 0x11c50, 0x11d50, 0x11da0, 0x16a60, 0x16ac0, 0x16b50, 0x1d7ce, 0x1d7d8, 0x1d7e2, 0x1d7ec,
  0x1d7f6, 0x1e140, 0x1e2f0, 0x1e950, 0x1fbf0]

/-- The ASCII character for which `int` takes a character of any text. -/
def intChar (c : Char) : Char :=
  if c.toNat < 127 then c
  else if isSpace c then ' '
  else
    match decimalZeros.find? fun z => z ≤ c.toNat && c.toNat < z + 10 with
    | some z => Char.ofNat ('0'.toNat + (c.toNat - z))
    | none => '?'

/-- `int(s)` on any text. -/
def intText (limit : Option ℕ) (s : Str) : Option ℤ := int limit (s.map intChar)

example : intText none "\u00a0-٣_4 ".toList = some (-34) ∧ intText none "3²".toList = none := by decide

/-- The text of the `ValueError`: too many digits, or a literal that is none. -/
def intError (limit : Option ℕ) (repr : Str → Str) (s : Str) : Str :=
  let run := (intSign (intStrip (s.map intChar))).2.takeWhile fun c => isDigit c || c = '_'
  let digits := (run.filter isDigit).length
  match limit.filter fun k => k < digits && (intDigits false 0 run).isSome with
  | some k => "Exceeds the limit (".toList ++ natStr k ++
      " digits) for integer string conversion: value has ".toList ++ natStr digits ++
      " digits; use sys.set_int_max_str_digits() to increase the limit".toList
  | none => "invalid literal for int() with base 10: ".toList ++ (repr s).take 200

/-- `s.encode()`. -/
def encode (s : Str) : Bytes := s.flatMap String.utf8EncodeChar

/-- Text that `encode("latin-1", "strict")` accepts. -/
def isLatin1 (s : Str) : Bool := s.all fun c => c.toNat < 256

def lowerChar (c : Char) : Char :=
  if 'A'.toNat ≤ c.toNat ∧ c.toNat ≤ 'Z'.toNat then Char.ofNat (c.toNat + 32) else c

/-- `s.lower()` on ASCII text. -/
def lower (s : Str) : Str := s.map lowerChar

end Py
