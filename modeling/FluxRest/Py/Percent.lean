import FluxRest.Py.Exc
import Mathlib.Algebra.Group.Nat.Defs

/-! `format % ()` and `encode("latin-1", "strict")`: for which texts they return, and the texts of
the exceptions they raise for others. -/
namespace Py

/-- Printable ASCII without a percent sign. -/
def isTame (s : Str) : Bool := s.all fun c => 32 ≤ c.toNat && c.toNat < 127 && c != '%'

theorem isTame_append {s t : Str} : isTame (s ++ t) = true ↔ isTame s = true ∧ isTame t = true := by
  simp [isTame, forall_and]

theorem isLatin1_of_isTame {s : Str} (h : isTame s = true) : isLatin1 s = true := by
  simp only [isTame, isLatin1, List.all_eq_true, Bool.and_eq_true, decide_eq_true_eq] at h ⊢
  intro c hc
  have hrange := (h c hc).1
  omega

theorem notMem_of_isTame {s : Str} (h : isTame s = true) {c : Char} (hc : c.toNat < 32 ∨ c = '%') :
    c ∉ s := by
  simp only [isTame, List.all_eq_true, Bool.and_eq_true, decide_eq_true_eq, bne_iff_ne] at h
  intro hmem
  have hc' := h c hmem
  obtain hlow | hpercent := hc
  · omega
  · exact hc'.2 hpercent

theorem isTame_natStr (n : ℕ) : isTame (natStr n) = true := by
  simp only [isTame, List.all_eq_true, Bool.and_eq_true, decide_eq_true_eq, bne_iff_ne]
  intro c hc
  have hdigit : c.isDigit = true := Nat.isDigit_of_mem_toDigits (by decide) (by decide) hc
  have hrange : 48 ≤ c.toNat ∧ c.toNat ≤ 57 := by
    simpa [Char.isDigit, UInt32.le_iff_toNat_le] using hdigit
  refine ⟨by omega, ?_⟩
  rintro rfl
  simp at hdigit

/-! A conversion specifier, as far as it has been read. -/

inductive Spec where
  /-- Just after the `%`. -/
  | opened
  | flags
  | width (n : ℕ)
  | point
  | precision (n : ℕ)
  | modifier
  deriving DecidableEq

namespace Spec

def SSIZE_MAX : ℕ := 2 ^ 63 - 1
def INT_MAX : ℕ := 2 ^ 31 - 1

def notEnough : Exc := .ofClass .typeError "not enough arguments for format string".toList
def noMapping : Exc := .ofClass .typeError "format requires a mapping".toList
def incomplete : Exc := .ofClass .valueError "incomplete format".toList
def widthTooBig : Exc := .ofClass .valueError "width too big".toList
def precisionTooBig : Exc := .ofClass .valueError "precision too big".toList

/-- A length modifier, or the conversion type itself: without arguments there is none to convert. -/
def convert (c : Char) : Except Exc Spec :=
  if c = 'h' ∨ c = 'l' ∨ c = 'L' then .ok modifier else .error notEnough

/-- How a specifier goes on with `c`. -/
def next : Spec → Char → Except Exc Spec
  | opened, c | flags, c =>
    if c = '-' ∨ c = '+' ∨ c = ' ' ∨ c = '#' ∨ c = '0' then .ok flags
    else if isDigit c then .ok (width (digitValue c))
    else if c = '.' then .ok point
    else convert c
  | width n, c =>
    if isDigit c then
      if (SSIZE_MAX - digitValue c) / 10 < n then .error widthTooBig
      else .ok (width (10 * n + digitValue c))
    else if c = '.' then .ok point
    else convert c
  | point, c => if isDigit c then .ok (precision (digitValue c)) else convert c
  | precision n, c =>
    if isDigit c then
      if (INT_MAX - digitValue c) / 10 < n then .error precisionTooBig
      else .ok (precision (10 * n + digitValue c))
    else convert c
  | modifier, _ => .error notEnough

/-- What a specifier that is not `%%` may raise. -/
def errors : List Exc := [notEnough, noMapping, incomplete, widthTooBig, precisionTooBig]

theorem isTame_errors : ∀ err ∈ errors, isTame err.message = true := by
  simp only [errors, List.forall_mem_cons]
  exact ⟨by decide, by decide, by decide, by decide, by decide, nofun⟩

/-- A specifier goes on, no longer just opened, or one of the errors is raised. -/
def Goes (r : Except Exc Spec) : Prop :=
  (∃ spec, spec ≠ opened ∧ r = .ok spec) ∨ ∃ err ∈ errors, r = .error err

theorem goes_convert (c : Char) : Goes (convert c) := by
  unfold convert
  split_ifs
  · exact Or.inl ⟨modifier, by simp, rfl⟩
  · exact Or.inr ⟨notEnough, by simp [errors], rfl⟩

theorem goes_next (spec : Spec) (c : Char) : Goes (spec.next c) := by
  have hok : ∀ spec', spec' ≠ opened → Goes (.ok spec') := fun spec' h => Or.inl ⟨spec', h, rfl⟩
  have herror : ∀ err ∈ errors, Goes (.error err) := fun err h => Or.inr ⟨err, h, rfl⟩
  cases spec with
  | opened | flags =>
    simp only [next]
    split_ifs
    · exact hok _ (by simp)
    · exact hok _ (by simp)
    · exact hok _ (by simp)
    · exact goes_convert c
  | width n =>
    simp only [next]
    split_ifs
    · exact herror _ (by simp [errors])
    · exact hok _ (by simp)
    · exact hok _ (by simp)
    · exact goes_convert c
  | point =>
    simp only [next]
    split_ifs
    · exact hok _ (by simp)
    · exact goes_convert c
  | precision n =>
    simp only [next]
    split_ifs
    · exact herror _ (by simp [errors])
    · exact hok _ (by simp)
    · exact goes_convert c
  | modifier => exact herror _ (by simp [errors])

end Spec

/-- `format % ()`, from within a specifier or between two. -/
def percentFrom : Option Spec → Str → Except Exc Str
  | none, [] => .ok []
  | some _, [] => .error Spec.incomplete
  | none, c :: s =>
    if c = '%' then percentFrom (some .opened) s else (percentFrom none s).map (c :: ·)
  | some spec, c :: s =>
    if spec = .opened ∧ c = '%' then (percentFrom none s).map ('%' :: ·)
    else if spec = .opened ∧ c = '(' then .error Spec.noMapping
    else match spec.next c with
      | .ok spec => percentFrom (some spec) s
      | .error err => .error err

/-- `format % ()`. -/
def percent (format : Str) : Except Exc Str := percentFrom none format

/-- The format that stands for `s` itself. -/
def doubled (s : Str) : Str := s.flatMap fun c => if c = '%' then ['%', '%'] else [c]

theorem percentFrom_spec {spec : Spec} (h : spec ≠ .opened) (s : Str) :
    ∃ err ∈ Spec.errors, percentFrom (some spec) s = .error err := by
  induction s generalizing spec with
  | nil => exact ⟨Spec.incomplete, by simp [Spec.errors], rfl⟩
  | cons c s ih =>
    obtain ⟨spec', hspec', hnext⟩ | ⟨err, herr, hnext⟩ := spec.goes_next c
    · obtain ⟨err, herr, hfrom⟩ := ih hspec'
      exact ⟨err, herr, by simp [percentFrom, h, hnext, hfrom]⟩
    · exact ⟨err, herr, by simp [percentFrom, h, hnext]⟩

theorem percentFrom_opened (s : Str) : (∃ t, s = '%' :: t ∧
      percentFrom (some .opened) s = (percentFrom none t).map ('%' :: ·)) ∨
    ∃ err ∈ Spec.errors, percentFrom (some .opened) s = .error err := by
  cases s with
  | nil => exact Or.inr ⟨Spec.incomplete, by simp [Spec.errors], rfl⟩
  | cons c s =>
    by_cases hpercent : c = '%'
    · subst hpercent
      exact Or.inl ⟨s, rfl, by simp [percentFrom]⟩
    · right
      by_cases hmapping : c = '('
      · exact ⟨Spec.noMapping, by simp [Spec.errors], by simp [percentFrom, hmapping]⟩
      · obtain ⟨spec', hspec', hnext⟩ | ⟨err, herr, hnext⟩ := Spec.goes_next .opened c
        · obtain ⟨err, herr, hfrom⟩ := percentFrom_spec hspec' s
          exact ⟨err, herr, by simp [percentFrom, hpercent, hmapping, hnext, hfrom]⟩
        · exact ⟨err, herr, by simp [percentFrom, hpercent, hmapping, hnext]⟩

theorem percent_cons {c : Char} (h : c ≠ '%') (s : Str) :
    percent (c :: s) = (percent s).map (c :: ·) := by
  simp [percent, percentFrom, h]

/-- Text without a percent sign stays as it is. -/
theorem percent_append {p : Str} (hp : '%' ∉ p) (s : Str) :
    percent (p ++ s) = (percent s).map (p ++ ·) := by
  induction p with
  | nil => cases h : percent s <;> simp [h, Except.map]
  | cons c p ih =>
    obtain ⟨hc, hp⟩ := not_or.mp (mt List.mem_cons.mpr hp)
    rw [List.cons_append, percent_cons (Ne.symm hc), ih hp]
    cases percent s <;> rfl

theorem percent_doubled (s : Str) : percent (doubled s) = .ok s := by
  induction s with
  | nil => rfl
  | cons c s ih =>
    have hcons : doubled (c :: s) = (if c = '%' then ['%', '%'] else [c]) ++ doubled s := by
      simp [doubled]
    rw [hcons]
    split_ifs with hc
    · have hopened : percent ('%' :: '%' :: doubled s) = (percent (doubled s)).map ('%' :: ·) := by
        simp [percent, percentFrom]
      rw [hc]
      exact hopened.trans (by rw [ih]; rfl)
    · have hfill : percent (c :: doubled s) = (percent (doubled s)).map (c :: ·) := percent_cons hc _
      exact hfill.trans (by rw [ih]; rfl)

theorem doubled_of_notMem {s : Str} (h : '%' ∉ s) : doubled s = s := by
  induction s with
  | nil => rfl
  | cons c s ih =>
    obtain ⟨hc, hs⟩ := not_or.mp (mt List.mem_cons.mpr h)
    have hrest : s.flatMap (fun c => if c = '%' then ['%', '%'] else [c]) = s := ih hs
    simp [doubled, Ne.symm hc, hrest]

/-- A format is filled in without arguments, or one of the errors is raised. -/
theorem percent_cases (s : Str) :
    (∃ t, s = doubled t) ∨ ∃ err ∈ Spec.errors, percent s = .error err := by
  induction h : s.length using Nat.strong_induction_on generalizing s with
  | _ n ih =>
    cases s with
    | nil => exact Or.inl ⟨[], rfl⟩
    | cons c s =>
      simp only [List.length_cons] at h
      by_cases hc : c = '%'
      · subst hc
        have hopened : percent ('%' :: s) = percentFrom (some .opened) s := by
          simp [percent, percentFrom]
        obtain ⟨t, rfl, hfrom⟩ | ⟨err, herr, hfrom⟩ := percentFrom_opened s
        · simp only [List.length_cons] at h
          obtain ⟨u, rfl⟩ | ⟨err, herr, hraise⟩ := ih t.length (by omega) t rfl
          · exact Or.inl ⟨'%' :: u, by simp [doubled]⟩
          · have hraise' : percentFrom none t = .error err := hraise
            exact Or.inr ⟨err, herr, by rw [hopened, hfrom, hraise']; rfl⟩
        · exact Or.inr ⟨err, herr, hopened.trans hfrom⟩
      · obtain ⟨u, rfl⟩ | ⟨err, herr, hraise⟩ := ih s.length (by omega) s rfl
        · exact Or.inl ⟨c :: u, by simp [doubled, hc]⟩
        · exact Or.inr ⟨err, herr, by rw [percent_cons hc, hraise]; rfl⟩

/-! Latin-1. -/

def latin1 (s : Str) : Bytes := s.map fun c => UInt8.ofNat c.toNat

/-- The escape that stands for a character outside Latin-1. -/
def escape (c : Char) : Str :=
  let hex := fun w => (List.range w).reverse.map fun i => (c.toNat / 16 ^ i % 16).digitChar
  if c.toNat ≤ 0xffff then "\\u".toList ++ hex 4 else "\\U".toList ++ hex 8

/-- `s.encode("latin-1", "strict")`: the error tells of the first run of other characters. -/
def encodeLatin1 (s : Str) : Except Exc Bytes :=
  if isLatin1 s then .ok (latin1 s)
  else
    let start := (s.takeWhile (·.toNat < 256)).length
    let run := (s.drop start).takeWhile (256 ≤ ·.toNat)
    let place := match run with
      | [c] => " '".toList ++ escape c ++ "' in position ".toList ++ natStr start
      | _ => "s in position ".toList ++ natStr start ++ '-' :: natStr (start + run.length - 1)
    .error (.ofClass .unicodeEncodeError
      ("'latin-1' codec can't encode character".toList ++ place ++ ": ordinal not in range(256)".toList))

theorem encodeLatin1_ok {s : Str} (h : isLatin1 s = true) : encodeLatin1 s = .ok (latin1 s) := by
  simp [encodeLatin1, h]

theorem isTame_escape (c : Char) : isTame (escape c) = true := by
  have hdigit : ∀ n < 16, isTame [Nat.digitChar n] = true := by decide
  have hhex : ∀ w, isTame ((List.range w).reverse.map fun i =>
      (c.toNat / 16 ^ i % 16).digitChar) = true := by
    intro w
    rw [isTame, List.all_eq_true]
    intro x hx
    obtain ⟨i, -, rfl⟩ := List.mem_map.mp hx
    have h := hdigit _ (Nat.mod_lt (c.toNat / 16 ^ i) (by decide : 16 > 0))
    simpa [isTame] using h
  unfold escape
  dsimp only
  split_ifs
  · exact isTame_append.mpr ⟨by decide, hhex 4⟩
  · exact isTame_append.mpr ⟨by decide, hhex 8⟩

theorem encodeLatin1_error {s : Str} (h : isLatin1 s = false) :
    ∃ err, encodeLatin1 s = .error err ∧ isTame err.message = true := by
  have hcodec : isTame "'latin-1' codec can't encode character".toList = true := by decide
  have hordinal : isTame ": ordinal not in range(256)".toList = true := by decide
  unfold encodeLatin1
  rw [if_neg (by simp [h])]
  refine ⟨_, rfl, isTame_append.mpr ⟨isTame_append.mpr ⟨hcodec, ?_⟩, hordinal⟩⟩
  split
  · refine isTame_append.mpr ⟨isTame_append.mpr ⟨isTame_append.mpr ⟨by decide, isTame_escape _⟩, ?_⟩,
      isTame_natStr _⟩
    decide
  · have hdash : isTame ['-'] = true := by decide
    refine isTame_append.mpr ⟨isTame_append.mpr ⟨by decide, isTame_natStr _⟩, ?_⟩
    exact isTame_append.mpr ⟨hdash, isTame_natStr _⟩

example : percent "100%% of %".toList = .error Spec.incomplete ∧
    percent "50%% of 5%s".toList = .error Spec.notEnough := by
  constructor <;> rfl

end Py
