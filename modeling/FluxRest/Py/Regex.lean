import FluxRest.Py.Text

/-! Regular expressions over single characters, with the anchors of PCRE and of Python's `re`. -/
namespace Py

inductive Regex where
  /-- `^`. -/
  | bol
  /-- `$`: the end of the text, or just before a newline that ends it. -/
  | eol
  /-- A character class. -/
  | one (p : Char → Bool)
  /-- `*` of a character class. -/
  | star (p : Char → Bool)
  | seq (a b : Regex)
  | alt (a b : Regex)

namespace Regex

/-- A place in a text: whether it begins here, and what is left of it. -/
structure Place where
  start : Bool
  rest : Str

/-- Where `*` of a class can stop. -/
def starEnds (p : Char → Bool) : Bool → Str → List Place
  | start, [] => [⟨start, []⟩]
  | start, c :: s => (if p c then starEnds p false s else []) ++ [⟨start, c :: s⟩]

/-- Where a match that begins at a place can stop, the preferred first. -/
def ends : Regex → Place → List Place
  | bol, x => if x.start then [x] else []
  | eol, x => if x.rest = [] ∨ x.rest = ['\n'] then [x] else []
  | one p, x =>
    match x.rest with
    | [] => []
    | c :: s => if p c then [⟨false, s⟩] else []
  | star p, x => starEnds p x.start x.rest
  | seq a b, x => (a.ends x).flatMap b.ends
  | alt a b, x => a.ends x ++ b.ends x

/-- `re.match(r, s)`. -/
def isMatch (r : Regex) (s : Str) : Bool := !(r.ends ⟨true, s⟩).isEmpty

def searchFrom (r : Regex) : Bool → Str → Bool
  | start, [] => !(r.ends ⟨start, []⟩).isEmpty
  | start, c :: s => !(r.ends ⟨start, c :: s⟩).isEmpty || r.searchFrom false s

/-- Whether `r` matches anywhere in the text. -/
def search (r : Regex) (s : Str) : Bool := r.searchFrom true s

variable {r : Regex} {s : Str}

theorem isMatch_iff : r.isMatch s = true ↔ ∃ x, x ∈ r.ends ⟨true, s⟩ := by
  rw [isMatch, Bool.not_eq_true', List.isEmpty_eq_false_iff_exists_mem]

theorem mem_bol {x y : Place} : y ∈ ends bol x ↔ x.start = true ∧ y = x := by
  unfold ends
  split_ifs with h <;> simp [h]

theorem mem_eol {x y : Place} : y ∈ ends eol x ↔ (x.rest = [] ∨ x.rest = ['\n']) ∧ y = x := by
  unfold ends
  split_ifs with h <;> simp [h]

theorem mem_one {p : Char → Bool} {x y : Place} :
    y ∈ ends (one p) x ↔ ∃ c s, x.rest = c :: s ∧ p c = true ∧ y = ⟨false, s⟩ := by
  unfold ends
  cases x.rest with
  | nil => simp
  | cons c s =>
    dsimp only
    split_ifs with h <;> simp [h]

theorem mem_seq {a b : Regex} {x z : Place} :
    z ∈ ends (seq a b) x ↔ ∃ y ∈ a.ends x, z ∈ b.ends y := by
  rw [ends, List.mem_flatMap]

theorem mem_alt {a b : Regex} {x y : Place} :
    y ∈ ends (alt a b) x ↔ y ∈ a.ends x ∨ y ∈ b.ends x := by
  rw [ends, List.mem_append]

/-- `*` takes any run of characters of its class. -/
theorem mem_star {p : Char → Bool} {x y : Place} : y ∈ ends (star p) x ↔
    ∃ cs, x.rest = cs ++ y.rest ∧ (∀ c ∈ cs, p c = true) ∧ y.start = (x.start && cs.isEmpty) := by
  rw [ends]
  obtain ⟨start, s⟩ := x
  dsimp only
  induction s generalizing start with
  | nil =>
    rw [starEnds, List.mem_singleton]
    constructor
    · rintro rfl
      exact ⟨[], rfl, nofun, by simp⟩
    · rintro ⟨cs, hs, -, hstart⟩
      obtain ⟨rfl, hrest⟩ := List.append_eq_nil_iff.mp hs.symm
      obtain ⟨ystart, yrest⟩ := y
      simp at hrest hstart
      rw [hrest, hstart]
  | cons c s ih =>
    rw [starEnds, List.mem_append, List.mem_singleton]
    constructor
    · rintro (h | rfl)
      · split_ifs at h with hc
        · obtain ⟨cs, hs, hall, hstart⟩ := (ih false).mp h
          refine ⟨c :: cs, by rw [hs]; rfl, ?_, by simpa using hstart⟩
          intro c' hc'
          obtain rfl | hc' := List.mem_cons.mp hc'
          · exact hc
          · exact hall c' hc'
        · cases h
      · exact ⟨[], rfl, nofun, by simp⟩
    · rintro ⟨cs, hs, hall, hstart⟩
      cases cs with
      | nil =>
        right
        obtain ⟨ystart, yrest⟩ := y
        simp at hs hstart
        rw [← hs, hstart]
      | cons c' cs =>
        left
        obtain ⟨rfl, htail⟩ := List.cons.inj hs
        rw [if_pos (hall c List.mem_cons_self)]
        refine (ih false).mpr ⟨cs, htail, fun x hx => hall x (List.mem_cons_of_mem _ hx), ?_⟩
        simpa using hstart

/-- A pattern that only matches at the beginning is found there or nowhere. -/
theorem search_of_anchored (h : ∀ s, r.ends ⟨false, s⟩ = []) (s : Str) : r.search s = r.isMatch s := by
  have hnone : ∀ s, r.searchFrom false s = false := by
    intro s
    induction s with
    | nil => rw [searchFrom, h]; rfl
    | cons c s ih => rw [searchFrom, h, ih]; rfl
  unfold search
  cases s with
  | nil => rfl
  | cons c s => rw [searchFrom, hnone, Bool.or_false]; rfl

end Regex
end Py
