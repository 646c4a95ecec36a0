import FluxRest.Py.Http
import FluxRest.Py.Percent

/-! What a client reads of a response: the lines of its head, and what follows them. -/
namespace Py.Http

def CR : UInt8 := 13
def LF : UInt8 := 10

/-- What follows a line that `c` ended. -/
def pastEnd (c : UInt8) (s : Bytes) : Bytes := if c = CR ∧ s.head? = some LF then s.tail else s

/-- The lines up to the first empty one, and what comes after it. A line ends at CR LF, at LF or at
CR; `line` is what has been read of the current one, which `afterCR` says a CR came before. -/
def readHeadFrom : Bool → Bytes → Bytes → Option (List Bytes × Bytes)
  | _, _, [] => none
  | afterCR, line, c :: s =>
    if afterCR ∧ c = LF then readHeadFrom false line s
    else if c = CR ∨ c = LF then
      if line = [] then some ([], pastEnd c s)
      else (readHeadFrom (c = CR) [] s).map fun r => (line :: r.1, r.2)
    else readHeadFrom false (line ++ [c]) s

def readHead (bs : Bytes) : Option (List Bytes × Bytes) := readHeadFrom false [] bs

/-- No line ends within `line`. -/
def Unbroken (line : Bytes) : Prop := CR ∉ line ∧ LF ∉ line

theorem readHeadFrom_line {line : Bytes} (h : Unbroken line) (read : Bytes)
    (hne : read ++ line ≠ []) (s : Bytes) : readHeadFrom false read (line ++ CR :: LF :: s) =
      (readHeadFrom false [] s).map fun r => ((read ++ line) :: r.1, r.2) := by
  induction line generalizing read with
  | nil =>
    have hread : read ≠ [] := by simpa using hne
    simp [readHeadFrom, hread, CR, LF]
  | cons c line ih =>
    have hc : c ≠ CR ∧ c ≠ LF := by
      constructor <;> rintro rfl
      · exact h.1 List.mem_cons_self
      · exact h.2 List.mem_cons_self
    have hline : Unbroken line :=
      ⟨fun hmem => h.1 (List.mem_cons_of_mem _ hmem), fun hmem => h.2 (List.mem_cons_of_mem _ hmem)⟩
    have hstep := ih hline (read ++ [c]) (by simp)
    simp only [List.cons_append, readHeadFrom, hc, Bool.false_eq_true, false_and, or_self, if_false,
      hstep, List.append_assoc, List.nil_append]

/-- Unbroken lines are read back, and with them exactly what follows the head. -/
theorem readHead_lines {lines : List Bytes} (h : ∀ line ∈ lines, line ≠ [] ∧ Unbroken line)
    (rest : Bytes) :
    readHead (lines.flatMap (· ++ [CR, LF]) ++ CR :: LF :: rest) = some (lines, rest) := by
  induction lines with
  | nil => simp [readHead, readHeadFrom, pastEnd, CR, LF]
  | cons line lines ih =>
    obtain ⟨hne, hline⟩ := h line List.mem_cons_self
    have hrest := ih fun line hmem => h line (List.mem_cons_of_mem _ hmem)
    have hread := readHeadFrom_line hline [] (by simpa using hne)
      (lines.flatMap (· ++ [CR, LF]) ++ CR :: LF :: rest)
    unfold readHead at hrest ⊢
    simp only [List.flatMap_cons, List.append_assoc, List.cons_append, List.nil_append] at hread hrest ⊢
    rw [hread, hrest]
    rfl

/-- Nothing but unbroken lines is ever read. -/
theorem unbroken_of_readHeadFrom {afterCR : Bool} {line bs : Bytes} (hline : Unbroken line)
    {lines : List Bytes} {rest : Bytes} (h : readHeadFrom afterCR line bs = some (lines, rest)) :
    ∀ l ∈ lines, Unbroken l := by
  induction bs generalizing afterCR line lines rest with
  | nil => simp [readHeadFrom] at h
  | cons c s ih =>
    simp only [readHeadFrom] at h
    split_ifs at h with hskip hend hempty
    · exact ih hline h
    · simp only [Option.some.injEq, Prod.mk.injEq] at h
      simp [← h.1]
    · obtain ⟨⟨lines', rest'⟩, hread, heq⟩ := Option.map_eq_some_iff.mp h
      simp only [Prod.mk.injEq] at heq
      rw [← heq.1]
      intro l hl
      obtain rfl | hl := List.mem_cons.mp hl
      · exact hline
      · exact ih ⟨by simp, by simp⟩ hread l hl
    · obtain ⟨hcr, hlf⟩ := not_or.mp hend
      exact ih ⟨by simp [hline.1, Ne.symm hcr], by simp [hline.2, Ne.symm hlf]⟩ h

/-! Text that stays within its line. -/

def IsLine (s : Str) : Prop := isLatin1 s = true ∧ '\r' ∉ s ∧ '\n' ∉ s

instance (s : Str) : Decidable (IsLine s) := inferInstanceAs (Decidable (_ ∧ _ ∧ _))

theorem isLatin1_append {s t : Str} :
    isLatin1 (s ++ t) = true ↔ isLatin1 s = true ∧ isLatin1 t = true := by
  simp [isLatin1]

theorem isLine_append {s t : Str} : IsLine (s ++ t) ↔ IsLine s ∧ IsLine t := by
  simp only [IsLine, isLatin1_append, List.mem_append, not_or]
  tauto

theorem isLine_of_isTame {s : Str} (h : isTame s = true) : IsLine s :=
  ⟨isLatin1_of_isTame h, notMem_of_isTame h (Or.inl (by decide)), notMem_of_isTame h (Or.inl (by decide))⟩

theorem mem_latin1 {s : Str} (h : isLatin1 s = true) (c : Char) (hc : c.toNat < 256) :
    UInt8.ofNat c.toNat ∈ latin1 s ↔ c ∈ s := by
  simp only [isLatin1, List.all_eq_true, decide_eq_true_eq] at h
  simp only [latin1, List.mem_map]
  constructor
  · rintro ⟨x, hx, heq⟩
    have hbyte := congrArg UInt8.toNat heq
    have hsame : x.toNat = c.toNat := by
      simpa [Nat.mod_eq_of_lt (h x hx), Nat.mod_eq_of_lt hc] using hbyte
    rwa [← Char.toNat_inj.mp hsame]
  · intro hmem
    exact ⟨c, hmem, rfl⟩

theorem unbroken_latin1 {s : Str} (h : isLatin1 s = true) : Unbroken (latin1 s) ↔ IsLine s := by
  have hcr := mem_latin1 h '\r' (by decide)
  have hlf := mem_latin1 h '\n' (by decide)
  unfold Unbroken IsLine
  rw [and_iff_right h]
  exact and_congr (not_congr hcr) (not_congr hlf)

namespace Head

def statusLine (h : Head) : Str := "HTTP/1.0 ".toList ++ natStr h.status ++ ' ' :: h.reason

def fieldLine (f : Str × Str) : Str := f.1 ++ ": ".toList ++ f.2

/-- The lines of the head as they are meant. -/
def lines (h : Head) : List Str := h.statusLine :: h.fields.map fieldLine

/-- A client reads the lines that are meant, and then the body. -/
def ReadBack (h : Head) (body : Bytes) : Prop :=
  readHead ((Wire.head h).bytes ++ body) = some (h.lines.map latin1, body)

theorem bytes_eq (h : Head) : (Wire.head h).bytes =
    (h.lines.map latin1).flatMap (· ++ [CR, LF]) ++ [CR, LF] := by
  have hend : latin1 "\r\n".toList = [CR, LF] := by decide
  have htext : h.text = h.lines.flatMap (· ++ "\r\n".toList) ++ "\r\n".toList := by
    unfold text lines statusLine
    generalize "\r\n".toList = crlf
    generalize "HTTP/1.0 ".toList = version
    rw [List.flatMap_cons, List.flatMap_map]
    rfl
  change latin1 h.text = _
  rw [htext, ← hend]
  simp only [latin1, List.map_append, List.map_flatMap, List.flatMap_map]

theorem statusLine_eq (h : Head) : ∃ s, isTame s = true ∧ h.statusLine = s ++ h.reason := by
  have hversion : isTame "HTTP/1.0 ".toList = true := by decide
  have hblank : isTame [' '] = true := by decide
  unfold statusLine
  generalize "HTTP/1.0 ".toList = version at hversion
  refine ⟨version ++ natStr h.status ++ [' '], ?_, by simp⟩
  exact isTame_append.mpr ⟨isTame_append.mpr ⟨hversion, isTame_natStr _⟩, hblank⟩

theorem isLatin1_statusLine {h : Head} : isLatin1 h.statusLine = true ↔ isLatin1 h.reason = true := by
  obtain ⟨s, hs, hline⟩ := h.statusLine_eq
  rw [hline, isLatin1_append, and_iff_right (isLatin1_of_isTame hs)]

theorem isLine_statusLine {h : Head} : IsLine h.statusLine ↔ IsLine h.reason := by
  obtain ⟨s, hs, hline⟩ := h.statusLine_eq
  rw [hline, isLine_append, and_iff_right (isLine_of_isTame hs)]

theorem lines_ne_nil {h : Head} : ∀ line ∈ h.lines, line ≠ [] := by
  intro line hmem
  obtain rfl | hmem := List.mem_cons.mp hmem
  · exact List.append_ne_nil_of_right_ne_nil _ (List.cons_ne_nil _ _)
  · obtain ⟨f, -, rfl⟩ := List.mem_map.mp hmem
    have hname : f.1 ++ ": ".toList ≠ [] := List.append_ne_nil_of_right_ne_nil _ (by decide)
    exact List.append_ne_nil_of_left_ne_nil hname _

/-- A head whose fields stay within their lines is read back exactly where its reason does. -/
theorem readBack_iff {h : Head} (hreason : isLatin1 h.reason = true)
    (hfields : ∀ f ∈ h.fields, IsLine (fieldLine f)) (body : Bytes) :
    h.ReadBack body ↔ IsLine h.reason := by
  constructor
  · intro hread
    have hstatus : isLatin1 h.statusLine = true := isLatin1_statusLine.mpr hreason
    have hline := unbroken_of_readHeadFrom ⟨by simp, by simp⟩ hread (latin1 h.statusLine) (by simp [lines])
    exact isLine_statusLine.mp ((unbroken_latin1 hstatus).mp hline)
  · intro hline
    have hlines : ∀ line ∈ h.lines.map latin1, line ≠ [] ∧ Unbroken line := by
      intro line hmem
      obtain ⟨s, hs, rfl⟩ := List.mem_map.mp hmem
      have hs' : IsLine s := by
        obtain rfl | hs := List.mem_cons.mp hs
        · exact isLine_statusLine.mpr hline
        · obtain ⟨f, hf, rfl⟩ := List.mem_map.mp hs
          exact hfields f hf
      exact ⟨by simpa [latin1] using lines_ne_nil s hs, (unbroken_latin1 hs'.1).mpr hs'⟩
    unfold ReadBack
    rw [bytes_eq, List.append_assoc]
    exact readHead_lines hlines body

end Head
end Py.Http
