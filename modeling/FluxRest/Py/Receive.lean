import FluxRest.Py.Head
import FluxRest.Py.Decimal

/-! A client that reads one response with a `Content-Length`. -/
namespace Py

theorem split_append {c : Char} {s : Str} (hs : c ∉ s) (t : Str) :
    split c (s ++ c :: t) = s :: split c t := by
  induction s with
  | nil => simp [split]
  | cons x s ih =>
    obtain ⟨hx, hs'⟩ := not_or.mp (mt List.mem_cons.mpr hs)
    rw [List.cons_append, split, if_neg (Ne.symm hx), ih hs']

namespace Http

/-- `bs.decode("latin-1")`. -/
def ofLatin1 (bs : Bytes) : Str := bs.map fun b => Char.ofNat b.toNat

theorem ofLatin1_latin1 {s : Str} (h : isLatin1 s = true) : ofLatin1 (latin1 s) = s := by
  simp only [isLatin1, List.all_eq_true, decide_eq_true_eq] at h
  rw [ofLatin1, latin1, List.map_map]
  conv_rhs => rw [← List.map_id s]
  apply List.map_congr_left
  intro c hc
  have hbyte : (UInt8.ofNat c.toNat).toNat = c.toNat := UInt8.toNat_ofNat_of_lt' (h c hc)
  rw [Function.comp_apply, hbyte, Char.ofNat_toNat, id_eq]

/-- A response as it has been read. -/
structure Received where
  status : ℕ
  fields : List (Str × Str)
  body : Bytes
  deriving DecidableEq

/-- The status of a status line. -/
def readStatus (line : Str) : Option ℕ :=
  match split ' ' line with
  | version :: status :: _ =>
    if "HTTP/".toList.isPrefixOf version ∧ status ≠ [] ∧ status.all isDigit then
      some (digitsValue 0 status)
    else none
  | _ => none

/-- Blanks before a header's value. -/
def isPadding (c : Char) : Bool := c = ' ' || c = '\t'

def readField (line : Str) : Option (Str × Str) :=
  if ':' ∈ line then some (before ':' line, (after ':' line).dropWhile isPadding) else none

/-- The one `Content-Length` among the headers. -/
def contentLength (fields : List (Str × Str)) : Option ℕ :=
  match fields.filter (lower ·.1 = "content-length".toList) with
  | [f] => if f.2 ≠ [] ∧ f.2.all isDigit then some (digitsValue 0 f.2) else none
  | _ => none

/-- A whole response and what comes after it. -/
def receive (bs : Bytes) : Option (Received × Bytes) := do
  let (lines, rest) ← readHead bs
  match lines.map ofLatin1 with
  | [] => none
  | first :: lines =>
    let status ← readStatus first
    let fields ← lines.mapM readField
    let length ← contentLength fields
    if length ≤ rest.length then some (⟨status, fields, rest.take length⟩, rest.drop length) else none

/-- A header that is read back as it is meant. -/
structure IsField (f : Str × Str) : Prop where
  line : IsLine (Head.fieldLine f)
  name : ':' ∉ f.1
  value : ∀ c ∈ f.2.head?, isPadding c = false

theorem readField_fieldLine {f : Str × Str} (h : IsField f) : readField (Head.fieldLine f) = some f := by
  have hline : Head.fieldLine f = f.1 ++ ':' :: ' ' :: f.2 := by
    unfold Head.fieldLine
    rw [List.append_assoc]
    rfl
  have hbefore : before ':' (f.1 ++ ':' :: ' ' :: f.2) = f.1 := by
    rw [before_append h.name]
    simp [before]
  have hafter : after ':' (f.1 ++ ':' :: ' ' :: f.2) = ' ' :: f.2 := by
    rw [after_append h.name]
    rfl
  have hpadding : (' ' :: f.2).dropWhile isPadding = f.2 := by
    rw [List.dropWhile_cons_of_pos rfl]
    cases hf : f.2 with
    | nil => rfl
    | cons c s =>
      rw [List.dropWhile_cons_of_neg]
      rw [h.value c (by rw [hf]; rfl)]
      decide
  rw [readField, hline, if_pos (by simp), hbefore, hafter, hpadding]

theorem readFields {fields : List (Str × Str)} (h : ∀ f ∈ fields, IsField f) :
    (fields.map Head.fieldLine).mapM readField = some fields := by
  induction fields with
  | nil => rfl
  | cons f fields ih =>
    rw [List.map_cons, List.mapM_cons, readField_fieldLine (h f List.mem_cons_self),
      ih fun f hf => h f (List.mem_cons_of_mem _ hf)]
    rfl

theorem readStatus_statusLine (h : Head) : readStatus h.statusLine = some h.status := by
  have hversion : ' ' ∉ "HTTP/1.0".toList := by decide
  have hdigits : ' ' ∉ natStr h.status := by
    intro hmem
    have hblank : isDigit ' ' = true := isDigit_of_mem_natStr hmem
    cases hblank
  have hline : h.statusLine = "HTTP/1.0".toList ++ ' ' :: (natStr h.status ++ ' ' :: h.reason) := by
    unfold Head.statusLine
    rw [List.append_assoc]
    rfl
  have hhttp : "HTTP/".toList.isPrefixOf "HTTP/1.0".toList = true := by decide
  rw [readStatus, hline, split_append hversion, split_append hdigits]
  dsimp only
  rw [if_pos ⟨hhttp, natStr_ne_nil _, all_isDigit_natStr _⟩, digitsValue_natStr]

/-- A head that a client can read, with the length of the body. -/
structure Head.Sendable (h : Head) (length : ℕ) : Prop where
  reason : IsLine h.reason
  fields : ∀ f ∈ h.fields, IsField f
  length : h.fields.filter (lower ·.1 = "content-length".toList) =
    [("Content-Length".toList, natStr length)]

/-- A response is read back as it is meant, and with it exactly what follows it. -/
theorem receive_response {h : Head} {body : Bytes} (hh : h.Sendable body.length) (rest : Bytes) :
    receive ((Wire.head h).bytes ++ (body ++ rest)) = some (⟨h.status, h.fields, body⟩, rest) := by
  have hread : h.ReadBack (body ++ rest) :=
    (Head.readBack_iff hh.reason.1 (fun f hf => (hh.fields f hf).line) _).mpr hh.reason
  have hlines : (h.lines.map latin1).map ofLatin1 = h.lines := by
    rw [List.map_map]
    conv_rhs => rw [← List.map_id h.lines]
    apply List.map_congr_left
    intro line hline
    have hlatin1 : isLatin1 line = true := by
      obtain rfl | hline := List.mem_cons.mp hline
      · exact Head.isLatin1_statusLine.mpr hh.reason.1
      · obtain ⟨f, hf, rfl⟩ := List.mem_map.mp hline
        exact (hh.fields f hf).line.1
    exact ofLatin1_latin1 hlatin1
  have hlength : contentLength h.fields = some body.length := by
    simp only [contentLength, hh.length, natStr_ne_nil, all_isDigit_natStr, ne_eq, not_false_eq_true,
      and_self, if_true, digitsValue_natStr]
  unfold Head.ReadBack at hread
  simp only [receive, hread, Option.bind_eq_bind, Option.bind_some, hlines]
  simp only [Head.lines, readStatus_statusLine, Option.bind_some, readFields hh.fields, hlength]
  rw [if_pos (by simp), List.take_left, List.drop_left]

end Http
end Py
