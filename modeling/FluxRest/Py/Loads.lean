import FluxRest.Py.Json
import FluxRest.Py.Url

/-! `json.loads` on text: the scanner of `json.decoder`. -/
namespace Py.Json

/-- The white space of JSON. -/
def isBlank (c : Char) : Bool := c = ' ' || c = '\t' || c = '\n' || c = '\r'

def skipBlanks (s : Str) : Str := s.dropWhile isBlank

/-- The four hexadecimal digits of a `\u` escape. -/
def hex4 : Str → Option (ℕ × Str)
  | a :: b :: c :: d :: s => do
    let x ← hexValue a
    let y ← hexValue b
    let z ← hexValue c
    let w ← hexValue d
    return (4096 * x + 256 * y + 16 * z + w, s)
  | _ => none

/-- The second half of a surrogate pair. -/
def lowSurrogate : Str → Option (ℕ × Str)
  | '\\' :: 'u' :: s => (hex4 s).filter fun r => 0xdc00 ≤ r.1 && r.1 ≤ 0xdfff
  | _ => none

/-- A `\u` escape, once the `u` is read. A surrogate without its other half is no character. -/
def unicode (s : Str) : Option (Char × Str) := do
  let (n, s) ← hex4 s
  if 0xd800 ≤ n ∧ n ≤ 0xdbff then
    let (m, s) ← lowSurrogate s
    return (Char.ofNat (0x10000 + 1024 * (n - 0xd800) + (m - 0xdc00)), s)
  else if 0xdc00 ≤ n ∧ n ≤ 0xdfff then none
  else return (Char.ofNat n, s)

/-- The escapes of one letter. -/
def backslash : Char → Option Char
  | '"' => some '"'
  | '\\' => some '\\'
  | '/' => some '/'
  | 'b' => some (Char.ofNat 8)
  | 'f' => some (Char.ofNat 12)
  | 'n' => some '\n'
  | 'r' => some '\r'
  | 't' => some '\t'
  | _ => none

/-- One character of a string literal and what follows it; the closing quote is `none`. -/
def character : Str → Option (Option Char × Str)
  | [] => none
  | c :: s =>
    if c = '"' then some (none, s)
    else if c = '\\' then
      match s with
      | [] => none
      | 'u' :: s => (unicode s).map fun r => (some r.1, r.2)
      | e :: s => (backslash e).map fun x => (some x, s)
    else if c.toNat < 32 then none
    else some (some c, s)

/-- `scanstring`, past the opening quote; a character takes at least one step of the text. -/
def scanString : ℕ → Str → Option (Str × Str)
  | 0, _ => none
  | n + 1, s =>
    match character s with
    | none => none
    | some (none, t) => some ([], t)
    | some (some c, t) => (scanString n t).map fun r => (c :: r.1, r.2)

/-- `-?(?:0|[1-9]\d*)`. -/
def matchWhole (s : Str) : Option (Str × Str) :=
  match s with
  | '-' :: s => (natural s).map fun r => ('-' :: r.1, r.2)
  | _ => natural s
where
  natural : Str → Option (Str × Str)
    | '0' :: s => some (['0'], s)
    | c :: s =>
      if isDigit c then some (c :: s.takeWhile isDigit, s.dropWhile isDigit) else none
    | [] => none

/-- `(\.\d+)?`. -/
def matchFraction (s : Str) : Str × Str :=
  match s with
  | '.' :: c :: s =>
    if isDigit c then ('.' :: c :: s.takeWhile isDigit, s.dropWhile isDigit) else ([], '.' :: c :: s)
  | _ => ([], s)

/-- `[-+]?`. -/
def matchSign (s : Str) : Str × Str :=
  match s with
  | '-' :: s => (['-'], s)
  | '+' :: s => (['+'], s)
  | _ => ([], s)

/-- `([eE][-+]?\d+)?`. -/
def matchExponent (s : Str) : Str × Str :=
  match s with
  | e :: t =>
    if e = 'e' ∨ e = 'E' then
      let digits := (matchSign t).2
      if (digits.takeWhile isDigit).isEmpty then ([], s)
      else (e :: (matchSign t).1 ++ digits.takeWhile isDigit, digits.dropWhile isDigit)
    else ([], s)
  | [] => ([], s)

/-- A numeral's three parts, and what follows it. -/
def matchNumber (s : Str) : Option (Str × Str × Str × Str) := do
  let (whole, s) ← matchWhole s
  let (fraction, s) := matchFraction s
  let (exponent, s) := matchExponent s
  return (whole, fraction, exponent, s)

/-- How the reader turns numerals into numbers: the limit `int` has on digits, and what `dumps`
writes for the float that a numeral denotes. -/
structure Numbers where
  intLimit : Option ℕ
  floatRepr : Str → Str

variable (num : Numbers)

def ofNumeral (whole fraction exponent : Str) : Option Json :=
  if fraction = [] ∧ exponent = [] then (Py.int num.intLimit whole).map .int
  else some (.float (num.floatRepr (whole ++ fraction ++ exponent)))

/-- `null`, `true`, `false`, and the floats that have no numeral. -/
def constants : List (Str × Json) := [
  ("null".toList, .null),
  ("true".toList, .bool true),
  ("false".toList, .bool false),
  ("NaN".toList, .float "NaN".toList),
  ("Infinity".toList, .float "Infinity".toList),
  ("-Infinity".toList, .float "-Infinity".toList)]

def scanConstant (s : Str) : Option (Json × Str) :=
  (constants.find? fun e => e.1.isPrefixOf s).map fun e => (e.2, s.drop e.1.length)

def scanNumber (s : Str) : Option (Json × Str) := do
  let (whole, fraction, exponent, s) ← matchNumber s
  let v ← ofNumeral num whole fraction exponent
  return (v, s)

/-- `dict(pairs)`. -/
def dictOf (pairs : List (Str × Json)) : List (Str × Json) :=
  pairs.foldl (fun items e => setItem e.1 e.2 items) []

mutual
/-- `scan_once`; the first argument bounds the calls that are open. -/
def scanOnce : ℕ → Str → Option (Json × Str)
  | 0, _ => none
  | n + 1, s =>
    match s with
    | '"' :: s => (scanString (s.length + 1) s).map fun r => (.str r.1, r.2)
    | '[' :: s =>
      match skipBlanks s with
      | ']' :: s => some (.arr [], s)
      | s => (jsonArray n s).map fun r => (.arr r.1, r.2)
    | '\x7b' :: s =>
      match skipBlanks s with
      | '\x7d' :: s => some (.obj [], s)
      | s => (jsonObject n s).map fun r => (.obj (dictOf r.1), r.2)
    | s =>
      match scanConstant s with
      | some r => some r
      | none => scanNumber num s

/-- `JSONArray`, from an item on. -/
def jsonArray : ℕ → Str → Option (List Json × Str)
  | 0, _ => none
  | n + 1, s =>
    match scanOnce n s with
    | none => none
    | some (v, s) =>
      match skipBlanks s with
      | ']' :: s => some ([v], s)
      | ',' :: s => (jsonArray n (skipBlanks s)).map fun r => (v :: r.1, r.2)
      | _ => none

/-- `JSONObject`, from a key on. -/
def jsonObject : ℕ → Str → Option (List (Str × Json) × Str)
  | 0, _ => none
  | n + 1, s =>
    match s with
    | '"' :: s =>
      match scanString (s.length + 1) s with
      | none => none
      | some (k, s) =>
        match skipBlanks s with
        | ':' :: s =>
          match scanOnce n (skipBlanks s) with
          | none => none
          | some (v, s) =>
            match skipBlanks s with
            | '\x7d' :: s => some ([(k, v)], s)
            | ',' :: s => (jsonObject n (skipBlanks s)).map fun r => ((k, v) :: r.1, r.2)
            | _ => none
        | _ => none
    | _ => none
end

/-- `json.loads` on a text; `none` is any of its errors. -/
def loadsText (s : Str) : Option Json :=
  match scanOnce num (s.length + 1) (skipBlanks s) with
  | some (v, rest) => if skipBlanks rest = [] then some v else none
  | none => none

end Py.Json
