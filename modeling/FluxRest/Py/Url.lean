import FluxRest.Py.Text

/-! `urllib.parse`: percent-decoding, `urlsplit` and `parse_qs`. -/
namespace Py

/-- The replacement character a decoding error leaves behind. -/
def replacement : Char := Char.ofNat 0xfffd

def isContinuation (b : UInt8) : Bool := 0x80 ≤ b && b ≤ 0xbf

/-- The second bytes a three-byte sequence may have. -/
def isSecondOfThree (a b : UInt8) : Bool :=
  isContinuation b && (a != 0xe0 || 0xa0 ≤ b) && (a != 0xed || b ≤ 0x9f)

/-- The second bytes a four-byte sequence may have. -/
def isSecondOfFour (a b : UInt8) : Bool :=
  isContinuation b && (a != 0xf0 || 0x90 ≤ b) && (a != 0xf4 || b ≤ 0x8f)

/-- `bs.decode("utf-8", "replace")`: a maximal ill-formed run yields one replacement. -/
def decode : Bytes → Str
  | [] => []
  | a :: rest =>
    if a < 0x80 then Char.ofNat a.toNat :: decode rest
    else if 0xc2 ≤ a && a ≤ 0xdf then
      match rest with
      | [] => [replacement]
      | b :: rest =>
        if isContinuation b then
          Char.ofNat ((a.toNat - 0xc0) * 64 + (b.toNat - 0x80)) :: decode rest
        else replacement :: decode (b :: rest)
    else if 0xe0 ≤ a && a ≤ 0xef then
      match rest with
      | [] => [replacement]
      | b :: rest =>
        if isSecondOfThree a b then
          match rest with
          | [] => [replacement]
          | c :: rest =>
            if isContinuation c then
              Char.ofNat ((a.toNat - 0xe0) * 4096 + (b.toNat - 0x80) * 64 + (c.toNat - 0x80)) ::
                decode rest
            else replacement :: decode (c :: rest)
        else replacement :: decode (b :: rest)
    else if 0xf0 ≤ a && a ≤ 0xf4 then
      match rest with
      | [] => [replacement]
      | b :: rest =>
        if isSecondOfFour a b then
          match rest with
          | [] => [replacement]
          | c :: rest =>
            if isContinuation c then
              match rest with
              | [] => [replacement]
              | d :: rest =>
                if isContinuation d then
                  Char.ofNat ((a.toNat - 0xf0) * 262144 + (b.toNat - 0x80) * 4096 +
                    (c.toNat - 0x80) * 64 + (d.toNat - 0x80)) :: decode rest
                else replacement :: decode (d :: rest)
            else replacement :: decode (c :: rest)
        else replacement :: decode (b :: rest)
    else replacement :: decode rest

def hexValue (c : Char) : Option ℕ :=
  let n := c.toNat
  if 48 ≤ n ∧ n ≤ 57 then some (n - 48)
  else if 65 ≤ n ∧ n ≤ 70 then some (n - 55)
  else if 97 ≤ n ∧ n ≤ 102 then some (n - 87)
  else none

/-- `unquote_to_bytes(s)` on ASCII text. -/
def unquoteToBytes : Str → Bytes
  | [] => []
  | '%' :: a :: b :: s =>
    match hexValue a, hexValue b with
    | some x, some y => UInt8.ofNat (16 * x + y) :: unquoteToBytes s
    | _, _ => 0x25 :: unquoteToBytes (a :: b :: s)
  | c :: s => UInt8.ofNat c.toNat :: unquoteToBytes s

/-- The alternation of ASCII runs, decoded, and other characters, kept; `run` is the ASCII run
read so far, latest character first. -/
def unquoteRuns : Str → Str → Str
  | run, [] => decode (unquoteToBytes run.reverse)
  | run, c :: s =>
    if c.toNat < 128 then unquoteRuns (c :: run) s
    else decode (unquoteToBytes run.reverse) ++ c :: unquoteRuns [] s

/-- `unquote(s)`. -/
def unquote (s : Str) : Str := if '%' ∈ s then unquoteRuns [] s else s

/-- `unquote_plus(s)`. -/
def unquotePlus (s : Str) : Str := unquote (s.map fun c => if c = '+' then ' ' else c)

example : unquote "a%2Fb%C3%A9%ff%zz".toList = "a/bé\ufffd%zz".toList := by decide +kernel

/-- `parse_qsl(qs)`: fields without a value are dropped. -/
def parseQsl (qs : Str) : List (Str × Str) :=
  (split '&' qs).filterMap fun field =>
    if after '=' field = [] then none
    else some (unquotePlus (before '=' field), unquotePlus (after '=' field))

/-- `parse_qs(qs).get(name, [None])[0]`. -/
def parseQsFirst (name qs : Str) : Option Str :=
  ((parseQsl qs).find? (·.1 = name)).map Prod.snd

/-- C0 controls and the blank. -/
def isC0OrSpace (c : Char) : Bool := c.toNat ≤ 32

def isUnsafe (c : Char) : Bool := c = '\t' || c = '\r' || c = '\n'

theorem isSpace_of_isUnsafe {c : Char} (h : isUnsafe c = true) : isSpace c = true := by
  simp only [isUnsafe, Bool.or_eq_true, decide_eq_true_eq] at h
  rcases h with (rfl | rfl) | rfl <;> rfl

def isAsciiAlpha (c : Char) : Bool :=
  ('a'.toNat ≤ c.toNat && c.toNat ≤ 'z'.toNat) || ('A'.toNat ≤ c.toNat && c.toNat ≤ 'Z'.toNat)

def isSchemeChar (c : Char) : Bool :=
  isAsciiAlpha c || isDigit c || c = '+' || c = '-' || c = '.'

structure SplitResult where
  scheme : Str
  netloc : Str
  path : Str
  query : Str
  fragment : Str
  deriving DecidableEq

/-- The scheme and what follows it, where the text before the first `:` can be a scheme. -/
def splitScheme (url : Str) : Str × Str :=
  let s := before ':' url
  if ':' ∈ url ∧ s.head?.any isAsciiAlpha ∧ s.all isSchemeChar then (lower s, after ':' url)
  else ([], url)

/-- The authority and what follows it, where the text starts with `//`. -/
def splitNetloc : Str → Str × Str
  | '/' :: '/' :: url =>
    let delim := fun c => c = '/' || c = '?' || c = '#'
    (url.takeWhile (!delim ·), url.dropWhile (!delim ·))
  | url => ([], url)

/-- `urlsplit(url)`; an error is the text of its `ValueError`. `hostError` is what the
interpreter at hand has against a non-empty authority whose brackets match. -/
def urlsplit (hostError : Str → Option Str) (url : Str) : Except Str SplitResult :=
  let url := (url.dropWhile isC0OrSpace).filter (!isUnsafe ·)
  let (scheme, url) := splitScheme url
  let (netloc, url) := splitNetloc url
  if netloc.contains '[' != netloc.contains ']' then .error "Invalid IPv6 URL".toList
  else match if netloc = [] then none else hostError netloc with
    | some message => .error message
    | none =>
      let fragment := after '#' url
      let url := before '#' url
      .ok ⟨scheme, netloc, before '?' url, after '?' url, fragment⟩

example : (urlsplit (fun _ => none) "http://h:1/a/b?q=1#f".toList).toOption =
    some ⟨"http".toList, "h:1".toList, "/a/b".toList, "q=1".toList, "f".toList⟩ := by decide +kernel

theorem splitScheme_of_not_alpha {c : Char} (hc : isAsciiAlpha c = false) (s : Str) :
    splitScheme (c :: s) = ([], c :: s) := by
  simp only [splitScheme]
  rw [if_neg]
  rintro ⟨-, hh, -⟩
  by_cases hcol : c = ':'
  · subst c; simp [before] at hh
  · simp [before, hcol, hc] at hh

/-- On a target that starts with a single slash, `urlsplit` only cuts off a fragment and a
query, after dropping the characters it never keeps. -/
theorem urlsplit_of_rooted (hostError : Str → Option Str) {url : Str} {c : Char} {s : Str}
    (hu : (url.dropWhile isC0OrSpace).filter (!isUnsafe ·) = '/' :: c :: s) (hc : c ≠ '/') :
    urlsplit hostError url = .ok ⟨[], [], before '?' (before '#' ('/' :: c :: s)),
      after '?' (before '#' ('/' :: c :: s)), after '#' ('/' :: c :: s)⟩ := by
  have hn : splitNetloc ('/' :: c :: s) = ([], '/' :: c :: s) := by
    unfold splitNetloc
    split
    · simp_all
    · rfl
  simp only [urlsplit, hu, splitScheme_of_not_alpha (c := '/') (by decide), hn]
  rfl

end Py
