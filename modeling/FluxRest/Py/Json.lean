import FluxRest.Py.Exc

/-! JSON values as `json.loads` builds them, and the text `json.dumps` writes. -/
namespace Py

/-- A decoded JSON value; a float is kept as its `repr`, an object as its items in order. -/
inductive Json where
  | null
  | bool (b : Bool)
  | int (i : ℤ)
  | float (repr : Str)
  | str (s : Str)
  | arr (items : List Json)
  | obj (fields : List (Str × Json))

namespace Json

def isNull : Json → Bool
  | null => true
  | _ => false

def str? : Json → Option Str
  | str s => some s
  | _ => none

private def hexDigit (n : ℕ) : Char := Char.ofNat (if n < 10 then 48 + n else 87 + n)

private def unicodeEscape (n : ℕ) : Str :=
  "\\u".toList ++ [hexDigit (n / 4096 % 16), hexDigit (n / 256 % 16), hexDigit (n / 16 % 16),
    hexDigit (n % 16)]

/-- One character inside a JSON string, under `ensure_ascii`. -/
def escapeChar (c : Char) : Str :=
  let n := c.toNat
  if c = '"' then ['\\', '"']
  else if c = '\\' then ['\\', '\\']
  else if 32 ≤ n ∧ n ≤ 126 then [c]
  else if n = 10 then "\\n".toList
  else if n = 13 then "\\r".toList
  else if n = 9 then "\\t".toList
  else if n = 8 then "\\b".toList
  else if n = 12 then "\\f".toList
  else if n < 0x10000 then unicodeEscape n
  else unicodeEscape (0xd800 + (n - 0x10000) / 1024) ++
    unicodeEscape (0xdc00 + (n - 0x10000) % 1024)

def quote (s : Str) : Str := '"' :: s.flatMap escapeChar ++ ['"']

mutual
/-- `json.dumps(v)`. -/
def dumps : Json → Str
  | null => "null".toList
  | bool b => if b then "true".toList else "false".toList
  | int i => intStr i
  | float r => r
  | str s => quote s
  | arr items => '[' :: dumpsItems items
  | obj fields => '{' :: dumpsFields fields

def dumpsItems : List Json → Str
  | [] => [']']
  | [v] => dumps v ++ [']']
  | v :: w :: rest => dumps v ++ ", ".toList ++ dumpsItems (w :: rest)

def dumpsFields : List (Str × Json) → Str
  | [] => ['}']
  | [(k, v)] => quote k ++ ": ".toList ++ dumps v ++ ['}']
  | (k, v) :: w :: rest => quote k ++ ": ".toList ++ dumps v ++ ", ".toList ++ dumpsFields (w :: rest)
end

example : dumps (obj [("error".toList, str "no \"é\"\n".toList), ("n".toList, arr [int (-3), null])])
    = "\x7b\"error\": \"no \\\"\\u00e9\\\"\\n\", \"n\": [-3, null]\x7d".toList := by decide

end Json

/-- `d.get(k)` on the items of a dict. -/
def lookup {α : Type} (k : Str) (items : List (Str × α)) : Option α :=
  (items.find? (·.1 = k)).map Prod.snd

theorem mem_of_lookup {α : Type} {k : Str} {v : α} {items : List (Str × α)}
    (h : lookup k items = some v) : (k, v) ∈ items := by
  simp only [lookup, Option.map_eq_some_iff] at h
  obtain ⟨⟨k', v'⟩, hfind, rfl⟩ := h
  have hk : k' = k := by simpa using List.find?_some hfind
  exact hk ▸ List.mem_of_find?_eq_some hfind

theorem isSome_lookup {α : Type} {k : Str} {items : List (Str × α)} :
    (lookup k items).isSome = true ↔ k ∈ items.map Prod.fst := by
  simp [lookup]

/-- `d.setdefault(k, v)`. -/
def setDefault {α : Type} (k : Str) (v : α) (items : List (Str × α)) : List (Str × α) :=
  if items.any (·.1 = k) then items else items ++ [(k, v)]

/-- `d[k] = v`. -/
def setItem {α : Type} (k : Str) (v : α) (items : List (Str × α)) : List (Str × α) :=
  if items.any (·.1 = k) then items.map fun e => if e.1 = k then (k, v) else e
  else items ++ [(k, v)]

/-- `d.pop(k, None)`. -/
def popItem {α : Type} (k : Str) (items : List (Str × α)) : List (Str × α) :=
  items.filter (·.1 ≠ k)

/-- How `json.loads` fails. -/
inductive LoadsError where
  | jsonDecodeError (message : Str)
  | valueError (message : Str)
  | recursionError (message : Str)
  deriving DecidableEq

def LoadsError.exc : LoadsError → Exc
  | jsonDecodeError m => .ofClass .jsonDecodeError m
  | valueError m => .ofClass .valueError m
  | recursionError m => .ofClass .recursionError m

end Py
