import FluxRest.Handler

/-! How `do_POST` reads a request body: by the length it announces, the bytes that arrive and
what `json.loads` makes of them. -/
namespace FluxRest
open Py Py.Http

variable (site : Site)

/-- The length `int` reads from `Content-Length`, where it is one `do_POST` goes on with. -/
def announced (req : Request) : Option ℕ :=
  match int site.intLimit ((req.header "Content-Length".toList).getD ['0']) with
  | some (.ofNat n) => if n ≤ MAX_BODY_SIZE then some n else none
  | _ => none

/-- The bytes handed to `json.loads` when `n` were announced. -/
def rawBody (req : Request) (n : ℕ) : Bytes :=
  if n = 0 then encode "\x7b\x7d".toList else req.body.take n

/-- The client neither sends the announced bytes nor closes its side. -/
def Stalls (req : Request) (n : ℕ) : Prop := req.body.length < n ∧ req.halfCloses = false

instance (req : Request) (n : ℕ) : Decidable (Stalls req n) := instDecidableAnd

/-- The reply to a body `do_POST` will not pass on. -/
def Framed.Refused (f : Framed) : Prop := ∃ message, f = .refused (.error 400 message)

theorem read_of_not_stalls {req : Request} {n : ℕ} (h : ¬ Stalls req n) :
    req.read n = .ok (req.body.take n) := by
  unfold Request.read
  split_ifs with hn hc
  · rfl
  · rw [List.take_of_length_le (by omega)]
  · exact absurd ⟨by omega, by simpa using hc⟩ h

theorem read_of_stalls {req : Request} {n : ℕ} (h : Stalls req n) :
    req.read n = .error (.ofClass .timeoutError "timed out".toList) := by
  obtain ⟨hn, hc⟩ := h
  unfold Request.read
  rw [if_neg (by omega), if_neg (by simp [hc])]

/-- A length that does not parse, is negative or too large is refused. -/
theorem readBody_of_announced_none {req : Request} (h : announced site req = none) :
    ∃ f, readBody site req = .ok f ∧ f.Refused := by
  unfold announced at h
  unfold readBody
  rcases hint : int site.intLimit ((req.header "Content-Length".toList).getD ['0']) with _ | length
  · exact ⟨_, rfl, _, rfl⟩
  · rw [hint] at h
    cases length with
    | ofNat n =>
      have hn : MAX_BODY_SIZE < n := by
        by_contra hle
        simp [Nat.le_of_not_lt hle] at h
      dsimp only
      rw [if_neg (by simp), if_pos (by simpa using hn)]
      exact ⟨_, rfl, _, rfl⟩
    | negSucc n =>
      dsimp only
      rw [if_pos (Int.negSucc_lt_zero n)]
      exact ⟨_, rfl, _, rfl⟩

theorem readBody_of_announced {req : Request} {n : ℕ} (h : announced site req = some n) :
    readBody site req =
      match rawOf req n with
      | .error err =>
        if err.isA .jsonDecodeError || err.isA .valueError then .ok malformed else .error err
      | .ok raw => loadBody site raw := by
  unfold announced at h
  unfold readBody
  rcases hint : int site.intLimit ((req.header "Content-Length".toList).getD ['0']) with _ | length
  · rw [hint] at h
    cases h
  · rw [hint] at h
    cases length with
    | ofNat m =>
      dsimp only at h
      split_ifs at h with hm
      cases h
      dsimp only
      rw [if_neg (by simp), if_neg (by simpa using hm)]
      rfl
    | negSucc m => cases h

/-- Once the bytes are there, everything hangs on `json.loads`. -/
theorem readBody_of_arrives {req : Request} {n : ℕ} (h : announced site req = some n)
    (hs : ¬ Stalls req n) : readBody site req = loadBody site (rawBody req n) := by
  have hraw : rawOf req n = .ok (rawBody req n) := by
    unfold rawOf rawBody
    by_cases hn : n = 0
    · rw [if_neg (not_not.mpr hn), if_pos hn]
    · rw [if_pos hn, if_neg hn, read_of_not_stalls hs]
  rw [readBody_of_announced site h, hraw]

theorem readBody_of_stalls {req : Request} {n : ℕ} (h : announced site req = some n)
    (hs : Stalls req n) :
    readBody site req = .error (.ofClass .timeoutError "timed out".toList) := by
  have hn : n ≠ 0 := fun h0 => by simp [Stalls, h0] at hs
  have hraw : rawOf req n = .error (.ofClass .timeoutError "timed out".toList) := by
    rw [rawOf, if_pos hn, read_of_stalls hs]
  rw [readBody_of_announced site h, hraw]
  rfl

theorem loadBody_of_recursionError {raw : Bytes} {m : Str}
    (h : site.loads raw = .error (.recursionError m)) :
    loadBody site raw = .error (.ofClass .recursionError m) := by
  simp only [loadBody, h]
  rfl

theorem loadBody_of_obj {raw : Bytes} {fields : List (Str × Json)}
    (h : site.loads raw = .ok (.obj fields)) : loadBody site raw = .ok (.body fields) := by
  simp only [loadBody, h]

/-- Everything else `json.loads` can do is answered 400. -/
theorem loadBody_refused {raw : Bytes} (hr : ∀ m, site.loads raw ≠ .error (.recursionError m))
    (ho : ∀ fields, site.loads raw ≠ .ok (.obj fields)) :
    ∃ f, loadBody site raw = .ok f ∧ f.Refused := by
  unfold loadBody
  cases hl : site.loads raw with
  | error err =>
    cases err with
    | jsonDecodeError m => exact ⟨malformed, rfl, _, rfl⟩
    | valueError m => exact ⟨malformed, rfl, _, rfl⟩
    | recursionError m => exact absurd hl (hr m)
  | ok v =>
    cases v with
    | obj fields => exact absurd hl (ho fields)
    | _ => exact ⟨_, rfl, _, rfl⟩

/-- The bodies `do_POST` neither passes on nor answers: the client stalls, or the JSON nests
too deep for `json.loads`. -/
def Unreadable (req : Request) : Prop :=
  ∃ n, announced site req = some n ∧
    (Stalls req n ∨ ∃ m, site.loads (rawBody req n) = .error (.recursionError m))

theorem readBody_error_iff (req : Request) :
    (∃ err, readBody site req = .error err) ↔ Unreadable site req := by
  constructor
  · rintro ⟨err, he⟩
    cases ha : announced site req with
    | none =>
      obtain ⟨f, hf, -⟩ := readBody_of_announced_none site ha
      rw [hf] at he
      cases he
    | some n =>
      refine ⟨n, ha, ?_⟩
      by_cases hs : Stalls req n
      · exact Or.inl hs
      · right
        rw [readBody_of_arrives site ha hs] at he
        by_contra hr
        push Not at hr
        by_cases ho : ∃ fields, site.loads (rawBody req n) = .ok (.obj fields)
        · obtain ⟨fields, ho⟩ := ho
          rw [loadBody_of_obj site ho] at he
          cases he
        · push Not at ho
          obtain ⟨f, hf, -⟩ := loadBody_refused site hr ho
          rw [hf] at he
          cases he
  · rintro ⟨n, ha, hs | ⟨m, hm⟩⟩
    · exact ⟨_, readBody_of_stalls site ha hs⟩
    · by_cases hs : Stalls req n
      · exact ⟨_, readBody_of_stalls site ha hs⟩
      · exact ⟨_, (readBody_of_arrives site ha hs).trans (loadBody_of_recursionError site hm)⟩

theorem readBody_refused_plain {req : Request} {reply : Reply}
    (h : readBody site req = .ok (.refused reply)) : ∃ message, reply = .error 400 message := by
  cases ha : announced site req with
  | none =>
    obtain ⟨f, hf, message, rfl⟩ := readBody_of_announced_none site ha
    rw [hf] at h
    cases h
    exact ⟨message, rfl⟩
  | some n =>
    by_cases hs : Stalls req n
    · rw [readBody_of_stalls site ha hs] at h
      cases h
    · rw [readBody_of_arrives site ha hs] at h
      by_cases hr : ∃ m, site.loads (rawBody req n) = .error (.recursionError m)
      · obtain ⟨m, hm⟩ := hr
        rw [loadBody_of_recursionError site hm] at h
        cases h
      · by_cases ho : ∃ fields, site.loads (rawBody req n) = .ok (.obj fields)
        · obtain ⟨fields, ho⟩ := ho
          rw [loadBody_of_obj site ho] at h
          cases h
        · push Not at hr ho
          obtain ⟨f, hf, message, rfl⟩ := loadBody_refused site hr ho
          rw [hf] at h
          cases h
          exact ⟨message, rfl⟩

end FluxRest
