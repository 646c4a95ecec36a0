import FluxRest.Trace
import FluxRest.Body

/-! Which request bodies reach `_jobs_submit`, and which of them are framed as HTTP has it. -/
namespace FluxRest
open Py Py.Http

variable {F : Flux} (site : Site)

/-- The length a message announces: none at all, or ASCII digits between blanks. -/
def framedLength (req : Request) : Option ℕ :=
  match req.header "Content-Length".toList with
  | none => some 0
  | some v =>
    let text := intStrip v
    if text ≠ [] ∧ text.all isDigit then some (digitsValue 0 text) else none

/-- The body is framed by its length, has arrived, and decodes to the object `fields`. -/
def WellFramed (req : Request) (fields : List (Str × Json)) : Prop :=
  ∃ n, framedLength req = some n ∧ n ≤ MAX_BODY_SIZE ∧ n ≤ req.body.length ∧
    site.loads (rawBody req n) = .ok (.obj fields)

/-- `_jobs_submit` only gets well-framed bodies, and any other request is answered 400 before
Flux is asked anything. -/
structure FramingRespected (req : Request) (w : World F) : Prop where
  submitted : ∀ key fields, .post key fields ∈
    ran (doPOST F site (tables F site) req) w → WellFramed site req fields
  refused : (¬ ∃ fields, WellFramed site req fields) →
    status (doPOST F site (tables F site) req) w = some 400 ∧
      called (doPOST F site (tables F site) req) w = []

theorem int_of_digits {limit : Option ℕ} {v : Str} {z : ℤ} (hne : intStrip v ≠ [])
    (hd : (intStrip v).all isDigit) (h : int limit v = some z) :
    z = digitsValue 0 (intStrip v) := by
  unfold int at h
  obtain ⟨c, cs, hc⟩ := List.exists_cons_of_ne_nil hne
  have hd' := hd
  rw [hc] at h hd'
  simp only [List.all_cons, Bool.and_eq_true] at hd'
  have hsign : intSign (c :: cs) = (false, c :: cs) := by
    unfold intSign
    split
    · rename_i heq
      cases heq
      exact absurd hd'.1 (by decide)
    · rename_i heq
      cases heq
      exact absurd hd'.1 (by decide)
    · rfl
  have hvalue : intDigits false 0 (c :: cs) = some (digitsValue 0 (c :: cs)) := by
    rw [intDigits, if_pos hd'.1, intDigits_of_digits hd'.2]
    rfl
  simp only [hsign, hvalue, Bool.false_eq_true, if_false] at h
  split_ifs at h
  rw [hc]
  exact (Option.some.inj h).symm

/-- Where a length is framed, `int` does not read another one. -/
theorem framedLength_eq_announced {req : Request} {m n : ℕ} (hf : framedLength req = some m)
    (ha : announced site req = some n) : m = n := by
  unfold announced at ha
  unfold framedLength at hf
  cases hh : req.header "Content-Length".toList with
  | none =>
    rw [hh] at ha hf
    have hzero : ∀ limit, int limit ['0'] = some 0 ∨ int limit ['0'] = none := by
      rintro (_ | k)
      · exact Or.inl rfl
      · cases k with
        | zero => exact Or.inr rfl
        | succ k =>
          left
          simp only [int, show intStrip ['0'] = ['0'] from rfl, show intSign ['0'] = (false, ['0']) from rfl]
          rw [if_neg (by simp [show isDigit '0' = true from rfl])]
          rfl
    rcases hzero site.intLimit with hz | hz <;>
      simp only [Option.getD_none, hz] at ha
    · cases hf
      split_ifs at ha
      exact Option.some.inj ha
    · cases ha
  | some v =>
    rw [hh] at ha hf
    dsimp only at hf
    split_ifs at hf with htext
    simp only [Option.getD_some] at ha
    cases hint : int site.intLimit v with
    | none =>
      rw [hint] at ha
      cases ha
    | some z =>
      have hz := int_of_digits htext.1 htext.2 hint
      rw [hint, hz] at ha
      dsimp only at ha
      split_ifs at ha
      cases hf
      exact Option.some.inj ha

section Post

variable {req : Request} (hpath : before '?' req.path = PREFIX ++ "/jobs".toList)
include hpath

theorem doPOST_of_error {err : Exc} (h : readBody site req = .error err) :
    doPOST F site (tables F site) req = throw err := by
  unfold doPOST
  dsimp only
  rw [hpath, tables_postRoutes_jobs]
  dsimp only
  rw [h]

theorem doPOST_of_refused {reply : Reply} (h : readBody site req = .ok (.refused reply)) :
    doPOST F site (tables F site) req = send F site req reply := by
  unfold doPOST
  dsimp only
  rw [hpath, tables_postRoutes_jobs]
  dsimp only
  rw [h]

theorem doPOST_of_body {fields : List (Str × Json)} (h : readBody site req = .ok (.body fields)) :
    doPOST F site (tables F site) req = (do
      send F site req (← guardRoute F (PREFIX ++ "/jobs".toList)
        (.post (PREFIX ++ "/jobs".toList) fields) (jobsSubmit F site fields))) := by
  unfold doPOST
  dsimp only
  rw [hpath, tables_postRoutes_jobs]
  dsimp only
  rw [h]

theorem ran_doPOST_of_body {fields : List (Str × Json)}
    (h : readBody site req = .ok (.body fields)) (w : World F) :
    ran (doPOST F site (tables F site) req) w =
      [.post (PREFIX ++ "/jobs".toList) fields] := by
  rw [doPOST_of_body site hpath h]
  exact ran_guarded site req _ _ (keeps_jobsSubmit site ignoresCalls_routed fields) w

/-- A refused body is answered 400, and nothing else happens. -/
theorem framingRespected_of_refused (hv : req.http09 = false) {f : Framed}
    (h : readBody site req = .ok f) (hf : f.Refused) (w : World F) :
    FramingRespected site req w := by
  obtain ⟨message, rfl⟩ := hf
  constructor
  · intro key fields hmem
    rw [doPOST_of_refused site hpath h, ran_send] at hmem
    cases hmem
  · intro _
    rw [doPOST_of_refused site hpath h]
    exact ⟨status_send site hv (plain_of_none rfl) w, called_send site req _ w⟩

theorem framingRespected_of_body {fields : List (Str × Json)}
    (h : readBody site req = .ok (.body fields)) (w : World F) :
    FramingRespected site req w ↔ WellFramed site req fields := by
  have hran := ran_doPOST_of_body (F := F) site hpath h w
  constructor
  · intro hr
    exact hr.submitted (PREFIX ++ "/jobs".toList) fields (by rw [hran]; exact List.mem_singleton_self _)
  · intro hwf
    refine ⟨?_, fun hno => absurd ⟨fields, hwf⟩ hno⟩
    intro key fields' hmem
    rw [hran, List.mem_singleton] at hmem
    cases hmem
    exact hwf

theorem not_framingRespected_of_error {err : Exc} (h : readBody site req = .error err)
    (hno : ¬ ∃ fields, WellFramed site req fields) (w : World F) :
    ¬ FramingRespected site req w := by
  intro hr
  have hstatus := (hr.refused hno).1
  rw [doPOST_of_error site hpath h, status_eq_none rfl] at hstatus
  cases hstatus

end Post

/-- Whenever `int` reads a length `do_POST` goes on with: a body that decodes to an object has
its length spelled in digits and has arrived in full, and no body nests too deep to decode. -/
def LengthsTold (req : Request) : Prop :=
  ∀ n, announced site req = some n →
    (∀ fields, site.loads (rawBody req n) = .ok (.obj fields) →
      (framedLength req).isSome ∧ n ≤ req.body.length) ∧
    ∀ message, site.loads (rawBody req n) ≠ .error (.recursionError message)

/-- A framed body is the one `do_POST` would read. -/
theorem wellFramed_iff {req : Request} {n : ℕ} (ha : announced site req = some n)
    {fields : List (Str × Json)} : WellFramed site req fields ↔
      (framedLength req).isSome ∧ n ≤ req.body.length ∧
        site.loads (rawBody req n) = .ok (.obj fields) := by
  constructor
  · rintro ⟨m, hf, -, hbody, hload⟩
    obtain rfl := framedLength_eq_announced site hf ha
    exact ⟨Option.isSome_iff_exists.mpr ⟨m, hf⟩, hbody, hload⟩
  · rintro ⟨hsome, hbody, hload⟩
    obtain ⟨m, hf⟩ := Option.isSome_iff_exists.mp hsome
    obtain rfl := framedLength_eq_announced site hf ha
    refine ⟨m, hf, ?_, hbody, hload⟩
    unfold announced at ha
    split at ha
    · split_ifs at ha with hmax
      exact Option.some.inj ha ▸ hmax
    · cases ha

theorem framing_iff {req : Request} (hpath : before '?' req.path = PREFIX ++ "/jobs".toList)
    (hv : req.http09 = false) (hc : req.halfCloses = true) (w : World F) :
    FramingRespected site req w ↔ LengthsTold site req := by
  cases ha : announced site req with
  | none =>
    obtain ⟨f, hr, hf⟩ := readBody_of_announced_none site ha
    refine iff_of_true (framingRespected_of_refused site hpath hv hr hf w) ?_
    intro n hn
    rw [ha] at hn
    cases hn
  | some n =>
    have hs : ¬ Stalls req n := fun h => by simp [hc, Stalls] at h
    have hread := readBody_of_arrives site ha hs
    have honly : ∀ m, announced site req = some m → m = n := fun m hm =>
      Option.some.inj (hm.symm.trans ha)
    by_cases hdeep : ∃ message, site.loads (rawBody req n) = .error (.recursionError message)
    · obtain ⟨message, hdeep⟩ := hdeep
      have hno : ¬ ∃ fields, WellFramed site req fields := by
        rintro ⟨fields, hwf⟩
        have hload := ((wellFramed_iff site ha).mp hwf).2.2
        rw [hdeep] at hload
        cases hload
      refine iff_of_false (not_framingRespected_of_error site hpath
        (hread.trans (loadBody_of_recursionError site hdeep)) hno w) ?_
      exact fun h => (h n ha).2 message hdeep
    push Not at hdeep
    by_cases hobj : ∃ fields, site.loads (rawBody req n) = .ok (.obj fields)
    · obtain ⟨fields, hload⟩ := hobj
      rw [framingRespected_of_body site hpath (hread.trans (loadBody_of_obj site hload)),
        wellFramed_iff site ha]
      constructor
      · rintro ⟨hsome, hbody, -⟩ m hm
        obtain rfl := honly m hm
        exact ⟨fun _ _ => ⟨hsome, hbody⟩, hdeep⟩
      · intro h
        exact ⟨((h n ha).1 fields hload).1, ((h n ha).1 fields hload).2, hload⟩
    · push Not at hobj
      obtain ⟨f, hf, hrefused⟩ := loadBody_refused site hdeep hobj
      refine iff_of_true (framingRespected_of_refused site hpath hv (hread.trans hf) hrefused w) ?_
      intro m hm
      obtain rfl := honly m hm
      exact ⟨fun fields hload => absurd hload (hobj fields), hdeep⟩

/-- A submission whose length is spelled with a sign. -/
def signedLength : Request where
  command := "POST".toList
  path := "/api/v1/jobs".toList
  headers := [("Content-Length".toList, "+21".toList)]
  body := encode "\x7b\"command\": [\"true\"]\x7d".toList

theorem framing_signedLength :
    FramingRespected (F := .fixed {}) .fixed signedLength { flux := () } ↔
      LengthsTold .fixed signedLength :=
  framing_iff .fixed (by decide) rfl rfl _

/-- `Content-Length: +21` is no length, yet the job is submitted. -/
theorem signedLength_submitted :
    ¬ FramingRespected (F := .fixed {}) .fixed signedLength { flux := () } := by
  intro h
  have hran : ran (doPOST (.fixed {}) .fixed (tables (.fixed {}) .fixed) signedLength)
      { flux := () } = [.post "/api/v1/jobs".toList [("command".toList, .arr [.str "true".toList])]] := by
    rfl
  obtain ⟨n, hn, -⟩ := h.submitted _ _ (by rw [hran]; exact List.mem_singleton_self _)
  cases hn

end FluxRest
