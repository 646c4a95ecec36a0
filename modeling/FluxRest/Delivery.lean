import FluxRest.Client

/-! A job description on its way from a client to `from_command`. -/
namespace FluxRest
open Py Py.Http Py.Json

variable {F : Flux} {site : Site} {num : Numbers}

/-- The brackets that a text opens, within strings or not. -/
def opens (t : Str) : ℕ := t.countP fun c => c = '[' || c = '\x7b'

/-- `json.loads` reads what the scanner reads, where the text cannot nest deeper than `depth`. -/
def Site.ReadsJson (site : Site) (num : Numbers) (depth : ℕ) : Prop :=
  ∀ t v, loadsText num t = some v → opens t ≤ depth → site.loads (encode t) = .ok v

/-- A request that submits the job `fields`: the text `json.dumps` writes for it, with its length
in bytes. What the client sends after it does not matter. -/
structure Submits (req : Request) (fields : List (Str × Json)) : Prop where
  command : req.command = "POST".toList
  version : req.version ≠ none
  path : before '?' req.path = PREFIX ++ "/jobs".toList
  length : req.header "Content-Length".toList = some (natStr (encode (dumps (.obj fields))).length)
  body : encode (dumps (.obj fields)) <+: req.body

theorem encode_ne_nil {c : Char} {s : Str} : encode (c :: s) ≠ [] := by
  intro h
  have hdecode := decode_encode (c :: s)
  rw [h] at hdecode
  cases hdecode

/-- A submission that is not too large is read as what was meant. -/
theorem asks_submit {depth : ℕ} (hreads : site.ReadsJson num depth)
    (hlimit : ∀ k ∈ site.intLimit, 640 ≤ k) {req : Request} {fields : List (Str × Json)}
    (h : Submits req fields) (hfields : Holds num (.obj fields))
    (hsize : (encode (dumps (.obj fields))).length ≤ MAX_BODY_SIZE)
    (hdepth : opens (dumps (.obj fields)) ≤ depth) : (Op.submit fields : Op F).Asks site req := by
  have hread := loadsText_dumps (t := []) hfields rfl
  rw [List.append_nil] at hread
  have hloads := hreads _ _ hread hdepth
  have hne : (encode (dumps (.obj fields))).length ≠ 0 := by
    rw [dumps, ne_eq, List.length_eq_zero_iff]
    exact encode_ne_nil
  obtain ⟨more, hbody⟩ := h.body
  have hlength := h.length
  generalize encode (dumps (.obj fields)) = raw at hbody hne hsize hloads hlength
  have hfits : Fits site.intLimit raw.length := by
    intro k hk
    have hdigits : (natStr raw.length).length ≤ 7 := by
      refine (Nat.length_toDigits_le_iff (by decide) (by decide)).mpr ?_
      exact lt_of_le_of_lt hsize (by decide)
    exact le_trans hdigits (le_trans (by decide) (hlimit k hk))
  have hannounced : announced site req = some raw.length := by
    simp only [announced, hlength, Option.getD_some, int_natStr hfits]
    exact if_pos hsize
  have harrived : ¬ Stalls req raw.length := by
    rintro ⟨hshort, -⟩
    rw [← hbody, List.length_append] at hshort
    omega
  have hraw : rawBody req raw.length = raw := by
    rw [rawBody, if_neg hne, ← hbody, List.take_left]
  refine ⟨h.command, h.version, h.path, ?_⟩
  rw [readBody_of_arrives site hannounced harrived, hraw]
  exact loadBody_of_obj site hloads

/-- `from_command` is the first call of a submission, with what the body asks for. -/
theorem calls_fromCommand {fields : List (Str × Json)} {command : List Str} {pw : Passwd}
    (hcommand : commandOf fields = some command) (hpw : site.passwd = some pw) :
    Proc.Emits World.called
      (fun l _ => ∃ r rest, l = .fromCommand command (jobKwargs pw fields) r :: rest)
      (jobsSubmit F site fields) := by
  have hinvoke : Proc.Emits World.called
      (fun l _ => ∃ r, l = [.fromCommand command (jobKwargs pw fields) r])
      (invoke (.fromCommand command (jobKwargs pw fields)) (F.fromCommand command (jobKwargs pw fields))) := by
    intro w
    exact ⟨_, called_invoke _ _ w, _, rfl⟩
  have hsubmit : ∀ jobspec, Proc.Emits World.called (fun _ _ => True) (submitJob F jobspec) :=
    fun jobspec => (ends_submitJob fields jobspec).imp fun _ _ _ => trivial
  unfold jobsSubmit
  rw [hcommand, hpw]
  dsimp only
  refine .seq (P := fun l _ => ∃ r, l = [.fromCommand command (jobKwargs pw fields) r]) ?_
    (fun l err hl => ?_) fun l made hl => ?_
  · refine .tryCatch (P := fun l _ => ∃ r, l = [.fromCommand command (jobKwargs pw fields) r]) ?_
      (fun l a hl => hl) fun l err hl => ?_
    · refine hinvoke.seq (fun l err hl => hl) fun l a hl => .pure ?_
      rw [List.append_nil]
      exact hl
    · rw [Proc.map_ofExcept]
      refine .ofExcept ?_
      rw [List.append_nil]
      exact hl
  · obtain ⟨r, rfl⟩ := hl
    exact ⟨r, [], rfl⟩
  · obtain ⟨r, rfl⟩ := hl
    cases made with
    | inl reply => exact .pure ⟨r, [], rfl⟩
    | inr jobspec => exact (hsubmit jobspec).imp fun l' _ _ => ⟨r, l', rfl⟩

theorem called_submission {req : Request} {fields : List (Str × Json)}
    (hasks : (Op.submit fields : Op F).Asks site req) {command : List Str} {pw : Passwd}
    (hcommand : commandOf fields = some command) (hpw : site.passwd = some pw) (w : World F) :
    ∃ r rest, called (handleOneRequest F site (tables F site) req) w =
      .fromCommand command (jobKwargs pw fields) r :: rest := by
  obtain ⟨path, hhandle⟩ := Op.handle_of_asks site hasks
  rw [hhandle]
  exact emits_guarded site req path (Op.submit fields).call called_of_trace called_log_route
    (calls_fromCommand hcommand hpw) w

/-- A job that a client describes in JSON reaches the route, and `from_command`, as it was meant. -/
theorem submission_delivered {depth : ℕ} (hreads : site.ReadsJson num depth)
    (hlimit : ∀ k ∈ site.intLimit, 640 ≤ k) {req : Request} {fields : List (Str × Json)}
    (h : Submits req fields) (hfields : Holds num (.obj fields))
    (hsize : (encode (dumps (.obj fields))).length ≤ MAX_BODY_SIZE)
    (hdepth : opens (dumps (.obj fields)) ≤ depth) (w : World F) :
    ran (handleOneRequest F site (tables F site) req) w =
      [.post (PREFIX ++ "/jobs".toList) fields] ∧
    ∀ command pw, commandOf fields = some command → site.passwd = some pw → ∃ r rest,
      called (handleOneRequest F site (tables F site) req) w =
        .fromCommand command (jobKwargs pw fields) r :: rest := by
  have hasks : (Op.submit fields : Op F).Asks site req :=
    asks_submit hreads hlimit h hfields hsize hdepth
  refine ⟨(handled_of_asks site hasks w).1, ?_⟩
  intro command pw hcommand hpw
  exact called_submission hasks hcommand hpw w

/-- A site whose `json.loads` is the scanner. -/
def Site.scanning : Site :=
  { Site.fixed with
    loads := fun raw =>
      match loadsText numbers (decode raw) with
      | some v => .ok v
      | none => .error (.jsonDecodeError "Expecting value: line 1 column 1 (char 0)".toList)
    loads_empty := by
      rw [decode_encode]
      rfl }

theorem readsJson_scanning (depth : ℕ) : Site.scanning.ReadsJson numbers depth := by
  intro t v ht _
  simp only [Site.scanning, decode_encode, ht]

def sampleFields : List (Str × Json) :=
  [("command".toList, .arr [.str "sleep".toList, .str "60".toList]), ("num_tasks".toList, .int 2)]

/-- The job of `sampleFields`, submitted with bytes of another request behind it. -/
def sampleSubmission : Request where
  command := "POST".toList
  path := "/api/v1/jobs?dry".toList
  headers := [("content-length".toList, natStr (encode (dumps (.obj sampleFields))).length)]
  body := encode (dumps (.obj sampleFields)) ++ encode "GET / HTTP/1.1\r\n".toList

theorem submits_sample : Submits sampleSubmission sampleFields :=
  ⟨rfl, Option.some_ne_none _, by decide, rfl, List.prefix_append _ _⟩

theorem holds_sampleFields : Holds numbers (.obj sampleFields) := by
  have hkeys : ["command".toList, "num_tasks".toList].Nodup := by decide
  have hint : Fits numbers.intLimit (2 : ℤ).natAbs := by
    intro k hk
    cases hk
    decide
  rw [Holds]
  refine ⟨hkeys, ?_⟩
  simp only [sampleFields, HoldsFields, Holds, HoldsItems, hint, and_self]

theorem intLimit_scanning : ∀ k ∈ Site.scanning.intLimit, 640 ≤ k := by
  intro k hk
  cases hk
  decide

theorem submission_delivered_sample :
    ran (handleOneRequest (.fixed {}) .scanning (tables (.fixed {}) .scanning) sampleSubmission)
      { flux := () } = [.post (PREFIX ++ "/jobs".toList) sampleFields] ∧
    ∀ command pw, commandOf sampleFields = some command → Site.scanning.passwd = some pw → ∃ r rest,
      called (handleOneRequest (.fixed {}) .scanning (tables (.fixed {}) .scanning) sampleSubmission)
        { flux := () } = .fromCommand command (jobKwargs pw sampleFields) r :: rest :=
  submission_delivered (readsJson_scanning 16) intLimit_scanning submits_sample holds_sampleFields
    (by decide) (by decide) _

end FluxRest
