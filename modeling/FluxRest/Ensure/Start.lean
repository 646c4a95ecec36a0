import FluxRest.Ensure.Handler

/-! Which units the helper starts: exactly the one of a plain username. -/
namespace FluxRest.Ensure
open Py Py.Http

variable {interp : Interpreter} {call : Call} {run : List Str → Completed}

/-- The status of the response that `x` begins to write, if it writes one with a head. -/
def status (x : Proc State Unit) (s : State) : Option ℕ :=
  match ((x.run s).2.wire.drop s.wire.length).head? with
  | some (.head head) => some head.status
  | _ => none

theorem status_of_emits {P : List Wire → Except Exc Unit → Prop} {x : Proc State Unit}
    (hx : Proc.Emits State.wire P x) {code : Option ℕ}
    (h : ∀ l r, P l r → (match l.head? with | some (.head head) => some head.status | _ => none) = code)
    (s : State) : status x s = code := by
  obtain ⟨l, hl, hp⟩ := hx s
  rw [status, hl, List.drop_left]
  exact h l _ hp

/-! Nothing but `subprocess.run` runs a command. -/

theorem keeps_write (x : Wire) : Proc.Keeps State.commands (write call x) := by
  refine .bind (.modify fun _ => rfl) fun _ => ?_
  cases call.writeError with
  | some err => exact .throw err
  | none => exact .pure ()

theorem keeps_logError (format : Str) : Proc.Keeps State.commands (logError call format) :=
  .bind (.ofExcept _) fun _ => .modify fun _ => rfl

theorem keeps_sendHead (head : Head) : Proc.Keeps State.commands (sendHead call head) := by
  refine .bind (.modify fun _ => rfl) fun _ => ?_
  split_ifs
  · exact .pure ()
  · exact .bind (.ofExcept _) fun _ => keeps_write _

theorem keeps_sendError (code : ℕ) (message : Str) :
    Proc.Keeps State.commands (sendError interp call code message) :=
  .bind (.modify fun _ => rfl) fun _ => .bind (keeps_sendHead _) fun _ => keeps_write _

theorem keeps_unexpected (err : Exc) : Proc.Keeps State.commands (unexpected interp call err) :=
  .bind (keeps_logError _) fun _ => keeps_sendError _ _

theorem keeps_answer (unitName : Str) (returncode : ℤ) (stderr : Bytes) :
    Proc.Keeps State.commands (answer interp call unitName returncode stderr) := by
  unfold answer
  split_ifs
  · exact .bind (keeps_logError _) fun _ => keeps_sendError _ _
  · exact .bind (keeps_sendHead _) fun _ => keeps_write _

theorem keeps_completed (unitName : Str) (c : Completed) :
    Proc.Keeps State.commands (completed interp call unitName c) := by
  cases c with
  | timeoutExpired => exact keeps_sendError _ _
  | raised err => exact keeps_unexpected err
  | exited returncode stderr =>
    exact .tryCatch (keeps_answer unitName returncode stderr) fun err => keeps_unexpected err

/-! The three ways of `do_GET`. -/

theorem doGET_of_nil (h : remoteUser call = []) :
    doGET interp call run = sendError interp call 401 "No authenticated user".toList := by
  simp [doGET, h]

/-- After `strip`, the `$` of the pattern is the end of the text. -/
theorem isMatch_remoteUser :
    USERNAME_PATTERN.isMatch (remoteUser call) = true ↔ IsName (remoteUser call) := by
  rw [usernamePattern_iff, or_iff_left]
  rintro ⟨u, -, hu⟩
  have hspace : isSpace '\n' = false := isSpace_of_strip hu
  revert hspace
  decide

theorem doGET_of_invalid (hne : remoteUser call ≠ []) (h : ¬ IsName (remoteUser call)) :
    doGET interp call run =
      sendError interp call 403 ("Invalid username format: ".toList ++ remoteUser call) := by
  have hmatch : USERNAME_PATTERN.isMatch (remoteUser call) = false := by
    rwa [← Bool.not_eq_true, isMatch_remoteUser]
  simp [doGET, hne, hmatch]

theorem run_doGET_of_name (h : IsName (remoteUser call)) (s : State) :
    (doGET interp call run).run s =
      (completed interp call (socketUnit (remoteUser call)) (run (startCommand (remoteUser call)))).run
        { s with commands := s.commands ++ [startCommand (remoteUser call)] } := by
  have hmatch : USERNAME_PATTERN.isMatch (remoteUser call) = true := isMatch_remoteUser.mpr h
  unfold doGET
  rw [if_neg h.chars.1, hmatch, if_neg (by decide)]
  rfl

theorem commands_doGET_of_name (h : IsName (remoteUser call)) (s : State) :
    ((doGET interp call run).run s).2.commands = s.commands ++ [startCommand (remoteUser call)] := by
  rw [run_doGET_of_name h]
  exact keeps_completed _ _ _

theorem commands_doGET_of_invalid (h : ¬ IsName (remoteUser call)) (s : State) :
    ((doGET interp call run).run s).2.commands = s.commands := by
  by_cases hne : remoteUser call = []
  · rw [doGET_of_nil hne]
    exact keeps_sendError _ _ s
  · rw [doGET_of_invalid hne h]
    exact keeps_sendError _ _ s

theorem status_sendError (code : ℕ) {message : Str} (hl : isLatin1 message = true) (s : State) :
    status (sendError interp call code message) s = if call.http09 then none else some code := by
  cases hv : call.http09 with
  | true =>
    refine status_of_emits (bare_sendError hv code message) ?_ s
    intro l _ h
    cases l with
    | nil => rfl
    | cons x l =>
      obtain ⟨bs, rfl⟩ := h x List.mem_cons_self
      rfl
  | false =>
    refine status_of_emits (emits_sendError hv code hl) ?_ s
    intro l _ h
    simp [h.1, errorHead]

/-! `ensureDoGET` leaves out how an answer is written: it has the commands of the handler, and the
status of any response that the handler begins. -/

def Begins (code : ℕ) (l : List Wire) : Prop := ∀ head, l.head? = some (.head head) → head.status = code

theorem begins_append {code : ℕ} (l l' : List Wire) (h : Begins code l) (h' : Begins code l') :
    Begins code (l ++ l') := by
  intro head hhead
  cases l with
  | nil => exact h' head hhead
  | cons x l => exact h head hhead

theorem begins_of_bare {code : ℕ} {l : List Wire} (h : Bare l) : Begins code l := by
  intro head hhead
  obtain ⟨bs, hbs⟩ := h _ (List.mem_of_head? hhead)
  cases hbs

theorem status_of_begins {x : Proc State Unit} {code code' : ℕ} {s : State}
    (hx : Proc.Emits State.wire (fun l _ => Begins code l) x) (h : status x s = some code') :
    code' = code := by
  obtain ⟨l, hl, hbegins⟩ := hx s
  rw [status, hl, List.drop_left] at h
  split at h
  · rename_i head hhead
    rw [← Option.some.inj h]
    exact hbegins head hhead
  · cases h

theorem begins_sendError (code : ℕ) (message : Str) :
    Proc.Emits State.wire (fun l _ => Begins code l) (sendError interp call code message) := by
  cases hv : call.http09 with
  | true => exact (bare_sendError hv code message).imp fun l _ h => begins_of_bare h
  | false =>
    cases hl : isLatin1 message with
    | true =>
      refine (emits_sendError hv code hl).imp ?_
      intro l r h head hhead
      rw [h.1] at hhead
      cases hhead
      rfl
    | false =>
      refine (emits_sendError_refused hv code hl).imp ?_
      intro l r h head hhead
      rw [h.1] at hhead
      cases hhead

theorem begins_unexpected (err : Exc) :
    Proc.Emits State.wire (fun l _ => Begins 500 l) (unexpected interp call err) :=
  .append_seq begins_append ((bare_logError _).imp fun _ _ h => begins_of_bare h) fun _ =>
    begins_sendError _ _

theorem begins_ok (unitName : Str) (stderr : Bytes) : Proc.Emits State.wire
    (fun l _ => Begins 200 l) (completed interp call unitName (.exited 0 stderr)) := by
  cases hv : call.http09 with
  | true => exact (bare_completed hv unitName _).imp fun l _ h => begins_of_bare h
  | false =>
    have hreason : isLatin1 "OK".toList = true := by decide
    have hemits := emits_head_body hv (okHead interp) hreason (encode "OK\n".toList)
    simp only [completed, answer, ne_eq, not_true_eq_false, if_false]
    refine hemits.tryCatch ?_ ?_
    · intro l _ h head hhead
      rw [h.1] at hhead
      cases hhead
      rfl
    · intro l err h s
      -- the 200 has been begun, whatever is written after it
      have hunexpected : Proc.Emits State.wire (fun l _ => Begins 500 l) (unexpected interp call err) :=
        begins_unexpected err
      obtain ⟨l', hl', -⟩ := hunexpected s
      refine ⟨l', hl', ?_⟩
      intro head hhead
      rw [List.head?_append, h.1] at hhead
      cases hhead
      rfl

theorem begins_completed (unitName : Str) (c : Completed) : Proc.Emits State.wire
    (fun l _ => Begins (match c with
      | .timeoutExpired => 504
      | .raised _ => 500
      | .exited returncode _ => if returncode ≠ 0 then 500 else 200) l)
    (completed interp call unitName c) := by
  cases c with
  | timeoutExpired => exact begins_sendError _ _
  | raised err => exact begins_unexpected err
  | exited returncode stderr =>
    by_cases hcode : returncode = 0
    · subst hcode
      exact begins_ok unitName stderr
    · simp only [completed, answer, ne_eq, hcode, not_false_eq_true, if_true]
      refine .append_tryCatch begins_append ?_ begins_unexpected
      exact .append_seq begins_append ((bare_logError _).imp fun _ _ h => begins_of_bare h) fun _ =>
        begins_sendError _ _

/-- What the `try` statement answers. -/
theorem status_ensureDoGET (h : IsName (remoteUser call)) :
    (ensureDoGET run (call.header "X-Remote-User".toList)).status =
      match run (startCommand (remoteUser call)) with
      | .timeoutExpired => 504
      | .raised _ => 500
      | .exited returncode _ => if returncode ≠ 0 then 500 else 200 := by
  have hmatch : USERNAME_PATTERN.isMatch (remoteUser call) = true := isMatch_remoteUser.mpr h
  have huser : strip ((call.header "X-Remote-User".toList).getD []) = remoteUser call := rfl
  simp only [ensureDoGET, huser, h.chars.1, hmatch, if_false, Bool.not_true, Bool.false_eq_true]
  unfold startCommand
  cases run ["systemctl".toList, "start".toList, socketUnit (remoteUser call)] with
  | exited returncode stderr =>
    dsimp only
    split_ifs <;> rfl
  | timeoutExpired => rfl
  | raised err => rfl

theorem ensureDoGET_of_invalid (h : ¬ IsName (remoteUser call)) :
    (ensureDoGET run (call.header "X-Remote-User".toList)).commands = [] ∧
      (ensureDoGET run (call.header "X-Remote-User".toList)).status =
        if remoteUser call = [] then 401 else 403 := by
  have hmatch : USERNAME_PATTERN.isMatch (remoteUser call) = false := by
    rwa [← Bool.not_eq_true, isMatch_remoteUser]
  have huser : strip ((call.header "X-Remote-User".toList).getD []) = remoteUser call := rfl
  simp only [ensureDoGET, huser, hmatch, Bool.not_false, if_true]
  split_ifs <;> exact ⟨rfl, rfl⟩

theorem commands_ensureDoGET (s : State) : ((doGET interp call run).run s).2.commands =
    s.commands ++ (ensureDoGET run (call.header "X-Remote-User".toList)).commands := by
  by_cases hname : IsName (remoteUser call)
  · obtain ⟨header, hheader⟩ : ∃ header, call.header "X-Remote-User".toList = some header := by
      cases hheader : call.header "X-Remote-User".toList with
      | some header => exact ⟨header, rfl⟩
      | none =>
        have hnil : remoteUser call = [] := by
          rw [remoteUser, hheader]
          rfl
        exact absurd hnil hname.chars.1
    have hstrip : strip header = remoteUser call := by
      rw [remoteUser, hheader]
      rfl
    rw [commands_doGET_of_name hname, hheader, commands_of_name hname hstrip]
    rfl
  · rw [commands_doGET_of_invalid hname, (ensureDoGET_of_invalid hname).1, List.append_nil]

theorem status_doGET (s : State) {code : ℕ} (h : status (doGET interp call run) s = some code) :
    code = (ensureDoGET run (call.header "X-Remote-User".toList)).status := by
  by_cases hname : IsName (remoteUser call)
  · rw [status_ensureDoGET hname]
    have hcompleted : status (completed interp call (socketUnit (remoteUser call))
        (run (startCommand (remoteUser call))))
        { s with commands := s.commands ++ [startCommand (remoteUser call)] } = some code := by
      rw [status, run_doGET_of_name hname] at h
      exact h
    exact status_of_begins (begins_completed _ _) hcompleted
  · rw [(ensureDoGET_of_invalid hname).2]
    by_cases hnil : remoteUser call = []
    · rw [doGET_of_nil hnil] at h
      rw [if_pos hnil]
      exact status_of_begins (begins_sendError _ _) h
    · rw [doGET_of_invalid hnil hname] at h
      rw [if_neg hnil]
      exact status_of_begins (begins_sendError _ _) h

theorem isLatin1_remoteUser
    (h : isLatin1 ((call.header "X-Remote-User".toList).getD []) = true) :
    isLatin1 (remoteUser call) = true := by
  simp only [isLatin1, List.all_eq_true] at h ⊢
  intro c hc
  exact h c (mem_of_mem_strip hc)

/-- `unicodedata.category(c) = "Cc"`. -/
def isControl (c : Char) : Bool := c.toNat < 32 || (127 ≤ c.toNat && c.toNat < 160)

/-- What the instance part of a unit name must not hold. -/
structure SafeInstance (i : Str) : Prop where
  chars : ∀ c ∈ i, c ≠ '/' ∧ c ≠ '.' ∧ c ≠ '@' ∧ isSpace c = false ∧ isControl c = false
  first : i.head? ≠ some '-'

theorem not_isControl_of_nameRest {c : Char} (h : isNameRest c = true) : isControl c = false := by
  have hrange := toNat_of_nameRest h
  simp [isControl]
  omega

theorem safeInstance_of_name {u : Str} (h : IsName u) : SafeInstance u := by
  constructor
  · intro c hc
    have hrest := h.chars.2 c hc
    refine ⟨?_, ?_, ?_, not_isSpace_of_nameRest hrest, not_isControl_of_nameRest hrest⟩
    all_goals
      rintro rfl
      revert hrest
      decide
  · obtain ⟨c, cs, rfl, hc, -⟩ := h
    intro hfirst
    cases hfirst
    revert hc
    decide

/-- For every value of the header, the helper starts the socket unit of the user it names, where
that is a plain username, and nothing else; it answers any other 401 or 403. -/
theorem starts_named_unit (interp : Interpreter) (run : List Str → Completed) (call : Call)
    (hlatin1 : isLatin1 ((call.header "X-Remote-User".toList).getD []) = true) (s : State) :
    let user := strip ((call.header "X-Remote-User".toList).getD [])
    let after := ((doGET interp call run).run s).2
    (IsName user → SafeInstance user ∧ after.commands = s.commands ++
      [["systemctl".toList, "start".toList, "flux-rest-server@".toList ++ user ++ ".socket".toList]]) ∧
    (¬ IsName user → after.commands = s.commands ∧ status (doGET interp call run) s =
      if call.http09 then none else if user = [] then some 401 else some 403) ∧
    ∀ u u' : Str, "flux-rest-server@".toList ++ u ++ ".socket".toList =
      "flux-rest-server@".toList ++ u' ++ ".socket".toList → u = u' := by
  intro user after
  refine ⟨?_, ?_, fun u u' => socketUnit_inj⟩
  · intro h
    exact ⟨safeInstance_of_name h, commands_doGET_of_name h s⟩
  · intro h
    refine ⟨commands_doGET_of_invalid h s, ?_⟩
    by_cases hnil : user = []
    · have h401 : isLatin1 "No authenticated user".toList = true := by decide
      rw [doGET_of_nil hnil, status_sendError 401 h401, if_pos hnil]
    · have h403 : isLatin1 ("Invalid username format: ".toList ++ remoteUser call) = true :=
        isLatin1_append.mpr ⟨by decide, isLatin1_remoteUser hlatin1⟩
      rw [doGET_of_invalid hnil h, status_sendError 403 h403, if_neg hnil]

def Interpreter.fixed : Interpreter where
  version := "3.11.10".toList
  date := "Thu, 01 Jan 2026 00:00:00 GMT".toList
  errorPage _ message := message
  isLine_version := by decide
  isLine_date := by decide

/-- A request of nginx for a user. -/
def callFor (user : Str) : Call where
  command := "GET".toList
  path := "/".toList
  headers := [("X-Remote-User".toList, user)]
  requestline := "GET / HTTP/1.0".toList

/-- A folded header is still `alice`; a path is no user. -/
theorem starts_named_unit_folded :
    ((doGET .fixed (callFor "alice\r\n ".toList) fun _ => .timeoutExpired).run {}).2.commands =
      [["systemctl".toList, "start".toList, "flux-rest-server@alice.socket".toList]] ∧
    ((doGET .fixed (callFor "../../etc/passwd".toList) fun _ => .timeoutExpired).run {}).2.commands = [] ∧
    status (doGET .fixed (callFor "../../etc/passwd".toList) fun _ => .timeoutExpired) {} = some 403 := by
  have hname : IsName (remoteUser (callFor "alice\r\n ".toList)) :=
    isMatch_remoteUser.mp (by decide)
  have hpath : ¬ IsName "../../etc/passwd".toList := by
    rintro ⟨c, cs, hcs, hc, -⟩
    cases hcs
    revert hc
    decide
  obtain ⟨hstarts, -, -⟩ := starts_named_unit .fixed (fun _ => .timeoutExpired)
    (callFor "alice\r\n ".toList) (by decide) {}
  obtain ⟨-, hrefused, -⟩ := starts_named_unit .fixed (fun _ => .timeoutExpired)
    (callFor "../../etc/passwd".toList) (by decide) {}
  exact ⟨(hstarts hname).2, hrefused hpath⟩

end FluxRest.Ensure
