import FluxRest.Ensure.Start
import FluxRest.Py.Quote

/-! The helper's answer: when it is one response, whose head is read as it is meant. -/
namespace FluxRest.Ensure
open Py Py.Http

/-- The fields that the handler and `http.server` set. -/
def fieldNames : List (List Str) := [
  ["Server".toList, "Date".toList, "Content-Type".toList],
  ["Server".toList, "Date".toList, "Connection".toList, "Content-Type".toList,
    "Content-Length".toList]]

/-- What has been written is one response: a client reads its status line, the fields that are set
and then the body; and it is a 200 exactly if `started`. -/
def OneResponse (started : Prop) (l : List Wire) (r : Except Exc Unit) : Prop :=
  r = .ok () ∧ ∃ head body, l = [.head head, .data body] ∧ (head.status = 200 ↔ started) ∧
    head.fields.map Prod.fst ∈ fieldNames ∧ head.ReadBack body

def Answered (started : Prop) (x : Proc State Unit) (s : State) : Prop :=
  ∃ l, (x.run s).2.wire = s.wire ++ l ∧ OneResponse started l (x.run s).1

/-- The requests and the outcomes of `systemctl` whose texts do no harm to the answer: the request
line names `HTTP/1.x`; a text that is no username stays within its line; so do the errors that
`systemctl` writes, unless a percent sign in them or a character outside Latin-1 keeps them out of
the answer; and so does the text of an exception, which in addition is logged as it is. -/
structure Harmless (run : List Str → Completed) (call : Call) : Prop where
  version : call.http09 = false
  refused : remoteUser call ≠ [] → ¬ IsName (remoteUser call) → IsLine (remoteUser call)
  failed : IsName (remoteUser call) → ∀ returncode stderr,
    run (startCommand (remoteUser call)) = .exited returncode stderr → returncode ≠ 0 →
    (∃ t, decode stderr = doubled t) → isLatin1 (decode stderr) = true → IsLine (decode stderr)
  raised : IsName (remoteUser call) → ∀ err, run (startCommand (remoteUser call)) = .raised err →
    (∃ t, err.message = doubled t) ∧ IsLine err.message

variable {interp : Interpreter} {call : Call} {started : Prop}

theorem answered_iff_of_emits {P : List Wire → Except Exc Unit → Prop} {x : Proc State Unit}
    (hx : Proc.Emits State.wire P x) {C : Prop} (h : ∀ l r, P l r → (OneResponse started l r ↔ C))
    (s : State) : Answered started x s ↔ C := by
  obtain ⟨l, hl, hp⟩ := hx s
  rw [← h l _ hp]
  constructor
  · rintro ⟨l', hl', hone⟩
    rw [hl] at hl'
    rwa [List.append_cancel_left hl']
  · intro hone
    exact ⟨l, hl, hone⟩

theorem not_oneResponse_nil (r : Except Exc Unit) : ¬ OneResponse started [] r := by
  rintro ⟨-, head, body, hl, -⟩
  cases hl

theorem not_oneResponse_bare {l : List Wire} {r : Except Exc Unit} (h : Bare l) :
    ¬ OneResponse started l r := by
  rintro ⟨-, head, body, rfl, -⟩
  obtain ⟨bs, hbs⟩ := h (.head head) (by simp)
  cases hbs

theorem isLine_field {name value : Str} (hname : IsLine name) (hvalue : IsLine value) :
    IsLine (Head.fieldLine (name, value)) := by
  have hcolon : IsLine ": ".toList := by decide
  exact isLine_append.mpr ⟨isLine_append.mpr ⟨hname, hcolon⟩, hvalue⟩

theorem isLine_responseFields (interp : Interpreter) :
    ∀ f ∈ responseFields interp, IsLine (Head.fieldLine f) := by
  have hserver : IsLine ("flux-rest-server-ensure/0.1.0 Python/".toList ++ interp.version) :=
    isLine_append.mpr ⟨by decide, interp.isLine_version⟩
  simp only [responseFields, List.forall_mem_cons]
  exact ⟨isLine_field (by decide) hserver, isLine_field (by decide) interp.isLine_date, nofun⟩

theorem isLine_errorHead (interp : Interpreter) (code : ℕ) (message : Str) (length : ℕ) :
    ∀ f ∈ (errorHead interp code message length).fields, IsLine (Head.fieldLine f) := by
  have hlength : IsLine (natStr length) := isLine_of_isTame (isTame_natStr length)
  simp only [errorHead, List.forall_mem_append, List.forall_mem_cons]
  refine ⟨isLine_responseFields interp, isLine_field (by decide) (by decide),
    isLine_field (by decide) (by decide), isLine_field (by decide) hlength, by simp⟩

theorem isLine_okHead (interp : Interpreter) :
    ∀ f ∈ (okHead interp).fields, IsLine (Head.fieldLine f) := by
  simp only [okHead, List.forall_mem_append, List.forall_mem_cons]
  exact ⟨isLine_responseFields interp, isLine_field (by decide) (by decide), nofun⟩

/-- An error is one response exactly if its message stays within the status line. -/
theorem oneResponse_errorHead {code : ℕ} (hcode : code ≠ 200) (hstarted : ¬ started) {message : Str}
    (hl : isLatin1 message = true) (length : ℕ) (body : Bytes) :
    OneResponse started [.head (errorHead interp code message length), .data body] (.ok ()) ↔
      IsLine message := by
  have hread := Head.readBack_iff (h := errorHead interp code message length) hl
    (isLine_errorHead interp code message length) body
  constructor
  · rintro ⟨-, head, body', hwire, -, -, hback⟩
    simp only [List.cons.injEq, Wire.head.injEq, Wire.data.injEq, and_true] at hwire
    rw [← hwire.1, ← hwire.2] at hback
    exact hread.mp hback
  · intro hline
    refine ⟨rfl, _, _, rfl, iff_of_false hcode hstarted, ?_, hread.mpr hline⟩
    exact List.mem_cons_of_mem _ List.mem_cons_self

theorem answered_sendError (hw : call.writeError = none) (hv : call.http09 = false) {code : ℕ}
    (hcode : code ≠ 200) (hstarted : ¬ started) (message : Str) (s : State) :
    Answered started (sendError interp call code message) s ↔ IsLine message := by
  cases hl : isLatin1 message with
  | true =>
    refine answered_iff_of_emits (emits_sendError hv code hl) ?_ s
    intro l r h
    obtain ⟨rfl, rfl⟩ := h.2 hw
    exact oneResponse_errorHead hcode hstarted hl _ _
  | false =>
    refine answered_iff_of_emits (emits_sendError_refused hv code hl) ?_ s
    intro l r h
    have hline : ¬ IsLine message := by simp [IsLine, hl]
    rw [h.1]
    exact iff_of_false (not_oneResponse_nil r) hline

/-- What is logged before does not matter to the answer. -/
theorem answered_after_logError {format text : Str} (h : percent format = .ok text)
    {x : Proc State Unit} {C : Prop} (hx : ∀ s, Answered started x s ↔ C) (s : State) :
    Answered started (do logError call format; x) s ↔ C := by
  have hlog : ((do logError call format; x) : Proc State Unit).run s = x.run { s with
      stderr := s.stderr ++ [addressString call ++ " - ".toList ++ text ++ ['\n']] } := by
    unfold logError
    rw [h]
    rfl
  unfold Answered
  rw [hlog]
  exact hx _

theorem percent_prefixed {p : Str} (hp : isTame p = true) (s : Str) :
    percent (p ++ s) = (percent s).map (p ++ ·) :=
  percent_append (notMem_of_isTame hp (Or.inr rfl)) s

theorem isLine_prefixed {p : Str} (hp : isTame p = true) {s : Str} : IsLine (p ++ s) ↔ IsLine s := by
  rw [isLine_append, and_iff_right (isLine_of_isTame hp)]

theorem answered_unexpected (hw : call.writeError = none) (hv : call.http09 = false)
    (hstarted : ¬ started) (err : Exc) (s : State) :
    Answered started (unexpected interp call err) s ↔
      (∃ t, err.message = doubled t) ∧ IsLine err.message := by
  have hlogged : isTame "Unexpected error: ".toList = true := by decide
  have hsent : isTame "Internal error: ".toList = true := by decide
  have hpercent := percent_prefixed hlogged err.message
  obtain ⟨t, ht⟩ | ⟨err', herr', hraise⟩ := percent_cases err.message
  · rw [and_iff_right ⟨t, ht⟩, ← isLine_prefixed hsent]
    rw [ht, percent_doubled] at hpercent
    rw [← ht] at hpercent
    exact answered_after_logError hpercent (answered_sendError hw hv (by decide) hstarted _) s
  · have hformat : ¬ ∃ t, err.message = doubled t := by
      rintro ⟨t, ht⟩
      rw [ht, percent_doubled] at hraise
      cases hraise
    rw [hraise] at hpercent
    have hrun : (unexpected interp call err).run s = (.error err', s) :=
      run_logError_error hpercent _ s
    refine iff_of_false ?_ fun h => hformat h.1
    rintro ⟨l, -, hok, -⟩
    rw [hrun] at hok
    cases hok

/-- The texts of the interpreter's own errors do no harm. -/
theorem answered_unexpected_tame (hw : call.writeError = none) (hv : call.http09 = false)
    (hstarted : ¬ started) {err : Exc} (h : isTame err.message = true) (s : State) :
    Answered started (unexpected interp call err) s := by
  have hplain : doubled err.message = err.message :=
    doubled_of_notMem (notMem_of_isTame h (Or.inr rfl))
  exact (answered_unexpected hw hv hstarted err s).mpr ⟨⟨_, hplain.symm⟩, isLine_of_isTame h⟩

theorem isTame_socketUnit {user : Str} (h : IsName user) : isTame (socketUnit user) = true := by
  have hunit : isTame "flux-rest-server@".toList = true := by decide
  have hsocket : isTame ".socket".toList = true := by decide
  have huser : isTame user = true := by
    simp only [isTame, List.all_eq_true, Bool.and_eq_true, decide_eq_true_eq, bne_iff_ne]
    intro c hc
    have hrange := toNat_of_nameRest (h.chars.2 c hc)
    refine ⟨by omega, ?_⟩
    rintro rfl
    simp at hrange
  exact isTame_append.mpr ⟨isTame_append.mpr ⟨hunit, huser⟩, hsocket⟩

theorem answered_tryCatch_ok {x : Proc State Unit} {handler : Exc → Proc State Unit} {s : State}
    (hx : (x.run s).1 = .ok ()) : Answered started (tryCatch x handler) s ↔ Answered started x s := by
  rcases hrun : x.run s with ⟨r, t⟩
  rw [hrun] at hx
  subst hx
  rw [Answered, Answered, Proc.run_tryCatch_ok hrun, hrun]

/-- An exception caught before anything was written is answered for by the handler. -/
theorem answered_tryCatch {x : Proc State Unit} {handler : Exc → Proc State Unit} {C : Prop}
    (hx : Proc.Emits State.wire
      (fun l r => l = [] ∧ ∃ err, r = .error err ∧ isTame err.message = true) x)
    (hh : ∀ err s, isTame err.message = true → (Answered started (handler err) s ↔ C)) (s : State) :
    Answered started (tryCatch x handler) s ↔ C := by
  obtain ⟨l, hl, hnil, err, herr, htame⟩ := hx s
  rcases hrun : x.run s with ⟨r, t⟩
  rw [hrun] at hl herr
  subst herr hnil
  rw [← hh err t htame, Answered, Answered, Proc.run_tryCatch_error hrun]
  have hwire : t.wire = s.wire := hl.trans (List.append_nil _)
  rw [hwire]

/-- A unit that fails to start is answered in one response unless the errors of `systemctl` end a
line and still get into the head. -/
theorem answered_failed (hw : call.writeError = none) (hv : call.http09 = false)
    (hstarted : ¬ started) {unitName : Str} (hunit : isTame unitName = true) {returncode : ℤ}
    (hcode : returncode ≠ 0) (stderr : Bytes) (s : State) :
    Answered started (completed interp call unitName (.exited returncode stderr)) s ↔
      ((∃ t, decode stderr = doubled t) → isLatin1 (decode stderr) = true →
        IsLine (decode stderr)) := by
  have hlogged : isTame ("systemctl start ".toList ++ unitName ++ " failed: ".toList) = true :=
    isTame_append.mpr ⟨isTame_append.mpr ⟨by decide, hunit⟩, by decide⟩
  have hsent : isTame ("Failed to start ".toList ++ unitName ++ ": ".toList) = true :=
    isTame_append.mpr ⟨isTame_append.mpr ⟨by decide, hunit⟩, by decide⟩
  have hpercent := percent_prefixed hlogged (decode stderr)
  have hhandler : ∀ (C : Prop), C → ∀ err s, isTame err.message = true →
      (Answered started (unexpected interp call err) s ↔ C) := by
    intro C hC err s htame
    exact iff_of_true (answered_unexpected_tame hw hv hstarted htame s) hC
  simp only [completed, answer, if_pos hcode]
  obtain ⟨t, ht⟩ | ⟨err, herr, hraise⟩ := percent_cases (decode stderr)
  · rw [ht, percent_doubled] at hpercent
    rw [← ht] at hpercent
    rw [forall_prop_of_true ⟨t, ht⟩]
    cases hl : isLatin1 (decode stderr) with
    | true =>
      have hl' := isLatin1_append.mpr ⟨isLatin1_of_isTame hsent, hl⟩
      rw [forall_prop_of_true rfl, ← isLine_prefixed hsent]
      have hreturns : ((do
          logError call ("systemctl start ".toList ++ unitName ++ " failed: ".toList ++ decode stderr)
          sendError interp call 500 ("Failed to start ".toList ++ unitName ++ ": ".toList ++
            decode stderr) : Proc State Unit).run s).1 = .ok () := by
        obtain ⟨l, -, -, hok⟩ := emits_after_logError hpercent (emits_sendError hv 500 hl') s
        exact (hok hw).2
      rw [answered_tryCatch_ok hreturns]
      exact answered_after_logError hpercent (answered_sendError hw hv (by decide) hstarted _) s
    | false =>
      have hl' : isLatin1 ("Failed to start ".toList ++ unitName ++ ": ".toList ++ decode stderr) =
          false := by
        rw [← Bool.not_eq_true, isLatin1_append, hl]
        simp
      rw [forall_prop_of_false (by decide), iff_true]
      exact (answered_tryCatch (emits_after_logError hpercent (emits_sendError_refused hv 500 hl'))
        (hhandler True trivial) s).mpr trivial
  · have hformat : ¬ ∃ t, decode stderr = doubled t := by
      rintro ⟨t, ht⟩
      rw [ht, percent_doubled] at hraise
      cases hraise
    rw [hraise] at hpercent
    rw [forall_prop_of_false hformat, iff_true]
    refine (answered_tryCatch ?_ (hhandler True trivial) s).mpr trivial
    intro s
    rw [run_logError_error hpercent]
    exact ⟨[], (List.append_nil _).symm, rfl, err, rfl, Spec.isTame_errors err herr⟩

theorem answered_exited_zero (hw : call.writeError = none) (hv : call.http09 = false)
    (hstarted : started) (unitName : Str) (stderr : Bytes) (s : State) :
    Answered started (completed interp call unitName (.exited 0 stderr)) s := by
  have hreason : IsLine (okHead interp).reason := by
    change IsLine "OK".toList
    decide
  have hemits := emits_head_body hv (okHead interp) hreason.1 (encode "OK\n".toList)
  simp only [completed, answer, ne_eq, not_true_eq_false, if_false]
  obtain ⟨l, hl, -, hok⟩ := hemits s
  obtain ⟨rfl, hreturns⟩ := hok hw
  rw [answered_tryCatch_ok hreturns]
  refine ⟨_, hl, hreturns, _, _, rfl, iff_of_true rfl hstarted, List.mem_cons_self, ?_⟩
  exact (Head.readBack_iff hreason.1 (isLine_okHead interp) _).mpr hreason

variable {run : List Str → Completed}

theorem not_answered_http09 (hv : call.http09 = true) (s : State) :
    ¬ Answered started (doGET interp call run) s := by
  have hbare : Answered started (doGET interp call run) s ↔ False :=
    answered_iff_of_emits (bare_doGET hv run)
      (fun l r h => iff_of_false (not_oneResponse_bare h) not_false) s
  exact hbare.mp

theorem answered_doGET_of_name (h : IsName (remoteUser call)) (s : State) :
    Answered started (doGET interp call run) s ↔
      Answered started (completed interp call (socketUnit (remoteUser call))
        (run (startCommand (remoteUser call))))
        { s with commands := s.commands ++ [startCommand (remoteUser call)] } := by
  unfold Answered
  rw [run_doGET_of_name h]

/-- `systemctl` exited with 0 for a username. -/
def Started (run : List Str → Completed) (call : Call) : Prop :=
  IsName (remoteUser call) ∧ ∃ stderr, run (startCommand (remoteUser call)) = .exited 0 stderr

theorem not_started {c : Completed} (hrun : run (startCommand (remoteUser call)) = c)
    (hc : ∀ stderr, c ≠ .exited 0 stderr) : ¬ Started run call := by
  rintro ⟨-, stderr, hzero⟩
  exact hc stderr (hrun.symm.trans hzero)

theorem answered_iff_of_name (hw : call.writeError = none) (hv : call.http09 = false)
    (h : IsName (remoteUser call)) (s : State) :
    Answered (Started run call) (doGET interp call run) s ↔ Harmless run call := by
  have hunit := isTame_socketUnit h
  have hharmless : Harmless run call ↔
      (∀ returncode stderr, run (startCommand (remoteUser call)) = .exited returncode stderr →
        returncode ≠ 0 → (∃ t, decode stderr = doubled t) → isLatin1 (decode stderr) = true →
          IsLine (decode stderr)) ∧
      ∀ err, run (startCommand (remoteUser call)) = .raised err →
        (∃ t, err.message = doubled t) ∧ IsLine err.message :=
    ⟨fun hr => ⟨hr.failed h, hr.raised h⟩, fun hr => ⟨hv, fun _ hno => absurd h hno,
      fun _ => hr.1, fun _ => hr.2⟩⟩
  rw [answered_doGET_of_name h, hharmless]
  cases hrun : run (startCommand (remoteUser call)) with
  | timeoutExpired =>
    have hstarted := not_started hrun (by simp)
    have htimeout : isTame "Timeout starting ".toList = true := by decide
    refine iff_of_true ?_ ⟨by simp, by simp⟩
    refine (answered_sendError hw hv (by decide) hstarted _ _).mpr ?_
    exact (isLine_prefixed htimeout).mpr (isLine_of_isTame hunit)
  | raised err =>
    have hstarted := not_started hrun (by simp)
    rw [completed, answered_unexpected hw hv hstarted]
    constructor
    · intro hmessage
      refine ⟨by simp, ?_⟩
      intro err' heq
      cases heq
      exact hmessage
    · intro hr
      exact hr.2 err rfl
  | exited returncode stderr =>
    by_cases hcode : returncode = 0
    · subst hcode
      refine iff_of_true (answered_exited_zero hw hv ⟨h, stderr, hrun⟩ _ stderr _) ⟨?_, by simp⟩
      intro returncode' stderr' heq hne
      cases heq
      exact absurd rfl hne
    · have hstarted := not_started hrun (by simp [hcode])
      rw [answered_failed hw hv hstarted hunit hcode]
      constructor
      · intro hstderr
        refine ⟨?_, by simp⟩
        intro returncode' stderr' heq _
        cases heq
        exact hstderr
      · intro hr
        exact hr.1 returncode stderr rfl hcode

theorem answered_iff_of_invalid (hw : call.writeError = none) (hv : call.http09 = false)
    (h : ¬ IsName (remoteUser call)) (s : State) :
    Answered (Started run call) (doGET interp call run) s ↔ Harmless run call := by
  have hstarted : ¬ Started run call := fun hs => h hs.1
  have hharmless : Harmless run call ↔ (remoteUser call ≠ [] → IsLine (remoteUser call)) :=
    ⟨fun hr hne => hr.refused hne h, fun hr => ⟨hv, fun hne _ => hr hne, fun hname => absurd hname h,
      fun hname => absurd hname h⟩⟩
  rw [hharmless]
  by_cases hne : remoteUser call = []
  · rw [doGET_of_nil hne, answered_sendError hw hv (by decide) hstarted]
    exact iff_of_true (by decide) fun hr => absurd hne hr
  · have hinvalid : isTame "Invalid username format: ".toList = true := by decide
    rw [doGET_of_invalid hne h, answered_sendError hw hv (by decide) hstarted,
      isLine_prefixed hinvalid, forall_prop_of_true hne]

/-- Exactly the requests whose texts do no harm are answered in one well-formed response, which is a
200 exactly if `systemctl` exited with 0 for a username. -/
theorem answered_iff_harmless (interp : Interpreter) (run : List Str → Completed) (call : Call)
    (hw : call.writeError = none) (s : State) :
    Answered (Started run call) (doGET interp call run) s ↔ Harmless run call := by
  cases hv : call.http09 with
  | true => exact iff_of_false (not_answered_http09 hv s) fun h => by simp [h.version] at hv
  | false =>
    by_cases hname : IsName (remoteUser call)
    · exact answered_iff_of_name hw hv hname s
    · exact answered_iff_of_invalid hw hv hname s

theorem isName_alice : IsName (remoteUser (callFor "alice".toList)) :=
  isMatch_remoteUser.mp (by decide)

/-- `systemctl` is killed and has nothing to say. -/
theorem answered_iff_harmless_killed :
    Harmless (fun _ => .exited (-9) []) (callFor "alice".toList) ∧
      Answered (Started (fun _ => .exited (-9) []) (callFor "alice".toList))
        (doGET .fixed (callFor "alice".toList) fun _ => .exited (-9) []) {} := by
  have hharmless : Harmless (fun _ => .exited (-9) []) (callFor "alice".toList) := by
    refine ⟨rfl, fun _ hno => absurd isName_alice hno, ?_, nofun⟩
    intro _ returncode stderr heq _ _ _
    cases heq
    decide
  exact ⟨hharmless, (answered_iff_harmless .fixed _ _ rfl {}).mpr hharmless⟩

/-- The newline at the end of what `systemctl` writes ends the head. -/
theorem newline_ends_head : ¬ Answered
    (Started (fun _ => .exited 1 (encode "Access denied\n".toList)) (callFor "alice".toList))
    (doGET .fixed (callFor "alice".toList) fun _ => .exited 1 (encode "Access denied\n".toList))
    {} := by
  have hdecode := decode_encode "Access denied\n".toList
  intro h
  have hharmless := (answered_iff_of_name rfl rfl isName_alice {}).mp h
  have hline := hharmless.failed isName_alice 1 (encode "Access denied\n".toList) rfl (by decide)
  rw [hdecode] at hline
  exact absurd (hline ⟨"Access denied\n".toList, by decide⟩ (by decide)) (by decide)

end FluxRest.Ensure
