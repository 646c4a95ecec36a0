import FluxRest.Ops

/-! How the errors of Flux are reported: what is answered 503, and what is a client error. -/
namespace FluxRest
open Py Py.Http

variable {F : Flux} (site : Site)

def FluxCall.isRpc : FluxCall F → Bool
  | attrGet .. | submit .. | cancel .. | jobListId .. => true
  | connect _ | fromCommand .. | toDict _ => false

def FluxCall.isJobRpc : FluxCall F → Bool
  | submit .. | cancel .. | jobListId .. => true
  | connect _ | attrGet .. | fromCommand .. | toDict _ => false

/-- How Flux behaves towards an operation. -/
inductive Situation where
  /-- No call raises an `OSError`. -/
  | answered
  /-- `flux.Flux()` fails. -/
  | openFails (err : Exc)
  /-- The connection is lost under an RPC. -/
  | lost (err : Exc)
  /-- The broker rejects an RPC about a job. -/
  | rejected (errno : ℤ) (message : Str)

def Situation.Faced (calls : List (FluxCall F)) : Situation → Prop
  | answered => ∀ c ∈ calls, ∀ err, c.raised = some err → err.isA .osError = false
  | openFails err => err.isA .osError ∧ .connect (.error err) ∈ calls
  | lost err => err.isA .osError ∧ ∃ c ∈ calls, c.isRpc ∧ c.raised = some err
  | rejected errno message => ∃ c ∈ calls, c.isJobRpc ∧ c.raised = some (osError errno message)

/-- The operation is about a job that exists already. -/
def Op.onJob : Op F → Bool
  | state _ | cancel .. => true
  | root | submit _ => false

/-- The documented answer: 503 when Flux is unreachable and only then, and the client error that
belongs to a rejection. -/
def Op.Reported (op : Op F) (code : Option ℕ) : Situation → Prop
  | .answered => code ≠ some 503
  | .openFails _ | .lost _ => code = some 503
  | .rejected errno _ => code ≠ some 503 ∧ (errno = EPERM → code = some 403) ∧
      (errno = ENOENT → op.onJob → code = some 404 ∨ code = some 409) ∧
      (errno = EINVAL → code = some 400)

/-- The situations each operation tells apart by the class or the `errno` of the error. -/
def Op.Classifies : Op F → Situation → Prop
  | _, .answered => True
  | submit _, .openFails err | submit _, .lost err => err.errno ≠ some EINVAL
  | _, .openFails _ => True
  | root, .lost _ => True
  | state _, .lost err => err.isA .fileNotFoundError = false
  | cancel .., .lost err => err.isA .fileNotFoundError = false ∧ err.isA .permissionError = false
  | root, .rejected .. => True
  | submit _, .rejected errno _ => errno = EINVAL
  | state _, .rejected errno _ => errno = ENOENT
  | cancel .., .rejected errno _ => errno = ENOENT ∨ errno = EPERM ∨ errno = EACCES

section Status

variable {err : Exc}

theorem status_error (h : err.isA .osError) : (afterRoute (.error err)).status = 503 := by
  simp only [afterRoute, h, if_true]
  rfl

theorem status_submitFailed (h : err.isA .osError) :
    (afterRoute (submitFailed err)).status = if err.errno = some EINVAL then 400 else 503 := by
  simp only [submitFailed, h, if_true]
  split_ifs
  · rfl
  · exact status_error h

theorem status_stateFailed (h : err.isA .osError) (jobid : F.JobID) :
    (afterRoute (stateFailed F jobid err)).status =
      if err.isA .fileNotFoundError then 404 else 503 := by
  unfold stateFailed
  split_ifs
  · rfl
  · exact status_error h

theorem status_cancelFailed_fileNotFound (h : err.isA .fileNotFoundError) (jobid : F.JobID) :
    (afterRoute (cancelFailed F jobid err)).status = 404 ∨
      (afterRoute (cancelFailed F jobid err)).status = 409 := by
  unfold cancelFailed
  rw [if_pos h]
  split_ifs
  · exact Or.inr rfl
  · exact Or.inl rfl

theorem status_cancelFailed_permission (hf : err.isA .fileNotFoundError = false)
    (h : err.isA .permissionError) (jobid : F.JobID) :
    (afterRoute (cancelFailed F jobid err)).status = 403 := by
  unfold cancelFailed
  rw [if_neg (by simp [hf]), if_pos h]
  rfl

theorem status_cancelFailed_other (h : err.isA .osError) (hf : err.isA .fileNotFoundError = false)
    (hp : err.isA .permissionError = false) (jobid : F.JobID) :
    (afterRoute (cancelFailed F jobid err)).status = 503 := by
  unfold cancelFailed
  rw [if_neg (by simp [hf]), if_neg (by simp [hp])]
  exact status_error h

end Status

/-- An exception that is no `OSError` is never answered 503. -/
theorem Op.Raises.available {op : Op F} {c : FluxCall F} {err : Exc} {r : Except Exc Reply}
    (h : op.Raises c err r) (hos : err.isA .osError = false) : Available r := by
  have herr : Available (.error err) := available_error_iff.mpr hos
  cases h with
  | root _ => exact herr
  | command =>
    rcases hf : fromCommandFailed err with err' | reply
    · unfold fromCommandFailed at hf
      split_ifs at hf
      cases hf
      exact herr
    · unfold Available afterRoute
      dsimp only
      rw [(fromCommandFailed_status hf).1]
      decide
  | submit _ => exact available_submitFailed herr
  | state _ => exact herr
  | info =>
    rcases hf : stateFailed F _ err with err' | reply
    · unfold stateFailed at hf
      split_ifs at hf
      cases hf
      exact herr
    · unfold Available afterRoute
      dsimp only
      rw [(stateFailed_status hf).1]
      decide
  | connect => exact herr
  | cancel => exact available_cancelFailed herr

/-- Where all calls but the last returned, a call that raised is the last one. -/
theorem eq_last_of_raised {l : List (FluxCall F)} {c c' : FluxCall F} {err : Exc}
    (hl : ∀ c ∈ l, c.raised = none) (hm : c' ∈ l ++ [c]) (hc : c'.raised = some err) : c' = c := by
  rcases List.mem_append.mp hm with h | h
  · rw [hl c' h] at hc
    cases hc
  · exact List.mem_singleton.mp h

theorem reported_openFails {op : Op F} {err : Exc} {r : Except Exc Reply}
    (h : op.Raises (.connect (.error err)) err r) (hos : err.isA .osError) :
    op.Reported (some (afterRoute r).status) (.openFails err) ↔ op.Classifies (.openFails err) := by
  cases h with
  | root _ => simp [Op.Reported, Op.Classifies, status_error hos]
  | submit _ =>
    simp only [Op.Reported, Op.Classifies, status_submitFailed hos]
    split_ifs with hinval <;> simp [hinval]
  | state _ => simp [Op.Reported, Op.Classifies, status_error hos]
  | connect => simp [Op.Reported, Op.Classifies, status_error hos]

theorem reported_lost {op : Op F} {c : FluxCall F} {err : Exc} {r : Except Exc Reply}
    (h : op.Raises c err r) (hc : c.isRpc) (hos : err.isA .osError) :
    op.Reported (some (afterRoute r).status) (.lost err) ↔ op.Classifies (.lost err) := by
  cases h with
  | root _ => simp [Op.Reported, Op.Classifies, status_error hos]
  | command => cases hc
  | submit _ =>
    simp only [Op.Reported, Op.Classifies, status_submitFailed hos]
    split_ifs with hinval <;> simp [hinval]
  | state h =>
    obtain ⟨r, rfl⟩ | ⟨r, rfl⟩ := h
    · cases hc
    · cases hc
  | info =>
    simp only [Op.Reported, Op.Classifies, status_stateFailed hos]
    split_ifs with hfnf <;> simp [hfnf]
  | connect => cases hc
  | @cancel jobid reason r err =>
    simp only [Op.Reported, Op.Classifies, Option.some.injEq]
    cases hf : err.isA .fileNotFoundError with
    | true => rcases status_cancelFailed_fileNotFound hf jobid with h | h <;> simp [h]
    | false =>
      cases hp : err.isA .permissionError with
      | true => simp [status_cancelFailed_permission hf hp]
      | false => simp [status_cancelFailed_other hos hf hp]

theorem reported_rejected {op : Op F} {c : FluxCall F} {errno : ℤ} {message : Str}
    {r : Except Exc Reply} (h : op.Raises c (osError errno message) r) (hc : c.isJobRpc) :
    op.Reported (some (afterRoute r).status) (.rejected errno message) ↔
      op.Classifies (.rejected errno message) := by
  have hos := osError_isA_osError errno message
  cases h with
  | root h =>
    obtain ⟨r, rfl⟩ | ⟨name, r, rfl⟩ := h
    · cases hc
    · cases hc
  | command => cases hc
  | submit _ =>
    simp only [Op.Reported, Op.Classifies, status_submitFailed hos, errno_osError]
    split_ifs with hinval
    · cases hinval
      simp [EINVAL, EPERM, ENOENT]
    · simp only [Option.some.injEq] at hinval
      simp [hinval]
  | state h =>
    obtain ⟨r, rfl⟩ | ⟨r, rfl⟩ := h
    · cases hc
    · cases hc
  | info =>
    simp only [Op.Reported, Op.Classifies, status_stateFailed hos, osError_isA_fileNotFound]
    by_cases hent : errno = ENOENT
    · subst hent
      simp [EINVAL, EPERM, ENOENT]
    · simp [hent]
  | connect => cases hc
  | @cancel jobid reason r =>
    simp only [Op.Reported, Op.Classifies, Option.some.injEq, ne_eq]
    by_cases hent : errno = ENOENT
    · subst hent
      have hf : (osError ENOENT message).isA .fileNotFoundError := by simp
      have hcodes : ENOENT ≠ EPERM ∧ ENOENT ≠ EINVAL := by decide
      rcases status_cancelFailed_fileNotFound hf jobid with h | h <;>
        simp [h, hcodes.1, hcodes.2]
    · have hf : (osError errno message).isA .fileNotFoundError = false := by simp [hent]
      by_cases hperm : errno = EPERM ∨ errno = EACCES
      · have hp : (osError errno message).isA .permissionError := by simp [hperm]
        have hinval : errno ≠ EINVAL := by
          rintro rfl
          revert hperm
          decide
        simp [status_cancelFailed_permission hf hp, hperm, hent, hinval]
      · have hp : (osError errno message).isA .permissionError = false := by simp [hperm]
        simp [status_cancelFailed_other hos hf hp, hent, hperm]

/-- What the route's last call raised decides the answer in every situation. -/
theorem reported_of_raises {op : Op F} {l : List (FluxCall F)} {c : FluxCall F} {err : Exc}
    {r : Except Exc Reply} (hl : ∀ c ∈ l, c.raised = none) (hc : c.raised = some err)
    (h : op.Raises c err r) {situation : Situation} (hs : situation.Faced (l ++ [c])) :
    op.Reported (some (afterRoute r).status) situation ↔ op.Classifies situation := by
  cases situation with
  | answered =>
    have hos := hs c (List.mem_append_right l (List.mem_singleton_self c)) err hc
    refine iff_of_true ?_ (by cases op <;> trivial)
    exact fun hcode => h.available hos (Option.some.inj hcode)
  | openFails err' =>
    obtain ⟨hos, hm⟩ := hs
    obtain rfl := eq_last_of_raised hl hm rfl
    cases hc
    exact reported_openFails h hos
  | lost err' =>
    obtain ⟨hos, c', hm, hrpc, hc'⟩ := hs
    obtain rfl := eq_last_of_raised hl hm hc'
    cases hc.symm.trans hc'
    exact reported_lost h hrpc hos
  | rejected errno message =>
    obtain ⟨c', hm, hrpc, hc'⟩ := hs
    obtain rfl := eq_last_of_raised hl hm hc'
    cases hc.symm.trans hc'
    exact reported_rejected h hrpc

theorem reported_of_returned {op : Op F} {l : List (FluxCall F)} {r : Except Exc Reply}
    (hl : ∀ c ∈ l, c.raised = none) (hr : Available r) {situation : Situation}
    (hs : situation.Faced l) :
    op.Reported (some (afterRoute r).status) situation ↔ op.Classifies situation := by
  cases situation with
  | answered =>
    refine iff_of_true ?_ (by cases op <;> trivial)
    exact fun hcode => hr (Option.some.inj hcode)
  | openFails err =>
    cases hl _ hs.2
  | lost err =>
    obtain ⟨-, c, hm, -, hc⟩ := hs
    cases (hl c hm).symm.trans hc
  | rejected errno message =>
    obtain ⟨c, hm, -, hc⟩ := hs
    cases (hl c hm).symm.trans hc

theorem reported_iff {req : Request} (hv : req.http09 = false) {op : Op F} (ha : op.Asks site req)
    (w : World F) {situation : Situation}
    (hs : situation.Faced (called (handleOneRequest F site (tables F site) req) w)) :
    op.Reported (status (handleOneRequest F site (tables F site) req) w) situation ↔
      op.Classifies situation := by
  obtain ⟨path, hhandle⟩ := Op.handle_of_asks site ha
  rw [hhandle] at hs ⊢
  have hends : Ends op.Raises Available _ _ := emits_guarded site req path op.call
    called_of_trace called_log_route (op.ends_route site) w
  rw [status_guarded site req path op.call hv (op.keeps_route site) (op.plain_route site)]
  change situation.Faced (((_ : Except Exc Unit × World F).2.called).drop _) at hs
  generalize List.drop _ _ = l at hends hs
  cases hends with
  | returned hl hr => exact reported_of_returned hl hr hs
  | raised hl hc h => exact reported_of_raises hl hc h hs

/-- Flux refuses the record of another user's job. -/
def forbidden : Answers := { jobListId := .error (osError EPERM "Operation not permitted".toList) }

def getJob : Request := { command := "GET".toList, path := "/api/v1/jobs/f2".toList }

def handleGetJob : Proc (World (.fixed forbidden)) Unit :=
  handleOneRequest (.fixed forbidden) .fixed (tables (.fixed forbidden) .fixed) getJob

def refusal : Situation := .rejected EPERM "Operation not permitted".toList

theorem getJob_asks : (.state (1 : UInt64) : Op (.fixed forbidden)).Asks .fixed getJob :=
  ⟨rfl, rfl, rfl⟩

theorem getJob_faced : refusal.Faced (called handleGetJob { flux := () }) := by
  have hcalled : called handleGetJob { flux := () } = [.connect (.ok ()),
      .jobListId (1 : UInt64) (.error (osError EPERM "Operation not permitted".toList))] := rfl
  rw [hcalled]
  exact ⟨_, List.mem_cons_of_mem _ (List.mem_singleton_self _), rfl, rfl⟩

theorem reported_getJob :
    (.state (1 : UInt64) : Op (.fixed forbidden)).Reported
        (status handleGetJob { flux := () }) refusal ↔
      (.state (1 : UInt64) : Op (.fixed forbidden)).Classifies refusal :=
  reported_iff .fixed rfl getJob_asks _ getJob_faced

/-- `GET` on a job Flux will not show is answered 503, as if there were no broker. -/
theorem forbidden_unavailable : refusal.Faced (called handleGetJob { flux := () }) ∧
    ¬ (.state (1 : UInt64) : Op (.fixed forbidden)).Reported
      (status handleGetJob { flux := () }) refusal := by
  refine ⟨getJob_faced, ?_⟩
  have hstatus : status handleGetJob { flux := () } = some 503 := rfl
  rw [hstatus]
  exact fun h => h.1 rfl

end FluxRest
