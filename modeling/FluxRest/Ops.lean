import FluxRest.Trace
import FluxRest.Body

/-! The four operations that use Flux, the requests that ask for them, and the calls they make. -/
namespace FluxRest
open Py Py.Http

inductive Op (F : Flux) where
  /-- `GET /`. -/
  | root
  /-- `POST /jobs`. -/
  | submit (fields : List (Str × Json))
  /-- `GET /jobs/<id>`. -/
  | state (jobid : F.JobID)
  /-- `DELETE /jobs/<id>`. -/
  | cancel (jobid : F.JobID) (reason : Option Str)

variable {F : Flux} (site : Site)

namespace Op

def call : Op F → RouteCall F
  | root => .get (PREFIX ++ "/".toList)
  | submit fields => .post (PREFIX ++ "/jobs".toList) fields
  | state jobid => .getJob jobid
  | cancel jobid reason => .deleteJob jobid reason

def route : Op F → Proc (World F) Reply
  | root => FluxRest.root F site
  | submit fields => jobsSubmit F site fields
  | state jobid => jobsState F jobid
  | cancel jobid reason => jobsCancel F jobid reason

/-- The requests that ask for an operation. -/
def Asks (req : Request) : Op F → Prop
  | root => req.command = "GET".toList ∧ before '?' req.path = PREFIX ++ "/".toList
  | submit fields => req.command = "POST".toList ∧ req.version ≠ none ∧
      before '?' req.path = PREFIX ++ "/jobs".toList ∧ readBody site req = .ok (.body fields)
  | state jobid => req.command = "GET".toList ∧
      lookup (before '?' req.path) (tables F site).routes = none ∧
      parseJobPath F (before '?' req.path) = .ok (some jobid)
  | cancel jobid reason => req.command = "DELETE".toList ∧ req.version ≠ none ∧
      ∃ parsed, urlsplit site.hostError req.path = .ok parsed ∧
        parseJobPath F parsed.path = .ok (some jobid) ∧
        parseQsFirst "reason".toList parsed.query = reason

theorem keeps_route (op : Op F) : Proc.Keeps World.wire (op.route site) := by
  have hq := (ignoresCalls_wire (F := F)).toIgnoresQueries
  cases op with
  | root => exact keeps_root site hq
  | submit fields => exact keeps_jobsSubmit site ignoresCalls_wire fields
  | state jobid => exact keeps_jobsState hq jobid
  | cancel jobid reason => exact keeps_jobsCancel ignoresCalls_wire jobid reason

theorem plain_route (op : Op F) : Proc.Returns Plain (op.route site) := by
  cases op with
  | root => exact plain_root site
  | submit fields => exact plain_jobsSubmit site fields
  | state jobid => exact plain_jobsState jobid
  | cancel jobid reason => exact plain_jobsCancel jobid reason

/-- A request for an operation runs its guarded route and sends the reply. -/
theorem handle_of_asks {req : Request} {op : Op F} (h : op.Asks site req) :
    ∃ path, handleOneRequest F site (tables F site) req =
      (do send F site req (← guardRoute F path op.call (op.route site))) := by
  cases op with
  | root =>
    obtain ⟨hcommand, hpath⟩ := h
    have hroute : lookup (PREFIX ++ "/".toList) (tables F site).routes =
        some (FluxRest.root F site) := rfl
    refine ⟨PREFIX ++ "/".toList, ?_⟩
    rw [handleOneRequest_get hcommand, doGET]
    rw [hpath, hroute]
    dsimp only
    rw [unpackPair_root]
    rfl
  | submit fields =>
    obtain ⟨hcommand, hv, hpath, hbody⟩ := h
    refine ⟨PREFIX ++ "/jobs".toList, ?_⟩
    rw [handleOneRequest_post hcommand hv, doPOST]
    rw [hpath, tables_postRoutes_jobs]
    dsimp only
    rw [hbody]
    rfl
  | state jobid =>
    obtain ⟨hcommand, hroutes, hjob⟩ := h
    refine ⟨before '?' req.path, ?_⟩
    rw [handleOneRequest_get hcommand, doGET]
    rw [hroutes, hjob]
    dsimp only [tables]
    rw [unpackPair_jobsState]
    rfl
  | cancel jobid reason =>
    obtain ⟨hcommand, hv, parsed, hurl, hjob, hreason⟩ := h
    refine ⟨parsed.path, ?_⟩
    rw [handleOneRequest_delete hcommand hv, doDELETE, hurl]
    dsimp only
    rw [hjob, hreason]
    rfl

end Op

/-! A route stops at the first call that raises, and what comes of it depends on that call. -/

/-- What a computation raised. -/
def errorOf {α : Type} : Except Exc α → Option Exc
  | .ok _ => none
  | .error err => some err

theorem eq_error_of_errorOf {α : Type} {r : Except Exc α} {err : Exc} (h : errorOf r = some err) :
    r = .error err := by
  cases r with
  | ok a => cases h
  | error err' =>
    cases h
    rfl

/-- What a call raised. -/
def FluxCall.raised : FluxCall F → Option Exc
  | connect r => errorOf r
  | attrGet _ r => errorOf r
  | fromCommand _ _ r => errorOf r
  | submit _ r => errorOf r
  | cancel _ _ r => errorOf r
  | jobListId _ r => errorOf r
  | toDict r => errorOf r

/-- All calls of a run returned, or the last one raised. -/
inductive Ends {α : Type} (G : FluxCall F → Exc → Except Exc α → Prop) (R : Except Exc α → Prop) :
    List (FluxCall F) → Except Exc α → Prop
  | returned {l r} (hl : ∀ c ∈ l, c.raised = none) (hr : R r) : Ends G R l r
  | raised {l c err r} (hl : ∀ c ∈ l, c.raised = none) (hc : c.raised = some err)
      (hg : G c err r) : Ends G R (l ++ [c]) r

section Ends

variable {α β : Type} {G G' : FluxCall F → Exc → Except Exc α → Prop} {R R' : Except Exc α → Prop}
  {H : FluxCall F → Exc → Except Exc β → Prop} {S : Except Exc β → Prop}

/-- `l` comes before calls that end. -/
theorem Ends.append {l l' : List (FluxCall F)} {r : Except Exc α} (hl : ∀ c ∈ l, c.raised = none)
    (h : Ends G R l' r) : Ends G R (l ++ l') r := by
  cases h with
  | returned hl' hr =>
    apply Ends.returned _ hr
    intro c hc
    exact (List.mem_append.mp hc).elim (hl c) (hl' c)
  | raised hl' hc hg =>
    rw [← List.append_assoc]
    apply Ends.raised _ hc hg
    intro c hc
    exact (List.mem_append.mp hc).elim (hl c) (hl' c)

theorem ends_pure {a : α} (h : R (.ok a)) :
    Proc.Emits World.called (Ends G R) (pure a : Proc (World F) α) :=
  .pure (.returned (fun _ hc => by cases hc) h)

theorem ends_throw {err : Exc} (h : R (.error err)) :
    Proc.Emits World.called (Ends G R) (throw err : Proc (World F) α) :=
  .throw (.returned (fun _ hc => by cases hc) h)

theorem ends_invoke {note : Except Exc α → FluxCall F} (hok : ∀ a, (note (.ok a)).raised = none)
    (herr : ∀ err, (note (.error err)).raised = some err)
    (hg : ∀ err, G (note (.error err)) err (.error err)) (hr : ∀ a, R (.ok a))
    (call : Proc F.State α) : Proc.Emits World.called (Ends G R) (invoke note call) := by
  intro w
  refine ⟨[note (call.run w.flux).1], ?_, ?_⟩
  · exact called_invoke note call w
  · rw [run_invoke]
    dsimp only
    rcases (call.run w.flux).1 with err | a
    · exact .raised (l := []) (fun _ hc => by cases hc) (herr err) (hg err)
    · apply Ends.returned _ (hr a)
      intro c hc
      rw [List.mem_singleton.mp hc]
      exact hok a

theorem ends_seq {x : Proc (World F) α} {g : α → Proc (World F) β}
    (hx : Proc.Emits World.called (Ends G R) x)
    (hg : ∀ c err r, G c err r → ∃ err', r = .error err' ∧ H c err (.error err'))
    (hr : ∀ err, R (.error err) → S (.error err))
    (h : ∀ a, R (.ok a) → Proc.Emits World.called (Ends H S) (g a)) :
    Proc.Emits World.called (Ends H S) (x >>= g) := by
  apply hx.seq
  · intro l err hl
    cases hl with
    | returned hl h => exact .returned hl (hr err h)
    | raised hl hc h =>
      obtain ⟨err', he, h'⟩ := hg _ _ _ h
      cases he
      exact .raised hl hc h'
  · intro l a hl
    cases hl with
    | returned hl hra => exact (h a hra).imp fun l' r h' => h'.append hl
    | raised hl hc h =>
      obtain ⟨err', he, -⟩ := hg _ _ _ h
      cases he

theorem ends_tryCatch {x : Proc (World F) α} {handler : Exc → Except Exc α}
    (hx : Proc.Emits World.called (Ends G R) x)
    (hg : ∀ c err r, G c err r → ∃ err', r = .error err' ∧ G' c err (handler err'))
    (hok : ∀ a, R (.ok a) → R' (.ok a)) (herr : ∀ err, R (.error err) → R' (handler err)) :
    Proc.Emits World.called (Ends G' R') (tryCatch x fun err => .ofExcept (handler err)) := by
  apply hx.tryCatch
  · intro l a hl
    cases hl with
    | returned hl hra => exact .returned hl (hok a hra)
    | raised hl hc h =>
      obtain ⟨err', he, -⟩ := hg _ _ _ h
      cases he
  · intro l err hl
    apply Proc.Emits.ofExcept
    rw [List.append_nil]
    cases hl with
    | returned hl h => exact .returned hl (herr err h)
    | raised hl hc h =>
      obtain ⟨err', he, h'⟩ := hg _ _ _ h
      cases he
      exact .raised hl hc h'

theorem run_flux_of_some {w : World F} {h : F.Handle} (hw : w.handle = some h) :
    (flux F).run w = (.ok h, w) := by
  simp [flux, Proc.run_bind, hw]

theorem run_flux_of_none {w : World F} (hw : w.handle = none) : (flux F).run w =
    (do
      let h ← invoke .connect F.connect
      modify fun w => { w with handle := some h }
      return h : Proc (World F) F.Handle).run w := by
  rw [flux, Proc.run_bind_ok (Proc.run_get w), hw]

/-- The call satisfies `C`, and what it raised goes on. -/
def Passes (C : FluxCall F → Prop) (c : FluxCall F) (err : Exc) (r : Except Exc α) : Prop :=
  C c ∧ r = .error err

/-- A computation returned, or raised something that is no `OSError`. -/
def Mild (r : Except Exc α) : Prop := ∀ err, r = .error err → err.isA .osError = false

theorem mild_ok (a : α) : Mild (.ok a) := fun _ h => by cases h

theorem ends_query (C : FluxCall F → Prop) {note : Except Exc α → FluxCall F}
    (hok : ∀ a, (note (.ok a)).raised = none) (herr : ∀ err, (note (.error err)).raised = some err)
    (hc : ∀ r, C (note r)) (call : Proc F.State α) :
    Proc.Emits World.called (Ends (Passes C) Mild) (invoke note call) :=
  ends_invoke hok herr (fun _ => ⟨hc _, rfl⟩) mild_ok call

theorem ends_flux :
    Proc.Emits World.called (Ends (Passes fun c => ∃ r, c = .connect r) Mild) (flux F) := by
  intro w
  cases hw : w.handle with
  | some h =>
    rw [run_flux_of_some hw]
    exact ⟨[], (List.append_nil _).symm, .returned (fun _ hc => by cases hc) (mild_ok h)⟩
  | none =>
    rw [run_flux_of_none hw]
    refine ends_seq (ends_query (fun c => ∃ r, c = .connect r) (fun _ => rfl)
      (fun _ => rfl) (fun r => ⟨r, rfl⟩) _)
      (fun c err r hc => ⟨err, hc.2, hc.1, rfl⟩) (fun err hr err' he => ?_) (fun h _ => ?_) w
    · cases he
      exact hr err rfl
    · intro w'
      exact ⟨[], (List.append_nil _).symm, .returned (fun _ hc => by cases hc) (mild_ok h)⟩

/-- What an operation makes of an exception from one of its calls. -/
inductive Op.Raises : Op F → FluxCall F → Exc → Except Exc Reply → Prop
  | root {c err} (h : (∃ r, c = .connect r) ∨ ∃ name r, c = .attrGet name r) :
      Raises .root c err (.error err)
  | command {fields command kwargs r err} :
      Raises (.submit fields) (.fromCommand command kwargs r) err (fromCommandFailed err)
  | submit {fields c err} (h : (∃ r, c = .connect r) ∨ ∃ jobspec r, c = .submit jobspec r) :
      Raises (.submit fields) c err (submitFailed err)
  | state {jobid c err} (h : (∃ r, c = .connect r) ∨ ∃ r, c = .toDict r) :
      Raises (.state jobid) c err (.error err)
  | info {jobid r err} : Raises (.state jobid) (.jobListId jobid r) err (stateFailed F jobid err)
  | connect {jobid reason r err} : Raises (.cancel jobid reason) (.connect r) err (.error err)
  | cancel {jobid reason r err} :
      Raises (.cancel jobid reason) (.cancel jobid reason r) err (cancelFailed F jobid err)

/-- Not answered 503. -/
def Available (r : Except Exc Reply) : Prop := (afterRoute r).status ≠ 503

theorem available_error_iff {err : Exc} : Available (.error err) ↔ err.isA .osError = false := by
  unfold Available
  cases h : err.isA .osError with
  | true =>
    have hstatus : (afterRoute (.error err)).status = 503 := by simp only [afterRoute, h, if_true]; rfl
    exact iff_of_false (fun hne => hne hstatus) (by decide)
  | false =>
    have hstatus : (afterRoute (.error err)).status = 500 := by
      simp only [afterRoute, h, Bool.false_eq_true, if_false]
      rfl
    exact iff_of_true (by rw [hstatus]; decide) rfl

theorem ends_attrInt (h : F.Handle) (name : Str) : Proc.Emits World.called
    (Ends (Passes fun c => ∃ name r, c = .attrGet name r) Mild) (attrInt F site h name) := by
  apply ends_seq (ends_query (fun c => ∃ name r, c = .attrGet name r) (fun _ => rfl)
    (fun _ => rfl) (fun r => ⟨name, r, rfl⟩) _)
  · intro c err r hc
    exact ⟨err, hc.2, hc.1, rfl⟩
  · intro err hr err' he
    cases he
    exact hr err rfl
  · intro s _
    cases intText site.intLimit s with
    | some n => exact ends_pure (mild_ok n)
    | none =>
      apply ends_throw
      intro err he
      cases he
      rfl

theorem ends_root : Proc.Emits World.called (Ends (Op.Raises .root) Available) (root F site) := by
  have hattr : ∀ (c : FluxCall F) err (r : Except Exc Str),
      Passes (fun c => ∃ name r, c = .attrGet name r) c err r →
        ∃ err', r = .error err' ∧ Op.Raises .root c err (.error err') := fun c err r hc =>
    ⟨err, hc.2, .root (Or.inr hc.1)⟩
  have hattrInt : ∀ (c : FluxCall F) err (r : Except Exc ℤ),
      Passes (fun c => ∃ name r, c = .attrGet name r) c err r →
        ∃ err', r = .error err' ∧ Op.Raises .root c err (.error err') := fun c err r hc =>
    ⟨err, hc.2, .root (Or.inr hc.1)⟩
  unfold root
  apply ends_seq ends_flux
  · intro c err r hc
    exact ⟨err, hc.2, .root (Or.inl hc.1)⟩
  · intro err hr
    exact available_error_iff.mpr (hr err rfl)
  intro h _
  apply ends_seq (ends_query (fun c => ∃ name r, c = .attrGet name r) (fun _ => rfl)
    (fun _ => rfl) (fun r => ⟨_, r, rfl⟩) _) hattr
  · intro err hr
    exact available_error_iff.mpr (hr err rfl)
  intro version _
  apply ends_seq (ends_attrInt site h _) hattrInt
  · intro err hr
    exact available_error_iff.mpr (hr err rfl)
  intro rank _
  apply ends_seq (ends_attrInt site h _) hattrInt
  · intro err hr
    exact available_error_iff.mpr (hr err rfl)
  intro size _
  apply ends_pure
  exact (by decide : 200 ≠ 503)

theorem available_submitFailed {err : Exc} (h : Available (.error err)) :
    Available (submitFailed err) := by
  rcases hf : submitFailed err with err' | reply
  · have hos := available_error_iff.mp h
    unfold submitFailed at hf
    rw [hos] at hf
    split_ifs at hf with h1 h2 h3 <;> first | exact absurd h1 (by decide) | (cases hf; exact h)
  · unfold Available afterRoute
    dsimp only
    rw [(submitFailed_status hf).1]
    decide

theorem ends_submitJob (fields : List (Str × Json)) (jobspec : F.Jobspec) :
    Proc.Emits World.called (Ends (Op.Raises (.submit fields)) Available)
      (submitJob F jobspec) := by
  have hcall : Proc.Emits World.called (Ends (Passes fun c => (∃ r, c = .connect r) ∨
      ∃ jobspec r, c = .submit jobspec r) Available) (do
        let h ← flux F
        let jobid ← invoke (.submit jobspec) (F.submit h jobspec)
        return jobCreated F jobid) := by
    apply ends_seq ends_flux
    · intro c err r hc
      exact ⟨err, hc.2, Or.inl hc.1, rfl⟩
    · intro err hr
      exact available_error_iff.mpr (hr err rfl)
    intro h _
    apply ends_seq (ends_query (fun c => ∃ jobspec r, c = .submit jobspec r)
      (fun _ => rfl) (fun _ => rfl) (fun r => ⟨jobspec, r, rfl⟩) _)
    · intro c err r hc
      exact ⟨err, hc.2, Or.inr hc.1, rfl⟩
    · intro err hr
      exact available_error_iff.mpr (hr err rfl)
    intro jobid _
    apply ends_pure
    exact (by decide : 201 ≠ 503)
  apply ends_tryCatch hcall
  · intro c err r hc
    exact ⟨err, hc.2, .submit hc.1⟩
  · intro reply h
    exact h
  · intro err h
    exact available_submitFailed h

/-- A call whose exceptions are answered on the spot, and what follows when it returns. -/
theorem ends_caught {op : Op F} {note : Except Exc α → FluxCall F}
    (hok : ∀ a, (note (.ok a)).raised = none) (herr : ∀ err, (note (.error err)).raised = some err)
    {failed : Exc → Except Exc Reply} (hf : ∀ err, op.Raises (note (.error err)) err (failed err))
    (call : Proc F.State α) {k : Reply ⊕ α → Proc (World F) Reply}
    (hreply : ∀ reply, k (.inl reply) = pure reply)
    (hk : ∀ a, Proc.Emits World.called (Ends op.Raises Available) (k (.inr a))) :
    Proc.Emits World.called (Ends op.Raises Available)
      ((tryCatch (.inr <$> invoke note call) fun err => .inl <$> Proc.ofExcept (failed err)) >>= k) := by
  have hcall : Proc.Emits World.called
      (Ends (fun c err r => c = note (.error err) ∧ r = .error err) fun r => ∃ a, r = .ok (.inr a))
      ((.inr : α → Reply ⊕ α) <$> invoke note call) := by
    have hinvoke : Proc.Emits World.called (Ends (fun c err r => c = note (.error err) ∧
        r = .error err) fun r => ∃ a, r = .ok a) (invoke note call) :=
      ends_invoke hok herr (fun _ => ⟨rfl, rfl⟩) (fun a => ⟨a, rfl⟩) call
    apply ends_seq hinvoke
    · intro c err r hc
      exact ⟨err, hc.2, hc.1, rfl⟩
    · rintro err ⟨a, hr⟩
      cases hr
    · intro a _
      exact ends_pure ⟨a, rfl⟩
  have hcaught : Proc.Emits World.called
      (Ends (fun c err r => c = note (.error err) ∧ r = (failed err).map .inl)
        fun r => ∃ a, r = .ok (.inr a))
      (tryCatch ((.inr : α → Reply ⊕ α) <$> invoke note call)
        fun err => .inl <$> Proc.ofExcept (failed err)) := by
    simp only [Proc.map_ofExcept]
    apply ends_tryCatch hcall
    · intro c err r hc
      exact ⟨err, hc.2, hc.1, rfl⟩
    · intro a h
      exact h
    · rintro err ⟨a, hr⟩
      cases hr
  apply hcaught.seq
  · intro l err hl
    cases hl with
    | returned hl h =>
      obtain ⟨a, hr⟩ := h
      cases hr
    | @raised l c err' r hl hc h =>
      obtain ⟨rfl, hr⟩ := h
      rcases hfailed : failed err' with err'' | reply
      · rw [hfailed] at hr
        cases hr
        exact .raised hl hc (hfailed ▸ hf err')
      · rw [hfailed] at hr
        cases hr
  · intro l made hl
    cases hl with
    | returned hl h =>
      obtain ⟨a, hr⟩ := h
      cases hr
      exact (hk a).imp fun l' r h => h.append hl
    | @raised l c err' r hl hc h =>
      obtain ⟨rfl, hr⟩ := h
      rcases hfailed : failed err' with err'' | reply
      · rw [hfailed] at hr
        cases hr
      · rw [hfailed] at hr
        cases hr
        rw [hreply]
        apply Proc.Emits.pure
        rw [List.append_nil]
        exact .raised hl hc (hfailed ▸ hf err')

theorem ends_jobsSubmit (fields : List (Str × Json)) : Proc.Emits World.called
    (Ends (Op.Raises (.submit fields)) Available) (jobsSubmit F site fields) := by
  unfold jobsSubmit
  cases commandOf fields with
  | none =>
    apply ends_pure
    exact (by decide : 400 ≠ 503)
  | some command =>
    cases site.passwd with
    | none => exact ends_throw (available_error_iff.mpr rfl)
    | some pw =>
      exact ends_caught (fun _ => rfl) (fun _ => rfl) (fun _ => .command) _ (fun _ => rfl)
        fun jobspec => ends_submitJob fields jobspec

theorem ends_jobsState (jobid : F.JobID) : Proc.Emits World.called
    (Ends (Op.Raises (.state jobid)) Available) (jobsState F jobid) := by
  apply ends_seq ends_flux
  · intro c err r hc
    exact ⟨err, hc.2, .state (Or.inl hc.1)⟩
  · intro err hr
    exact available_error_iff.mpr (hr err rfl)
  intro h _
  apply ends_caught (fun _ => rfl) (fun _ => rfl) (fun _ => .info) _ (fun _ => rfl)
  intro info
  apply ends_seq (ends_query (fun c => ∃ r, c = .toDict r) (fun _ => rfl) (fun _ => rfl)
    (fun r => ⟨r, rfl⟩) _)
  · intro c err r hc
    exact ⟨err, hc.2, .state (Or.inr hc.1)⟩
  · intro err hr
    exact available_error_iff.mpr (hr err rfl)
  intro body _
  apply ends_pure
  exact (by decide : 200 ≠ 503)

theorem available_cancelFailed {jobid : F.JobID} {err : Exc} (h : Available (.error err)) :
    Available (cancelFailed F jobid err) := by
  have hos := available_error_iff.mp h
  have hfnf : err.isA .fileNotFoundError = false := by
    cases hc : err.isA .fileNotFoundError with
    | true => rw [err.isA_osError_of_fileNotFound hc] at hos; exact hos
    | false => rfl
  have hperm : err.isA .permissionError = false := by
    cases hc : err.isA .permissionError with
    | true => rw [err.isA_osError_of_permission hc] at hos; exact hos
    | false => rfl
  simp only [cancelFailed, hfnf, hperm, Bool.false_eq_true, if_false]
  exact h

theorem ends_jobsCancel (jobid : F.JobID) (reason : Option Str) : Proc.Emits World.called
    (Ends (Op.Raises (.cancel jobid reason)) Available) (jobsCancel F jobid reason) := by
  apply ends_seq ends_flux
  · rintro c err r ⟨⟨r', rfl⟩, hr⟩
    exact ⟨err, hr, .connect⟩
  · intro err hr
    exact available_error_iff.mpr (hr err rfl)
  intro h _
  have hcall : Proc.Emits World.called
      (Ends (Passes fun c => ∃ r, c = .cancel jobid reason r) Available) (do
        invoke (.cancel jobid reason) (F.cancel h jobid reason)
        return cancelRequested F jobid) := by
    apply ends_seq (ends_query (fun c => ∃ r, c = .cancel jobid reason r) (fun _ => rfl)
      (fun _ => rfl) (fun r => ⟨r, rfl⟩) _)
    · intro c err r hc
      exact ⟨err, hc.2, hc.1, rfl⟩
    · intro err hr
      exact available_error_iff.mpr (hr err rfl)
    intro _ _
    apply ends_pure
    exact (by decide : 202 ≠ 503)
  apply ends_tryCatch hcall
  · rintro c err r ⟨⟨r', rfl⟩, hr⟩
    exact ⟨err, hr, .cancel⟩
  · intro reply h
    exact h
  · intro err h
    exact available_cancelFailed h

/-- What an operation answers, given the calls it made. -/
theorem Op.ends_route (op : Op F) :
    Proc.Emits World.called (Ends op.Raises Available) (op.route site) := by
  cases op with
  | root => exact ends_root site
  | submit fields => exact ends_jobsSubmit site fields
  | state jobid => exact ends_jobsState jobid
  | cancel jobid reason => exact ends_jobsCancel jobid reason

end Ends

end FluxRest
