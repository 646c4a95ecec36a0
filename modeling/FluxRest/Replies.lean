import FluxRest.Spelling
import FluxRest.Response

/-! What the server answers a request with, and where the answer comes from. -/
namespace FluxRest
open Py Py.Http

variable {F : Flux} (site : Site)

def healthReply : Reply := { status := 200, body := .obj [("status".toList, .str "ok".toList)] }

/-- The path in which a `GET` or a `DELETE` looks for a job. -/
inductive Routed (req : Request) : Str → Prop
  | get (h : req.command = "GET".toList) : Routed req (before '?' req.path)
  | delete {parsed : SplitResult} (h : req.command = "DELETE".toList)
      (hurl : urlsplit site.hostError req.path = .ok parsed) : Routed req parsed.path

/-- The reply to a request, by what the request asks for. -/
inductive Answer (req : Request) (w : World F) : Reply → Prop
  | op {op : Op F} (h : op.Asks site req) :
      Answer req w (afterRoute ((op.route site).run (w.log (.route op.call))).1)
  | health (hget : req.command = "GET".toList) (hpath : before '?' req.path = PREFIX ++ "/health".toList) :
      Answer req w healthReply
  /-- The id in the path is malformed. -/
  | malformedId {path message : Str} (hpath : Routed site req path)
      (hid : parseJobPath F path = .error message) : Answer req w (.error 400 message)
  /-- The path is no path of a job, and has no route of its own. -/
  | noJob {path : Str} (hpath : Routed site req path)
      (hget : req.command = "GET".toList → lookup path (tables F site).routes = none)
      (hid : parseJobPath F path = .ok none) : Answer req w (notFound path)
  | noPost (hpost : req.command = "POST".toList) (hpath : before '?' req.path ≠ PREFIX ++ "/jobs".toList) :
      Answer req w (notFound (before '?' req.path))
  /-- The body of a submission is refused. -/
  | badBody {message : Str} (hpost : req.command = "POST".toList)
      (hpath : before '?' req.path = PREFIX ++ "/jobs".toList) : Answer req w (.error 400 message)

variable {site} {req : Request}

theorem jobsPath_of_error {path message : Str} (h : parseJobPath F path = .error message) :
    jobsPath <+: path := by
  by_contra hp
  rw [parseJobPath_of_unprefixed hp] at h
  cases h

theorem answer_doGET (hget : req.command = "GET".toList) (w : World F) : ∃ reply,
    Answer site req w reply ∧ written (doGET F site (tables F site) req) w = sent site req reply := by
  rw [← handleOneRequest_get hget]
  cases hl : lookup (before '?' req.path) (tables F site).routes with
  | some route =>
    have hkey := mem_of_lookup hl
    simp only [tables, List.mem_cons, Prod.mk.injEq, List.not_mem_nil, or_false] at hkey
    obtain ⟨hpath, -⟩ | ⟨hpath, -⟩ := hkey
    · have hasks : (Op.root : Op F).Asks site req := ⟨hget, hpath⟩
      exact ⟨_, .op hasks, (handled_of_asks site hasks w).2⟩
    · have hroute : lookup (PREFIX ++ "/health".toList) (tables F site).routes = some (health F) := by
        simp [lookup, tables]
      refine ⟨healthReply, .health hget hpath, ?_⟩
      rw [handleOneRequest_get hget, doGET]
      rw [hpath, hroute]
      dsimp only
      rw [unpackPair_health, written_guarded site req _ _ keeps_health plain_health]
      rfl
  | none =>
    rcases hj : parseJobPath F (before '?' req.path) with message | _ | jobid
    · refine ⟨_, .malformedId (.get hget) hj, ?_⟩
      rw [handleOneRequest_get hget, doGET]
      rw [hl, hj]
      exact written_send site req (plain_of_none rfl) w
    · refine ⟨_, .noJob (.get hget) (fun _ => hl) hj, ?_⟩
      rw [handleOneRequest_get hget, doGET]
      rw [hl, hj]
      exact written_send site req (plain_of_none rfl) w
    · have hasks : (Op.state jobid).Asks site req := ⟨hget, hl, hj⟩
      exact ⟨_, .op hasks, (handled_of_asks site hasks w).2⟩

theorem answer_doPOST (hpost : req.command = "POST".toList) (hs : Served site req) (w : World F) :
    ∃ reply, Answer site req w reply ∧
      written (doPOST F site (tables F site) req) w = sent site req reply := by
  have hv : req.version ≠ none := Request.version_ne_none hs.version
  rw [← handleOneRequest_post hpost hv]
  by_cases hpath : before '?' req.path = PREFIX ++ "/jobs".toList
  · rcases hr : readBody site req with err | reply | fields
    · exact absurd ((readBody_error_iff site req).mp ⟨err, hr⟩) (hs.readable hpost hpath)
    · obtain ⟨message, rfl⟩ := readBody_refused_plain site hr
      refine ⟨.error 400 message, .badBody hpost hpath, ?_⟩
      rw [handleOneRequest_post hpost hv, doPOST]
      rw [hpath, tables_postRoutes_jobs]
      dsimp only
      rw [hr]
      exact written_send site req (plain_of_none rfl) w
    · have hasks : (Op.submit fields : Op F).Asks site req := ⟨hpost, hv, hpath, hr⟩
      exact ⟨_, .op hasks, (handled_of_asks site hasks w).2⟩
  · refine ⟨_, .noPost hpost hpath, ?_⟩
    rw [handleOneRequest_post hpost hv, doPOST]
    cases hl : lookup (before '?' req.path) (tables F site).postRoutes with
    | some route => exact absurd (tables_postRoutes hl).1 hpath
    | none => exact written_send site req (plain_of_none rfl) w

theorem answer_doDELETE (hdelete : req.command = "DELETE".toList) (hs : Served site req)
    (w : World F) : ∃ reply, Answer site req w reply ∧
      written (doDELETE F site (tables F site) req) w = sent site req reply := by
  have hget : req.command ≠ "GET".toList := by
    rw [hdelete]
    decide
  have hv : req.version ≠ none := Request.version_ne_none hs.version
  rw [← handleOneRequest_delete hdelete hv]
  rcases hu : urlsplit site.hostError req.path with message | parsed
  · exact absurd hu (hs.target hdelete message)
  · rcases hj : parseJobPath F parsed.path with message | _ | jobid
    · refine ⟨_, .malformedId (.delete hdelete hu) hj, ?_⟩
      rw [handleOneRequest_delete hdelete hv, doDELETE, hu]
      dsimp only
      rw [hj]
      exact written_send site req (plain_of_none rfl) w
    · refine ⟨_, .noJob (.delete hdelete hu) (fun h => absurd h hget) hj, ?_⟩
      rw [handleOneRequest_delete hdelete hv, doDELETE, hu]
      dsimp only
      rw [hj]
      exact written_send site req (plain_of_none rfl) w
    · have hasks : (Op.cancel jobid (parseQsFirst "reason".toList parsed.query)).Asks site req :=
        ⟨hdelete, hv, parsed, hu, hj, rfl⟩
      exact ⟨_, .op hasks, (handled_of_asks site hasks w).2⟩

/-- A request that is served gets its answer and nothing else. -/
theorem answer_of_served (hm : req.command ∈ ["GET".toList, "POST".toList, "DELETE".toList])
    (hs : Served site req) (w : World F) : ∃ reply, Answer site req w reply ∧
      written (handleOneRequest F site (tables F site) req) w = sent site req reply := by
  have hv : req.version ≠ none := Request.version_ne_none hs.version
  simp only [List.mem_cons, List.not_mem_nil, or_false] at hm
  obtain hget | hpost | hdelete := hm
  · rw [handleOneRequest_get hget]
    exact answer_doGET hget w
  · rw [handleOneRequest_post hpost hv]
    exact answer_doPOST hpost hs w
  · rw [handleOneRequest_delete hdelete hv]
    exact answer_doDELETE hdelete hs w

/-! What each route can return. -/

variable (F) in
/-- `info` is what `job_list_id` returned for some job. -/
def Listed (info : F.JobInfo) : Prop := ∃ h jobid s, ((F.jobListId h jobid).run s).1 = .ok info

/-- The body of a job's state, from what `to_dict` returned. -/
def stateBody (jobid : F.JobID) (items : List (Str × Json)) : Json :=
  .obj (popItem "jobid".toList (setItem "id".toList (.str (F.f58plain jobid)) items))

variable (site) in
inductive Op.Replies : Op F → Reply → Prop
  | root {version : Str} {rank size : ℤ} (hrank : ∃ s, intText site.intLimit s = some rank)
      (hsize : ∃ s, intText site.intLimit s = some size) :
      Replies .root { status := 200, body := .obj [
        ("name".toList, .str SERVER_NAME),
        ("user".toList, .str (user site)),
        ("broker_version".toList, .str version),
        ("rank".toList, .int rank),
        ("size".toList, .int size)] }
  | rejected {fields message} : Replies (.submit fields) (.error 400 message)
  | created {fields} (jobid : F.JobID) : Replies (.submit fields) (jobCreated F jobid)
  | state {jobid info s items} (hinfo : Listed F info) (hitems : ((F.toDict info).run s).1 = .ok items) :
      Replies (.state jobid) { status := 200, body := stateBody jobid items }
  | unknown {jobid} : Replies (.state jobid) (noSuchJob F jobid)
  | cancelled {jobid reason} : Replies (.cancel jobid reason) (cancelRequested F jobid)
  | failed {jobid reason status message} (hstatus : status ∈ [409, 404, 403]) :
      Replies (.cancel jobid reason) (.error status message)

theorem returns_attrInt (h : F.Handle) (name : Str) :
    Proc.Returns (fun n => ∃ s, intText site.intLimit s = some n) (attrInt F site h name) := by
  refine .bind fun s => ?_
  cases hs : intText site.intLimit s with
  | some n => exact .pure ⟨s, hs⟩
  | none => exact .throw _

theorem returns_invoke {α : Type} {note : Except Exc α → FluxCall F} {call : Proc F.State α} :
    Proc.Returns (fun a => ∃ s, (call.run s).1 = .ok a) (invoke note call) := by
  intro w a h
  rw [run_invoke] at h
  exact ⟨w.flux, h⟩

theorem fromCommandFailed_reply {err : Exc} {reply : Reply} (h : fromCommandFailed err = .ok reply) :
    ∃ message, reply = .error 400 message := by
  unfold fromCommandFailed at h
  split_ifs at h
  cases h
  exact ⟨_, rfl⟩

theorem submitFailed_reply {err : Exc} {reply : Reply} (h : submitFailed err = .ok reply) :
    ∃ message, reply = .error 400 message := by
  unfold submitFailed at h
  split_ifs at h
  · cases h
    exact ⟨_, rfl⟩
  · cases h
    exact ⟨_, rfl⟩

theorem stateFailed_reply {jobid : F.JobID} {err : Exc} {reply : Reply}
    (h : stateFailed F jobid err = .ok reply) : reply = noSuchJob F jobid := by
  unfold stateFailed at h
  split_ifs at h
  cases h
  rfl

theorem cancelFailed_reply {jobid : F.JobID} {err : Exc} {reply : Reply}
    (h : cancelFailed F jobid err = .ok reply) :
    ∃ status message, status ∈ [409, 404, 403] ∧ reply = .error status message := by
  have hstatus := (cancelFailed_status h).1
  unfold cancelFailed at h
  split_ifs at h <;> (cases h; exact ⟨_, _, hstatus, rfl⟩)

theorem replies_jobsSubmit (fields : List (Str × Json)) :
    Proc.Returns (Op.Replies (F := F) site (.submit fields)) (jobsSubmit F site fields) := by
  have hsubmit : ∀ jobspec,
      Proc.Returns (Op.Replies (F := F) site (.submit fields)) (submitJob F jobspec) := by
    intro jobspec
    refine .tryCatch (.bind fun h => .bind fun jobid => .pure (.created jobid)) fun err => ?_
    refine .ofExcept fun reply h => ?_
    obtain ⟨message, rfl⟩ := submitFailed_reply h
    exact .rejected
  unfold jobsSubmit
  cases commandOf fields with
  | none => exact .pure .rejected
  | some command =>
    cases site.passwd with
    | none => exact .throw _
    | some pw =>
      refine .seq (P := fun r => ∀ reply, r = .inl reply → Op.Replies (F := F) site (.submit fields) reply)
        ?_ fun made hmade => ?_
      · refine .tryCatch (.map (.trivial _) fun _ _ _ h => by cases h) fun err => ?_
        refine .map (.ofExcept fun reply h => h) fun reply hreply r hr => ?_
        cases hr
        obtain ⟨message, rfl⟩ := fromCommandFailed_reply hreply
        exact .rejected
      · cases made with
        | inl reply => exact .pure (hmade reply rfl)
        | inr jobspec => exact hsubmit jobspec

theorem replies_jobsState (jobid : F.JobID) :
    Proc.Returns (Op.Replies site (.state jobid)) (jobsState F jobid) := by
  refine .bind fun h => .seq (P := fun r => (∀ reply, r = .inl reply → reply = noSuchJob F jobid) ∧
    ∀ info, r = .inr info → Listed F info) ?_ fun found hfound => ?_
  · refine .tryCatch (.map returns_invoke fun info hinfo => ?_) fun err => ?_
    · refine ⟨fun reply hr => (by cases hr), fun info' hr => ?_⟩
      cases hr
      obtain ⟨s, hs⟩ := hinfo
      exact ⟨h, jobid, s, hs⟩
    · refine .map (.ofExcept fun reply hr => stateFailed_reply hr) fun reply hreply => ?_
      refine ⟨fun reply' hr => ?_, fun info hr => (by cases hr)⟩
      cases hr
      exact hreply
  · cases found with
    | inl reply =>
      rw [hfound.1 reply rfl]
      exact .pure .unknown
    | inr info =>
      refine .seq returns_invoke fun items hitems => ?_
      obtain ⟨s, hs⟩ := hitems
      exact .pure (.state (hfound.2 info rfl) hs)

theorem replies_jobsCancel (jobid : F.JobID) (reason : Option Str) :
    Proc.Returns (Op.Replies site (.cancel jobid reason)) (jobsCancel F jobid reason) := by
  refine .bind fun h => .tryCatch (.bind fun _ => .pure .cancelled) fun err => ?_
  refine .ofExcept fun reply hr => ?_
  obtain ⟨status, message, hstatus, rfl⟩ := cancelFailed_reply hr
  exact .failed hstatus

theorem Op.returns_route (site : Site) (op : Op F) : Proc.Returns (op.Replies site) (op.route site) := by
  cases op with
  | root =>
    refine .bind fun h => .bind fun version => ?_
    refine .seq (returns_attrInt h _) fun rank hrank => ?_
    exact .seq (returns_attrInt h _) fun size hsize => .pure (.root hrank hsize)
  | submit fields => exact replies_jobsSubmit fields
  | state jobid => exact replies_jobsState jobid
  | cancel jobid reason => exact replies_jobsCancel jobid reason

/-- The reply to an operation is one of its route's, or says that the route raised. -/
theorem Op.afterRoute_cases (site : Site) (op : Op F) (w : World F) :
    op.Replies site (afterRoute ((op.route site).run w).1) ∨
      (∃ err, afterRoute ((op.route site).run w).1 = unavailable err) ∨
      ∃ err, ((op.route site).run w).1 = .error err ∧ err.isA .osError = false ∧
        afterRoute ((op.route site).run w).1 = internalError := by
  have hreturns := Op.returns_route site op w
  rcases hr : ((op.route site).run w).1 with err | reply
  · dsimp only [afterRoute]
    split_ifs with hos
    · exact Or.inr (Or.inl ⟨err, rfl⟩)
    · exact Or.inr (Or.inr ⟨err, rfl, by simpa using hos, rfl⟩)
  · exact Or.inl (hreturns reply hr)

end FluxRest
