import FluxRest.Flux

/-! The route functions, as the server's module defines them. -/
namespace FluxRest
open Py

def SERVER_NAME : Str := "flux-rest-server".toList
def PREFIX : Str := "/api/v1".toList
def MAX_BODY_SIZE : ℕ := 1024 * 1024

/-- What a route function returns; `headers` is the optional third component. -/
structure Reply where
  status : ℕ
  body : Json
  headers : Option (List (Str × Str)) := none

def errorBody (message : Str) : Json := .obj [("error".toList, .str message)]

/-- `status, {"error": message}`. -/
def Reply.error (status : ℕ) (message : Str) : Reply := ⟨status, errorBody message, none⟩

variable (F : Flux) (site : Site)

/-- `_flux()`. -/
def flux : Proc (World F) F.Handle := do
  match (← get).handle with
  | some h => return h
  | none =>
    let h ← invoke .connect F.connect
    modify fun w => { w with handle := some h }
    return h

/-- `_user()`. -/
def user : Str :=
  match site.passwd with
  | some pw => pw.name
  | none => natStr site.uid

/-- `int(h.attr_get(name))`. -/
def attrInt (h : F.Handle) (name : Str) : Proc (World F) ℤ := do
  let s ← invoke (.attrGet name) (F.attrGet h name)
  match intText site.intLimit s with
  | some n => return n
  | none => throw (.ofClass .valueError (intError site.intLimit site.repr s))

/-- `_root()`. -/
def root : Proc (World F) Reply := do
  let h ← flux F
  let version ← invoke (.attrGet "version".toList) (F.attrGet h "version".toList)
  let rank ← attrInt F site h "rank".toList
  let size ← attrInt F site h "size".toList
  return { status := 200, body := .obj [
    ("name".toList, .str SERVER_NAME),
    ("user".toList, .str (user site)),
    ("broker_version".toList, .str version),
    ("rank".toList, .int rank),
    ("size".toList, .int size)] }

/-- `_health()`. -/
def health : Proc (World F) Reply :=
  return { status := 200, body := .obj [("status".toList, .str "ok".toList)] }

/-- `body["command"]` where it is a non-empty list of strings. -/
def commandOf (body : List (Str × Json)) : Option (List Str) :=
  match lookup "command".toList body with
  | some (.arr (c :: cs)) => (c :: cs).mapM Json.str?
  | _ => none

/-- The environment a job gets when the request names none. -/
def defaultEnvironment (pw : Passwd) : Json := .obj [
  ("HOME".toList, .str pw.dir),
  ("USER".toList, .str pw.name),
  ("LOGNAME".toList, .str pw.name),
  ("PATH".toList, .str "/usr/local/bin:/usr/bin:/bin".toList),
  ("SHELL".toList, .str pw.shell)]

/-- The keyword arguments of `from_command`. -/
def jobKwargs (pw : Passwd) (body : List (Str × Json)) : List (Str × Json) :=
  let kwargs := body.filter fun e => e.1 ≠ "command".toList && !e.2.isNull
  let kwargs := setDefault "cwd".toList (.str pw.dir) kwargs
  setDefault "environment".toList (defaultEnvironment pw) kwargs

/-- The answer to a submission Flux accepted. -/
def jobCreated (jobid : F.JobID) : Reply :=
  let fluid := F.f58plain jobid
  { status := 201, body := .obj [("id".toList, .str fluid)],
    headers := some [("Location".toList, PREFIX ++ "/jobs/".toList ++ fluid)] }

/-- The `except` clause around `from_command`: a reply, or the exception goes on. -/
def fromCommandFailed (err : Exc) : Except Exc Reply :=
  if err.isA .valueError || err.isA .typeError then
    .ok (.error 400 ("invalid jobspec: ".toList ++ err.message))
  else .error err

/-- The `except` clauses around `flux.job.submit`. -/
def submitFailed (err : Exc) : Except Exc Reply :=
  if err.isA .osError then
    if err.errno = some EINVAL then .ok (.error 400 err.message) else .error err
  else if err.isA .runtimeError || err.isA .valueError then .ok (.error 400 err.message)
  else .error err

/-- The second half of `_jobs_submit`, from the jobspec on. -/
def submitJob (jobspec : F.Jobspec) : Proc (World F) Reply :=
  tryCatch
    (do
      let h ← flux F
      let jobid ← invoke (.submit jobspec) (F.submit h jobspec)
      return jobCreated F jobid)
    fun err => Proc.ofExcept (submitFailed err)

/-- `_jobs_submit(body)`. -/
def jobsSubmit (body : List (Str × Json)) : Proc (World F) Reply :=
  match commandOf body with
  | none => return .error 400 "'command' must be a non-empty list of strings".toList
  | some command =>
    match site.passwd with
    -- the text of a `KeyError` is the `repr` of its argument
    | none => throw (.ofClass .keyError
        (site.repr ("getpwuid(): uid not found: ".toList ++ natStr site.uid)))
    | some pw => do
      let kwargs := jobKwargs pw body
      let made : Reply ⊕ F.Jobspec ← tryCatch
        (.inr <$> invoke (.fromCommand command kwargs) (F.fromCommand command kwargs))
        fun err => .inl <$> Proc.ofExcept (fromCommandFailed err)
      match made with
      | .inl reply => return reply
      | .inr jobspec => submitJob F jobspec

/-- `_parse_job_path(path)`: the job id, nothing when the path has another shape, or the text
of the `ValueError`. -/
def parseJobPath (path : Str) : Except Str (Option F.JobID) :=
  let pre := PREFIX ++ "/jobs/".toList
  if !pre.isPrefixOf path then .ok none
  else
    let jobidStr := unquote (path.drop pre.length)
    if jobidStr = [] ∨ '/' ∈ jobidStr then .ok none
    else (F.jobId jobidStr).map some

def noSuchJob (jobid : F.JobID) : Reply := .error 404 ("no such job: ".toList ++ F.f58plain jobid)

def cancelRequested (jobid : F.JobID) : Reply :=
  { status := 202, body := .obj [("id".toList, .str (F.f58plain jobid)),
      ("status".toList, .str "cancel requested".toList)] }

/-- The `except` clauses around `flux.job.cancel`. -/
def cancelFailed (jobid : F.JobID) (err : Exc) : Except Exc Reply :=
  if err.isA .fileNotFoundError then
    if "inactive".toList <:+: err.message then
      .ok (.error 409 ("job ".toList ++ F.f58plain jobid ++ " is already inactive, cannot cancel".toList))
    else .ok (noSuchJob F jobid)
  else if err.isA .permissionError then .ok (.error 403 err.message)
  else .error err

/-- `_jobs_cancel(jobid, reason)`. -/
def jobsCancel (jobid : F.JobID) (reason : Option Str) : Proc (World F) Reply := do
  let h ← flux F
  tryCatch
    (do
      invoke (.cancel jobid reason) (F.cancel h jobid reason)
      return cancelRequested F jobid)
    fun err => Proc.ofExcept (cancelFailed F jobid err)

/-- The `except` clause around `job_list_id`. -/
def stateFailed (jobid : F.JobID) (err : Exc) : Except Exc Reply :=
  if err.isA .fileNotFoundError then .ok (noSuchJob F jobid) else .error err

/-- `_jobs_state(jobid)`. -/
def jobsState (jobid : F.JobID) : Proc (World F) Reply := do
  let h ← flux F
  let found : Reply ⊕ F.JobInfo ← tryCatch
    (.inr <$> invoke (.jobListId jobid) (F.jobListId h jobid))
    fun err => .inl <$> Proc.ofExcept (stateFailed F jobid err)
  match found with
  | .inl reply => return reply
  | .inr info =>
    let body ← invoke .toDict (F.toDict info)
    let body := setItem "id".toList (.str (F.f58plain jobid)) body
    return { status := 200, body := .obj (popItem "jobid".toList body) }

/-- The route tables a handler dispatches on. -/
structure Tables where
  /-- `ROUTES`. -/
  routes : List (Str × Proc (World F) Reply)
  /-- `POST_ROUTES`. -/
  postRoutes : List (Str × (List (Str × Json) → Proc (World F) Reply))
  /-- `GET_JOB_ROUTE`. -/
  getJobRoute : Option (F.JobID → Proc (World F) Reply)
  /-- `DELETE_JOB_ROUTE`. -/
  deleteJobRoute : Option (F.JobID → Option Str → Proc (World F) Reply)

/-- The tables of the server's module. -/
def tables : Tables F where
  routes := [(PREFIX ++ "/".toList, root F site), (PREFIX ++ "/health".toList, health F)]
  postRoutes := [(PREFIX ++ "/jobs".toList, jobsSubmit F site)]
  getJobRoute := some (jobsState F)
  deleteJobRoute := some (jobsCancel F)

end FluxRest
