import FluxRest.Openapi
import FluxRest.Delivery
import FluxRest.Py.Schema

/-! The OpenAPI document of the v1 API: the responses it lists for each operation, and the responses
that the server gives. -/
namespace FluxRest
open Py Py.Http Py.Json

variable {F : Flux} {site : Site}

/-- `JobId`. -/
def jobIdSchema : Schema := .string

/-- `InstanceInfo`. -/
def instanceInfoSchema : Schema := .object [] [
  ("name".toList, .string),
  ("user".toList, .string),
  ("broker_version".toList, .string),
  ("rank".toList, .integer none),
  ("size".toList, .integer none)] .any

/-- `Error`. -/
def errorSchema : Schema := .object ["error".toList] [
  ("error".toList, .string),
  ("detail".toList, .string),
  ("path".toList, .string)] .any

/-- `command` of `JobSubmission`. -/
def commandSchema : Schema := .array .string 1

/-- `JobSubmission`. -/
def jobSubmissionSchema : Schema := .object ["command".toList] [
  ("command".toList, commandSchema),
  ("num_tasks".toList, .integer (some 1)),
  ("num_nodes".toList, .integer (some 1)),
  ("cores_per_task".toList, .integer (some 1)),
  ("cwd".toList, .string),
  ("environment".toList, .object [] [] .string)] .any

/-- An operation with the responses that the document lists for it. -/
structure Described where
  operation : Operation
  responses : List (ℕ × Schema)

namespace Api

/-! `components/responses`. -/

def forbidden : ℕ × Schema := (403, errorSchema)
def badRequest : ℕ × Schema := (400, errorSchema)
def fluxUnavailable : ℕ × Schema := (503, errorSchema)
def notFound : ℕ × Schema := (404, errorSchema)

/-! `paths`, by the `operationId` of each operation. -/

def getInstanceInfo : Described where
  operation := ("/".toList, "get".toList)
  responses := [(200, instanceInfoSchema), forbidden, fluxUnavailable]

def getHealth : Described where
  operation := ("/health".toList, "get".toList)
  responses := [(200, .object [] [("status".toList, .const "ok".toList)] .any), forbidden]

def submitJob : Described where
  operation := ("/jobs".toList, "post".toList)
  responses := [(201, .object ["id".toList] [("id".toList, jobIdSchema)] .any), badRequest, forbidden,
    fluxUnavailable]

def getJob : Described where
  operation := (JOB_PATH, "get".toList)
  responses := [
    (200, .object ["id".toList, "state".toList] [("id".toList, jobIdSchema), ("state".toList, .string)] .any),
    badRequest, forbidden, notFound, fluxUnavailable]

def cancelJob : Described where
  operation := (JOB_PATH, "delete".toList)
  responses := [
    (202, .object ["id".toList, "status".toList] [("id".toList, jobIdSchema),
      ("status".toList, .const "cancel requested".toList)] .any),
    badRequest, forbidden, notFound, (409, errorSchema), fluxUnavailable]

def described : List Described := [getInstanceInfo, getHealth, submitJob, getJob, cancelJob]

/-- The operations are those of the document whose coverage is checked. -/
example : described.map Described.operation = documentedOperations document := by decide

end Api

/-- A reply is one of the responses that are described. -/
def Described.Lists (d : Described) (reply : Reply) : Prop :=
  ∃ schema, (reply.status, schema) ∈ d.responses ∧ schema.accepts reply.body = true

/-- What `to_dict` returns tells the state of the job. -/
def TellsState (F : Flux) : Prop := ∀ info s items, Listed F info →
  ((F.toDict info).run s).1 = .ok items → ∃ state, lookup "state".toList items = some (.str state)

/-- The reply to a route that raised what is no `OSError`. -/
def Unhandled (site : Site) (req : Request) (w : World F) (reply : Reply) : Prop :=
  ∃ (op : Op F) (err : Exc), op.Asks site req ∧
    ((op.route site).run (w.log (.route op.call))).1 = .error err ∧ err.isA .osError = false ∧
    reply = internalError

/-! Which requests are instances of an operation. -/

theorem eq_of_instance {template path : Str} (h : Instance template path)
    (hl : ∀ t ∈ template.splitOn '/', t.head? ≠ some '\x7b') : path = template := by
  have hsegments : template.splitOn '/' = path.splitOn '/' := by
    unfold Instance at h
    generalize template.splitOn '/' = ts at h hl
    generalize path.splitOn '/' = ps at h
    induction h with
    | nil => rfl
    | cons hfirst _ ih =>
      obtain ⟨hl1, hl2⟩ := List.forall_mem_cons.mp hl
      rw [hfirst.resolve_right fun hparam => hl1 hparam.1, ih hl2]
  have hjoin : ['/'].intercalate (path.splitOn '/') = path := List.intercalate_splitOn '/'
  rw [← hjoin, ← hsegments, List.intercalate_splitOn]

theorem jobs_of_instance {path : Str} (h : Instance JOB_PATH path) :
    ∃ id, id ≠ [] ∧ path = "/jobs/".toList ++ id := by
  have htemplate : JOB_PATH.splitOn '/' = [[], "jobs".toList, "\x7bjobid\x7d".toList] := by decide
  unfold Instance at h
  rw [htemplate] at h
  rcases hpath : path.splitOn '/' with _ | ⟨a, _ | ⟨b, _ | ⟨id, _ | ⟨_, _⟩⟩⟩⟩ <;> rw [hpath] at h
  · cases h
  · cases h with
    | cons _ h => cases h
  · cases h with
    | cons _ h => cases h with
      | cons _ h => cases h
  · cases h with
    | cons ha h => cases h with
      | cons hb h => cases h with
        | cons hid _ =>
          have hempty : a = [] := (ha.resolve_right fun hparam => by cases hparam.1).symm
          have hjobs : b = "jobs".toList := (hb.resolve_right fun hparam => by cases hparam.1).symm
          refine ⟨id, ?_, ?_⟩
          · obtain rfl | hparam := hid
            · decide
            · exact hparam.2
          · have hjoin : ['/'].intercalate (path.splitOn '/') = path := List.intercalate_splitOn '/'
            have hslashes : "/jobs/".toList = '/' :: ("jobs".toList ++ ['/']) := by decide
            rw [← hjoin, hpath, hempty, hjobs, hslashes]
            generalize "jobs".toList = jobs
            simp [List.intercalate]
  · cases h with
    | cons _ h => cases h with
      | cons _ h => cases h with
        | cons _ h => cases h

theorem routed_get {req : Request} (hget : req.command = "GET".toList) {path : Str}
    (h : Routed site req path) : path = before '?' req.path := by
  cases h with
  | get => rfl
  | delete hdelete => cases hget.symm.trans hdelete

/-! The responses. -/

theorem lists_error {d : Described} {status : ℕ} (h : (status, errorSchema) ∈ d.responses)
    (message : Str) : d.Lists (.error status message) := ⟨errorSchema, h, rfl⟩

theorem lists_unavailable {d : Described} (h : Api.fluxUnavailable ∈ d.responses) (err : Exc) :
    d.Lists (unavailable err) := ⟨errorSchema, h, rfl⟩

theorem lists_notFound {d : Described} (h : Api.notFound ∈ d.responses) (path : Str) :
    d.Lists (notFound path) := ⟨errorSchema, h, rfl⟩

theorem lookup_setItem_ne {α : Type} {k k' : Str} (h : k ≠ k') (v : α) (items : List (Str × α)) :
    lookup k (setItem k' v items) = lookup k items := by
  unfold setItem lookup
  split_ifs with hk
  · congr 1
    clear hk
    induction items with
    | nil => rfl
    | cons e items ih =>
      by_cases he : e.1 = k'
      · have hne : ¬ e.1 = k := fun hek => h (hek.symm.trans he)
        rw [List.map_cons, if_pos he, List.find?_cons_of_neg (by simpa using h.symm),
          List.find?_cons_of_neg (by simpa using hne)]
        exact ih
      · rw [List.map_cons, if_neg he]
        by_cases hek : e.1 = k
        · rw [List.find?_cons_of_pos (by simpa using hek), List.find?_cons_of_pos (by simpa using hek)]
        · rw [List.find?_cons_of_neg (by simpa using hek), List.find?_cons_of_neg (by simpa using hek)]
          exact ih
  · rw [List.find?_append]
    simp [h.symm]

theorem lists_root {version : Str} {rank size : ℤ} : Api.getInstanceInfo.Lists { status := 200, body := .obj [
    ("name".toList, .str SERVER_NAME),
    ("user".toList, .str (user site)),
    ("broker_version".toList, .str version),
    ("rank".toList, .int rank),
    ("size".toList, .int size)] } :=
  ⟨instanceInfoSchema, List.mem_cons_self, rfl⟩

theorem lists_state (hstates : TellsState F) {jobid : F.JobID} {info : F.JobInfo} {s : F.State}
    {items : List (Str × Json)} (hinfo : Listed F info) (hitems : ((F.toDict info).run s).1 = .ok items) :
    Api.getJob.Lists { status := 200, body := stateBody jobid items } := by
  obtain ⟨state, hstate⟩ := hstates info s items hinfo hitems
  have hid : lookup "id".toList (popItem "jobid".toList
      (setItem "id".toList (.str (F.f58plain jobid)) items)) = some (.str (F.f58plain jobid)) := by
    rw [lookup_popItem (by decide), lookup_setItem]
  have hstate' : lookup "state".toList (popItem "jobid".toList
      (setItem "id".toList (.str (F.f58plain jobid)) items)) = some (.str state) := by
    rw [lookup_popItem (by decide), lookup_setItem_ne (by decide), hstate]
  refine ⟨_, List.mem_cons_self, Schema.accepts_object.mpr ⟨?_, ?_⟩⟩
  · simp only [List.forall_mem_cons, List.not_mem_nil, false_implies, implies_true, and_true]
    exact ⟨⟨_, hid⟩, ⟨_, hstate'⟩⟩
  · simp only [List.forall_mem_cons, List.not_mem_nil, false_implies, implies_true, and_true]
    refine ⟨fun v hv => ?_, fun v hv => ?_⟩
    · rw [hid] at hv
      cases hv
      rfl
    · rw [hstate'] at hv
      cases hv
      rfl

/-- What comes of a route is listed, if what the route can return is. -/
theorem lists_op {d : Described} (h503 : Api.fluxUnavailable ∈ d.responses) {op : Op F} {req : Request}
    (hasks : op.Asks site req) (h : ∀ reply, op.Replies site reply → d.Lists reply) (w : World F) :
    d.Lists (afterRoute ((op.route site).run (w.log (.route op.call))).1) ∨
      Unhandled site req w (afterRoute ((op.route site).run (w.log (.route op.call))).1) := by
  obtain hr | ⟨err, hr⟩ | ⟨err, herr, hos, hr⟩ :=
    op.afterRoute_cases site (w.log (.route op.call))
  · exact Or.inl (h _ hr)
  · rw [hr]
    exact Or.inl (lists_unavailable h503 err)
  · exact Or.inr ⟨op, err, hasks, herr, hos, hr⟩

theorem not_routed_post {req : Request} (hpost : req.command = "POST".toList) {path : Str} :
    ¬ Routed site req path := by
  intro h
  cases h with
  | get hget => cases hpost.symm.trans hget
  | delete hdelete => cases hpost.symm.trans hdelete

/-! The answers to the requests for each operation. -/

section Answers

variable {req : Request} {w : World F} {reply : Reply} (h : Answer site req w reply)
include h

/-- A path that has a route of its own is answered by that route. -/
theorem answer_of_route (hget : req.command = "GET".toList)
    (hjob : ¬ jobsPath <+: before '?' req.path)
    (hroute : lookup (before '?' req.path) (tables F site).routes ≠ none) :
    ((Op.root : Op F).Asks site req ∧
      reply = afterRoute (((Op.root : Op F).route site).run (w.log (.route (Op.root : Op F).call))).1) ∨
    (before '?' req.path = PREFIX ++ "/health".toList ∧ reply = healthReply) := by
  cases h with
  | op hasks =>
    next op =>
      cases op with
      | root => exact Or.inl ⟨hasks, rfl⟩
      | submit => cases hget.symm.trans hasks.1
      | state => exact absurd hasks.2.1 hroute
      | cancel => cases hget.symm.trans hasks.1
  | health _ hpath => exact Or.inr ⟨hpath, rfl⟩
  | malformedId hrouted hid =>
    have hprefix := jobsPath_of_error hid
    rw [routed_get hget hrouted] at hprefix
    exact absurd hprefix hjob
  | noJob hrouted hnone =>
    have hnone := hnone hget
    rw [routed_get hget hrouted] at hnone
    exact absurd hnone hroute
  | noPost hpost => cases hget.symm.trans hpost
  | badBody hpost => cases hget.symm.trans hpost

theorem listed_getInstanceInfo (hget : req.command = "GET".toList)
    (hpath : before '?' req.path = PREFIX ++ "/".toList) :
    Api.getInstanceInfo.Lists reply ∨ Unhandled site req w reply := by
  have hroute : lookup (PREFIX ++ "/".toList) (tables F site).routes = some (FluxRest.root F site) := rfl
  have hjob : ¬ jobsPath <+: PREFIX ++ "/".toList := by decide
  have h503 : Api.fluxUnavailable ∈ Api.getInstanceInfo.responses := .tail _ (.tail _ (.head _))
  obtain ⟨hasks, rfl⟩ | ⟨hhealth, -⟩ :=
    answer_of_route h hget (hpath ▸ hjob) (by rw [hpath, hroute]; exact nofun)
  · refine lists_op h503 hasks (fun reply hr => ?_) w
    cases hr
    exact lists_root
  · cases hpath.symm.trans hhealth

theorem listed_getHealth (hget : req.command = "GET".toList)
    (hpath : before '?' req.path = PREFIX ++ "/health".toList) : Api.getHealth.Lists reply := by
  have hroute : lookup (PREFIX ++ "/health".toList) (tables F site).routes ≠ none := by
    simp [lookup, tables]
  have hjob : ¬ jobsPath <+: PREFIX ++ "/health".toList := by decide
  obtain ⟨hasks, -⟩ | ⟨-, rfl⟩ := answer_of_route h hget (hpath ▸ hjob) (hpath ▸ hroute)
  · cases hpath.symm.trans hasks.2
  · exact ⟨_, .head _, rfl⟩

theorem listed_submitJob (hpost : req.command = "POST".toList)
    (hpath : before '?' req.path = PREFIX ++ "/jobs".toList) :
    Api.submitJob.Lists reply ∨ Unhandled site req w reply := by
  have h400 : Api.badRequest ∈ Api.submitJob.responses := .tail _ (.head _)
  have h503 : Api.fluxUnavailable ∈ Api.submitJob.responses :=
    .tail _ (.tail _ (.tail _ (.head _)))
  cases h with
  | op hasks =>
    next op =>
      cases op with
      | submit fields =>
        refine lists_op h503 hasks (fun reply hr => ?_) w
        cases hr with
        | rejected => exact lists_error h400 _
        | created jobid => exact ⟨_, .head _, rfl⟩
      | root => cases hpost.symm.trans hasks.1
      | state => cases hpost.symm.trans hasks.1
      | cancel => cases hpost.symm.trans hasks.1
  | health hget => cases hpost.symm.trans hget
  | malformedId hrouted => exact absurd hrouted (not_routed_post hpost)
  | noJob hrouted => exact absurd hrouted (not_routed_post hpost)
  | noPost _ hother => exact absurd hpath hother
  | badBody => exact Or.inl (lists_error h400 _)

theorem listed_getJob (hstates : TellsState F) (hget : req.command = "GET".toList)
    (hpath : jobsPath <+: before '?' req.path) :
    Api.getJob.Lists reply ∨ Unhandled site req w reply := by
  have h400 : Api.badRequest ∈ Api.getJob.responses := .tail _ (.head _)
  have h404 : Api.notFound ∈ Api.getJob.responses := .tail _ (.tail _ (.tail _ (.head _)))
  have h503 : Api.fluxUnavailable ∈ Api.getJob.responses :=
    .tail _ (.tail _ (.tail _ (.tail _ (.head _))))
  cases h with
  | op hasks =>
    next op =>
      cases op with
      | state jobid =>
        refine lists_op h503 hasks (fun reply hr => ?_) w
        cases hr with
        | state hinfo hitems => exact lists_state hstates hinfo hitems
        | unknown => exact lists_error h404 _
      | root =>
        rw [hasks.2] at hpath
        exact absurd hpath (by decide)
      | submit => cases hget.symm.trans hasks.1
      | cancel => cases hget.symm.trans hasks.1
  | health _ hhealth =>
    rw [hhealth] at hpath
    exact absurd hpath (by decide)
  | malformedId => exact Or.inl (lists_error h400 _)
  | noJob => exact Or.inl (lists_notFound h404 _)
  | noPost hpost => cases hget.symm.trans hpost
  | badBody hpost => cases hget.symm.trans hpost

theorem listed_cancelJob (hdelete : req.command = "DELETE".toList) :
    Api.cancelJob.Lists reply ∨ Unhandled site req w reply := by
  have h400 : Api.badRequest ∈ Api.cancelJob.responses := .tail _ (.head _)
  have h403 : Api.forbidden ∈ Api.cancelJob.responses := .tail _ (.tail _ (.head _))
  have h404 : Api.notFound ∈ Api.cancelJob.responses := .tail _ (.tail _ (.tail _ (.head _)))
  have h409 : (409, errorSchema) ∈ Api.cancelJob.responses :=
    .tail _ (.tail _ (.tail _ (.tail _ (.head _))))
  have h503 : Api.fluxUnavailable ∈ Api.cancelJob.responses :=
    .tail _ (.tail _ (.tail _ (.tail _ (.tail _ (.head _)))))
  cases h with
  | op hasks =>
    next op =>
      cases op with
      | cancel jobid reason =>
        refine lists_op h503 hasks (fun reply hr => ?_) w
        cases hr with
        | cancelled => exact ⟨_, .head _, rfl⟩
        | failed hstatus =>
          simp only [List.mem_cons, List.not_mem_nil, or_false] at hstatus
          obtain rfl | rfl | rfl := hstatus
          · exact lists_error h409 _
          · exact lists_error h404 _
          · exact lists_error h403 _
      | root => cases hdelete.symm.trans hasks.1
      | submit => cases hdelete.symm.trans hasks.1
      | state => cases hdelete.symm.trans hasks.1
  | health hget => cases hdelete.symm.trans hget
  | malformedId => exact Or.inl (lists_error h400 _)
  | noJob => exact Or.inl (lists_notFound h404 _)
  | noPost hpost => cases hdelete.symm.trans hpost
  | badBody hpost => cases hdelete.symm.trans hpost

end Answers

/-- A served request for an operation is answered with a response that the document lists for it,
unless the route raised what is no `OSError`. -/
theorem response_documented (hstates : TellsState F) {req : Request}
    (hm : req.command ∈ ["GET".toList, "POST".toList, "DELETE".toList]) (hs : Served site req)
    {d : Described} (hd : d ∈ Api.described) (hasked : d.operation.Asked req) (w : World F) : ∃ reply,
      written (handleOneRequest F site (tables F site) req) w = sent site req reply ∧
      (d.Lists reply ∨ Unhandled site req w reply) := by
  obtain ⟨reply, hanswer, hwritten⟩ := answer_of_served hm hs w
  refine ⟨reply, hwritten, ?_⟩
  obtain ⟨hmethod, path, hpath, hinstance⟩ := hasked
  have hcommand : ∀ m ∈ ["GET".toList, "POST".toList, "DELETE".toList],
      lower req.command = lower m → req.command = m := by
    simp only [List.mem_cons, List.not_mem_nil, or_false] at hm
    obtain hm | hm | hm := hm <;> rw [hm] <;> decide
  have hjob : ∀ id, path = "/jobs/".toList ++ id → jobsPath <+: before '?' req.path := by
    rintro id rfl
    rw [hpath, ← List.append_assoc]
    exact List.prefix_append _ _
  simp only [Api.described, List.mem_cons, List.not_mem_nil, or_false] at hd
  obtain rfl | rfl | rfl | rfl | rfl := hd
  · obtain rfl := eq_of_instance hinstance (by decide)
    exact listed_getInstanceInfo hanswer (hcommand _ (by decide) hmethod) hpath
  · obtain rfl := eq_of_instance hinstance (by decide)
    exact Or.inl (listed_getHealth hanswer (hcommand _ (by decide) hmethod) hpath)
  · obtain rfl := eq_of_instance hinstance (by decide)
    exact listed_submitJob hanswer (hcommand _ (by decide) hmethod) hpath
  · obtain ⟨id, -, hid⟩ := jobs_of_instance hinstance
    exact listed_getJob hanswer hstates (hcommand _ (by decide) hmethod) (hjob id hid)
  · exact listed_cancelJob hanswer (hcommand _ (by decide) hmethod)

theorem tellsState_fixed {a : Answers} {state : Str} {items : List (Str × Json)}
    (ha : a.jobListId = .ok items) (h : lookup "state".toList items = some (.str state)) :
    TellsState (.fixed a) := by
  intro info s items' hinfo hitems
  obtain ⟨_, _, _, hlisted⟩ := hinfo
  cases hitems
  cases ha.symm.trans hlisted
  exact ⟨state, h⟩

theorem response_documented_job : ∃ reply,
    written (handleOneRequest (.fixed { jobListId := .ok sampleJob }) .fixed (tables _ .fixed)
      { command := "GET".toList, path := "/api/v1/jobs/f2?all".toList }) { flux := () } =
        sent .fixed { command := "GET".toList, path := "/api/v1/jobs/f2?all".toList } reply ∧
    (Api.getJob.Lists reply ∨ Unhandled (F := .fixed { jobListId := .ok sampleJob }) .fixed
      { command := "GET".toList, path := "/api/v1/jobs/f2?all".toList } { flux := () } reply) := by
  have hpost : "GET".toList ≠ "POST".toList := by decide
  have hdelete : "GET".toList ≠ "DELETE".toList := by decide
  have hinstance : Instance JOB_PATH ("/jobs/".toList ++ "f2".toList) :=
    instance_job (by decide) (by decide)
  refine response_documented (tellsState_fixed rfl rfl) (by decide)
    ⟨rfl, fun h => absurd h hpost, fun h => absurd h hdelete⟩
    (.tail _ (.tail _ (.tail _ (.head _)))) ⟨rfl, _, ?_, hinstance⟩ _
  decide

/-! What the document asks of the body of a submission, and what the server checks of it. -/

/-- The part of `JobSubmission` that is about `command`. -/
def commandGiven : Schema := .object ["command".toList] [("command".toList, commandSchema)] .any

theorem commandGiven_of_jobSubmission {v : Json} (h : jobSubmissionSchema.accepts v = true) :
    commandGiven.accepts v = true := by
  cases v with
  | obj fields =>
    obtain ⟨hrequired, hproperties⟩ := Schema.accepts_object.mp h
    refine Schema.accepts_object.mpr ⟨hrequired, fun p hp => ?_⟩
    rw [List.mem_singleton.mp hp]
    exact hproperties _ (.head _)
  | _ => cases h

theorem mapM_str?_eq_some {vs : List Json} {command : List Str} :
    vs.mapM Json.str? = some command ↔ vs = command.map .str := by
  induction vs generalizing command with
  | nil => cases command <;> simp
  | cons v vs ih =>
    cases command with
    | nil => cases v <;> simp [Json.str?, Option.bind_eq_some_iff]
    | cons c command =>
      cases v <;> simp [Json.str?, Option.bind_eq_some_iff, ih, and_comm]

theorem commandOf_eq_some {fields : List (Str × Json)} {command : List Str} :
    commandOf fields = some command ↔
      command ≠ [] ∧ lookup "command".toList fields = some (.arr (command.map .str)) := by
  unfold commandOf
  generalize lookup "command".toList fields = v
  split
  · next c cs =>
    rw [mapM_str?_eq_some, Option.some.injEq, Json.arr.injEq, iff_and_self]
    rintro hcs rfl
    cases hcs
  · next hv =>
    refine iff_of_false nofun ?_
    rintro ⟨hne, rfl⟩
    obtain ⟨c, cs, rfl⟩ := List.exists_cons_of_ne_nil hne
    exact hv _ _ rfl

theorem accepts_commandSchema {v : Json} : commandSchema.accepts v = true ↔
    ∃ command : List Str, command ≠ [] ∧ v = .arr (command.map .str) := by
  cases v with
  | arr vs =>
    rw [commandSchema, Schema.accepts_array]
    constructor
    · rintro ⟨hlength, hstrings⟩
      have hmap : ∃ command : List Str, vs = command.map .str := by
        clear hlength
        induction vs with
        | nil => exact ⟨[], rfl⟩
        | cons v vs ih =>
          obtain ⟨hv, hvs⟩ := List.forall_mem_cons.mp hstrings
          obtain ⟨s, rfl⟩ := Schema.accepts_string.mp hv
          obtain ⟨command, rfl⟩ := ih hvs
          exact ⟨s :: command, rfl⟩
      obtain ⟨command, rfl⟩ := hmap
      refine ⟨command, ?_, rfl⟩
      rintro rfl
      exact absurd hlength (by decide)
    · rintro ⟨command, hne, hvs⟩
      cases hvs
      have hlength : 1 ≤ (command.map Json.str).length := by
        rw [List.length_map]
        exact List.length_pos_iff.mpr hne
      refine ⟨hlength, fun v hv => ?_⟩
      obtain ⟨s, -, rfl⟩ := List.mem_map.mp hv
      rfl
  | _ => exact iff_of_false nofun fun ⟨_, _, hv⟩ => by cases hv

/-- The server checks of `command` what the document asks of it. -/
theorem commandGiven_iff {fields : List (Str × Json)} :
    commandGiven.accepts (.obj fields) = true ↔ ∃ command, commandOf fields = some command := by
  have hgiven : commandGiven.accepts (.obj fields) = true ↔
      ∃ v, lookup "command".toList fields = some v ∧ commandSchema.accepts v = true := by
    rw [commandGiven, Schema.accepts_object, List.forall_mem_singleton, List.forall_mem_singleton]
    constructor
    · rintro ⟨⟨v, hv⟩, haccepts⟩
      exact ⟨v, hv, haccepts v hv⟩
    · rintro ⟨v, hv, haccepts⟩
      refine ⟨⟨v, hv⟩, fun v' hv' => ?_⟩
      cases hv.symm.trans hv'
      exact haccepts
  rw [hgiven]
  simp only [commandOf_eq_some, accepts_commandSchema]
  constructor
  · rintro ⟨v, hv, command, hne, rfl⟩
    exact ⟨command, hne, hv⟩
  · rintro ⟨command, hne, hv⟩
    exact ⟨_, hv, command, hne, rfl⟩

/-- The server holds the body of a submission to what the document asks of `command`, and leaves
the rest to `from_command`. -/
structure CommandChecked (site : Site) (req : Request) (fields : List (Str × Json)) (w : World F) :
    Prop where
  conforms : jobSubmissionSchema.accepts (.obj fields) = true → commandGiven.accepts (.obj fields) = true
  passed : commandGiven.accepts (.obj fields) = true → ∃ command,
    command ≠ [] ∧ lookup "command".toList fields = some (.arr (command.map .str)) ∧
    ∀ pw, site.passwd = some pw → ∃ r rest,
      called (handleOneRequest F site (tables F site) req) w =
        .fromCommand command (jobKwargs pw fields) r :: rest
  /-- The account of the server has no entry in the user database. -/
  unknown : commandGiven.accepts (.obj fields) = true → site.passwd = none →
    called (handleOneRequest F site (tables F site) req) w = [] ∧
    written (handleOneRequest F site (tables F site) req) w = sent site req internalError
  refused : commandGiven.accepts (.obj fields) = false →
    called (handleOneRequest F site (tables F site) req) w = [] ∧
    written (handleOneRequest F site (tables F site) req) w =
      sent site req (.error 400 "'command' must be a non-empty list of strings".toList)

/-- A submission whose route comes to its reply by itself. -/
theorem submission_of_ofExcept {req : Request} {fields : List (Str × Json)}
    (hasks : (Op.submit fields : Op F).Asks site req) (w : World F) {r : Except Exc Reply}
    (hroute : jobsSubmit F site fields = Proc.ofExcept r) :
    called (handleOneRequest F site (tables F site) req) w = [] ∧
      written (handleOneRequest F site (tables F site) req) w = sent site req (afterRoute r) := by
  obtain ⟨path, hhandle⟩ := Op.handle_of_asks site hasks
  have hroute' : (Op.submit fields : Op F).route site = Proc.ofExcept r := hroute
  have hcalls : Proc.Emits World.called (fun l _ => l = []) ((Op.submit fields : Op F).route site) := by
    rw [hroute']
    exact .ofExcept rfl
  constructor
  · rw [hhandle]
    exact emits_guarded site req path (Op.submit fields).call called_of_trace called_log_route hcalls w
  · rw [(handled_of_asks site hasks w).2, hroute']
    rfl

/-- A body in which `command` is as the document asks reaches `from_command` with this command, if the
server's account is known; any other is refused before Flux is asked anything. -/
theorem submission_checked {req : Request} {fields : List (Str × Json)}
    (hasks : (Op.submit fields : Op F).Asks site req) (w : World F) : CommandChecked site req fields w := by
  refine ⟨commandGiven_of_jobSubmission, ?_, ?_, ?_⟩
  · intro hgiven
    obtain ⟨command, hcommand⟩ := commandGiven_iff.mp hgiven
    obtain ⟨hne, hlookup⟩ := commandOf_eq_some.mp hcommand
    exact ⟨command, hne, hlookup, fun pw hpw => called_submission hasks hcommand hpw w⟩
  · intro hgiven hpw
    obtain ⟨command, hcommand⟩ := commandGiven_iff.mp hgiven
    have hroute : jobsSubmit F site fields = Proc.ofExcept (.error (.ofClass .keyError
        (site.repr ("getpwuid(): uid not found: ".toList ++ natStr site.uid)))) := by
      rw [jobsSubmit, hcommand, hpw]
      rfl
    exact submission_of_ofExcept hasks w hroute
  · intro hgiven
    have hcommand : commandOf fields = none := by
      rw [Option.eq_none_iff_forall_ne_some]
      intro command hcommand
      rw [commandGiven_iff.mpr ⟨command, hcommand⟩] at hgiven
      cases hgiven
    have hroute : jobsSubmit F site fields =
        Proc.ofExcept (.ok (.error 400 "'command' must be a non-empty list of strings".toList)) := by
      rw [jobsSubmit, hcommand]
      rfl
    exact submission_of_ofExcept hasks w hroute

theorem submission_checked_sample :
    CommandChecked (F := .fixed {}) .scanning sampleSubmission sampleFields { flux := () } :=
  submission_checked (asks_submit (readsJson_scanning 16) intLimit_scanning submits_sample
    holds_sampleFields (by decide) (by decide)) _

end FluxRest
