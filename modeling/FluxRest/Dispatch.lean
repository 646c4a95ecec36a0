import FluxRest.Spelling

/-! Which route functions a request runs, whatever functions the tables hold. -/
namespace FluxRest
open Py Py.Http

variable {F : Flux} (site : Site)

/-- A target in origin form, as `parse_request` takes it from between the blanks of its line. -/
structure OriginForm (target : Str) : Prop where
  rooted : ∃ rest, target = '/' :: rest ∧ rest.head? ≠ some '/'
  noFragment : '#' ∉ target
  noSpace : ∀ c ∈ target, isSpace c = false

/-- A target of a job. -/
structure JobTarget (target : Str) : Prop extends OriginForm target where
  job : jobsPath <+: target

/-- On a target in origin form `urlsplit` cuts off the query. -/
theorem urlsplit_of_originForm {target : Str} (ho : OriginForm target) : ∃ parsed,
    urlsplit site.hostError target = .ok parsed ∧ parsed.path = before '?' target ∧
      parsed.query = after '?' target := by
  obtain ⟨rest, rfl, hrest⟩ := ho.rooted
  cases rest with
  | nil => exact ⟨_, rfl, rfl, rfl⟩
  | cons c s =>
    have hc : c ≠ '/' := fun h => hrest (congrArg some h)
    have hsafe : ('/' :: c :: s).filter (!isUnsafe ·) = '/' :: c :: s := by
      rw [List.filter_eq_self]
      intro x hx
      have hspace := ho.noSpace x hx
      simpa using mt isSpace_of_isUnsafe (by simp [hspace])
    have hcut : before '#' ('/' :: c :: s) = '/' :: c :: s := by
      have happend := before_append ho.noFragment []
      rwa [List.append_nil, before, before, List.takeWhile_nil, List.append_nil] at happend
    refine ⟨_, urlsplit_of_rooted site.hostError hsafe hc, ?_⟩
    dsimp only
    rw [hcut]
    exact ⟨rfl, rfl⟩

theorem SpellsJob.jobTarget_none {jobid : F.JobID} {e : Str} (hs : SpellsJob F jobid e) :
    JobTarget (jobTarget e none) := by
  have hmem : ∀ c ∈ jobTarget e none, c ∈ jobsPath ∨ c ∈ e := by
    intro c hc
    simpa [jobTarget] using hc
  have hrooted : jobTarget e none = '/' :: ("api/v1/jobs/".toList ++ (e ++ [])) := rfl
  have hsingle : ("api/v1/jobs/".toList ++ (e ++ [])).head? ≠ some '/' :=
    (by decide : some 'a' ≠ some '/')
  refine ⟨⟨⟨_, hrooted, hsingle⟩, ?_, ?_⟩, List.prefix_append _ _⟩
  · intro hc
    obtain hc | hc := hmem _ hc
    · exact absurd hc (by decide)
    · exact hs.notMem (Or.inl (by decide)) hc
  · intro c hc
    obtain hc | hc := hmem _ hc
    · have hall : (jobsPath.all fun c => !isSpace c) = true := by decide
      simpa using List.all_eq_true.mp hall c hc
    · obtain ⟨s, -, -, -, hspells⟩ := hs
      have hrange := hspells.toNat hc
      simp [isSpace]
      omega

/-- A path that names a job is the jobs prefix and one more segment. -/
theorem jobPath_of_parse {path : Str} {jobid : F.JobID} (h : parseJobPath F path = .ok (some jobid)) :
    ∃ id, id ≠ [] ∧ '/' ∉ id ∧ path = jobsPath ++ id := by
  by_cases hp : jobsPath <+: path
  · obtain ⟨id, rfl⟩ := hp
    rw [parseJobPath_append, idOf] at h
    split_ifs at h with hnone
    · cases h
    · obtain ⟨hempty, hslash⟩ := not_or.mp hnone
      refine ⟨id, ?_, ?_, rfl⟩
      · rintro rfl
        exact hempty rfl
      · intro hid
        exact hslash (mem_unquote (by decide) (by decide) (by decide) hid)
  · rw [parseJobPath_of_unprefixed hp] at h
    cases h

/-- The log of the routes that are run is not the route functions' to write. -/
structure Tables.Unlogged (tbl : Tables F) : Prop where
  routes : ∀ r ∈ tbl.routes, Proc.Keeps World.routed r.2
  postRoutes : ∀ r ∈ tbl.postRoutes, ∀ fields, Proc.Keeps World.routed (r.2 fields)
  getJobRoute : ∀ route, tbl.getJobRoute = some route → ∀ jobid, Proc.Keeps World.routed (route jobid)
  deleteJobRoute : ∀ route, tbl.deleteJobRoute = some route → ∀ jobid reason,
    Proc.Keeps World.routed (route jobid reason)

theorem unlogged_tables (F : Flux) (site : Site) : (tables F site).Unlogged := by
  have hcalls := ignoresCalls_routed (F := F)
  constructor
  · intro r hr
    simp only [tables, List.mem_cons, List.not_mem_nil, or_false] at hr
    obtain rfl | rfl := hr
    · exact keeps_root site hcalls.toIgnoresQueries
    · exact keeps_health
  · intro r hr fields
    obtain rfl := List.mem_singleton.mp hr
    exact keeps_jobsSubmit site hcalls fields
  · intro route hroute jobid
    cases hroute
    exact keeps_jobsState hcalls.toIgnoresQueries jobid
  · intro route hroute jobid reason
    cases hroute
    exact keeps_jobsCancel hcalls jobid reason

/-! What each method runs. -/

theorem keeps_unpackPair {route : Proc (World F) Reply} (hk : Proc.Keeps World.routed route) :
    Proc.Keeps World.routed (unpackPair F route) := by
  refine .bind hk fun reply => ?_
  cases reply.headers with
  | none => exact .pure reply
  | some headers => exact .throw _

/-- The job route that a path leads to. -/
def jobCalls (served : Bool) (call : F.JobID → RouteCall F) (path : Str) : List (RouteCall F) :=
  match parseJobPath F path with
  | .ok (some jobid) => if served then [call jobid] else []
  | _ => []

variable {tbl : Tables F} (req : Request) (w : World F)

section Runs

variable (hl : tbl.Unlogged)
include hl

theorem ran_doGET : ran (doGET F site tbl req) w =
    if (lookup (before '?' req.path) tbl.routes).isSome then [.get (before '?' req.path)]
    else jobCalls tbl.getJobRoute.isSome .getJob (before '?' req.path) := by
  unfold doGET jobCalls
  dsimp only
  cases hroute : lookup (before '?' req.path) tbl.routes with
  | some route =>
    exact ran_guarded site req _ _ (keeps_unpackPair (hl.routes _ (mem_of_lookup hroute))) w
  | none =>
    rcases parseJobPath F (before '?' req.path) with message | _ | jobid
    · exact ran_send site req _ w
    · exact ran_send site req _ w
    · cases hget : tbl.getJobRoute with
      | none => exact ran_of_keeps_trace (.throw _) w
      | some route =>
        exact ran_guarded site req _ _ (keeps_unpackPair (hl.getJobRoute route hget jobid)) w

theorem ran_doPOST : ran (doPOST F site tbl req) w =
    match lookup (before '?' req.path) tbl.postRoutes, readBody site req with
    | some _, .ok (.body fields) => [.post (before '?' req.path) fields]
    | _, _ => [] := by
  unfold doPOST
  dsimp only
  cases hroute : lookup (before '?' req.path) tbl.postRoutes with
  | none => exact ran_send site req _ w
  | some route =>
    rcases readBody site req with err | reply | fields
    · exact ran_of_keeps_trace (.throw err) w
    · exact ran_send site req reply w
    · exact ran_guarded site req _ _ (hl.postRoutes _ (mem_of_lookup hroute) fields) w

theorem ran_doDELETE (ho : OriginForm req.path) : ran (doDELETE F site tbl req) w =
    jobCalls tbl.deleteJobRoute.isSome
      (.deleteJob · (parseQsFirst "reason".toList (after '?' req.path))) (before '?' req.path) := by
  obtain ⟨parsed, hurl, hpath, hquery⟩ := urlsplit_of_originForm site ho
  unfold doDELETE jobCalls
  rw [hurl]
  dsimp only
  rw [hpath, hquery]
  rcases parseJobPath F (before '?' req.path) with message | _ | jobid
  · exact ran_send site req _ w
  · exact ran_send site req _ w
  · cases hdelete : tbl.deleteJobRoute with
    | none =>
      have hkeeps : Proc.Keeps World.trace (do
          logUnhandled F (before '?' req.path) noneNotCallable
          send F site req internalError) :=
        .bind (.modify fun _ => rfl) fun _ => keeps_trace_send site req internalError
      exact ran_of_keeps_trace hkeeps w
    | some route => exact ran_guarded site req _ _ (hl.deleteJobRoute route hdelete jobid _) w

end Runs

end FluxRest
