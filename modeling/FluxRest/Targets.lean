import FluxRest.Trace

/-! Which job a request target names, for `GET` and for `DELETE`. -/
namespace FluxRest
open Py Py.Http

variable {F : Flux} (site : Site)

def jobsPath : Str := PREFIX ++ "/jobs/".toList

/-- What the text after the jobs prefix names. -/
def idOf (F : Flux) (text : Str) : Except Str (Option F.JobID) :=
  if unquote text = [] ∨ '/' ∈ unquote text then .ok none else (F.jobId (unquote text)).map some

theorem parseJobPath_eq (path : Str) : parseJobPath F path =
    if jobsPath.isPrefixOf path then idOf F (path.drop jobsPath.length) else .ok none := by
  change (if !jobsPath.isPrefixOf path then _ else idOf F (path.drop jobsPath.length)) = _
  cases jobsPath.isPrefixOf path <;> rfl

theorem parseJobPath_append (text : Str) : parseJobPath F (jobsPath ++ text) = idOf F text := by
  rw [parseJobPath_eq, if_pos (by simp), List.drop_left]

theorem parseJobPath_of_unprefixed {path : Str} (h : ¬ jobsPath <+: path) :
    parseJobPath F path = .ok none := by
  rw [parseJobPath_eq, if_neg (by rwa [List.isPrefixOf_iff_prefix])]

/-- Two texts name the same job, or neither names one and both are rejected alike. -/
def SameId : Except Str (Option F.JobID) → Except Str (Option F.JobID) → Prop
  | .ok a, .ok b => a = b
  | .error _, .error _ => True
  | _, _ => False

/-- The same target, under `GET` and under `DELETE`. -/
structure SameTarget (get delete : Request) : Prop where
  target : delete.path = get.path
  getVersion : get.http09 = false
  deleteVersion : delete.http09 = false

/-- Both methods select the same job, or both answer 404, or both answer 400. -/
def ResolveAlike (get delete : Request) (w w' : World F) : Prop :=
  (∃ jobid reason, ran (doGET F site (tables F site) get) w = [.getJob jobid] ∧
    ran (doDELETE F site (tables F site) delete) w' = [.deleteJob jobid reason]) ∨
  ∃ code, (code = 404 ∨ code = 400) ∧
    ran (doGET F site (tables F site) get) w = [] ∧
    status (doGET F site (tables F site) get) w = some code ∧
    ran (doDELETE F site (tables F site) delete) w' = [] ∧
    status (doDELETE F site (tables F site) delete) w' = some code

/-- `DELETE` only selects a job under a target that starts with the jobs prefix. -/
def SelectsLiterally (delete : Request) (w : World F) : Prop :=
  ∀ jobid reason, .deleteJob jobid reason ∈ ran (doDELETE F site (tables F site) delete) w →
    jobsPath <+: delete.path

/-- What a method does with what a target names. -/
def Resolved (x : Proc (World F) Unit) (w : World F) (call : F.JobID → RouteCall F) :
    Except Str (Option F.JobID) → Prop
  | .ok (some jobid) => ran x w = [call jobid]
  | .ok none => ran x w = [] ∧ status x w = some 404
  | .error _ => ran x w = [] ∧ status x w = some 400

theorem resolved_doGET {req : Request} (hv : req.http09 = false)
    (hs : lookup (before '?' req.path) (tables F site).routes = none) (w : World F) :
    Resolved (doGET F site (tables F site) req) w .getJob
      (parseJobPath F (before '?' req.path)) := by
  unfold doGET
  dsimp only
  rw [hs]
  dsimp only
  rcases parseJobPath F (before '?' req.path) with message | _ | jobid
  · exact ⟨ran_send site req _ w, status_send site hv (plain_of_none rfl) w⟩
  · exact ⟨ran_send site req _ w, status_send site hv (plain_of_none rfl) w⟩
  · dsimp only [tables]
    rw [unpackPair_jobsState]
    exact ran_guarded site req _ _ (keeps_jobsState ignoresCalls_routed.toIgnoresQueries jobid) w

theorem resolved_doDELETE {req : Request} (hv : req.http09 = false) {parsed : SplitResult}
    (hu : urlsplit site.hostError req.path = .ok parsed) (w : World F) :
    Resolved (doDELETE F site (tables F site) req) w
      (.deleteJob · (parseQsFirst "reason".toList parsed.query)) (parseJobPath F parsed.path) := by
  unfold doDELETE
  rw [hu]
  dsimp only
  rcases parseJobPath F parsed.path with message | _ | jobid
  · exact ⟨ran_send site req _ w, status_send site hv (plain_of_none rfl) w⟩
  · exact ⟨ran_send site req _ w, status_send site hv (plain_of_none rfl) w⟩
  · exact ran_guarded site req _ _ (keeps_jobsCancel ignoresCalls_routed jobid _) w

theorem resolveAlike_iff_sameId {get delete : Request} (ht : SameTarget get delete)
    (hs : lookup (before '?' get.path) (tables F site).routes = none) {parsed : SplitResult}
    (hu : urlsplit site.hostError get.path = .ok parsed) (w w' : World F) :
    ResolveAlike site get delete w w' ↔
      SameId (parseJobPath F (before '?' get.path)) (parseJobPath F parsed.path) := by
  have hget := resolved_doGET site ht.getVersion hs w
  have hdelete := resolved_doDELETE site ht.deleteVersion (ht.target ▸ hu) w'
  generalize parseJobPath F (before '?' get.path) = g at hget
  generalize parseJobPath F parsed.path = d at hdelete
  constructor
  · intro h
    rcases h with ⟨jobid, reason, hg, hd⟩ | ⟨code, hcode, hg, hgs, hd, hds⟩
    · rcases g with _ | _ | jobid₁
      · cases hget.1.symm.trans hg
      · cases hget.1.symm.trans hg
      · rcases d with _ | _ | jobid₂
        · cases hdelete.1.symm.trans hd
        · cases hdelete.1.symm.trans hd
        · cases hget.symm.trans hg
          cases hdelete.symm.trans hd
          rfl
    · rcases g with _ | _ | jobid₁
      · cases hget.2.symm.trans hgs
        rcases d with _ | _ | jobid₂
        · trivial
        · cases hdelete.2.symm.trans hds
        · cases hdelete.symm.trans hd
      · cases hget.2.symm.trans hgs
        rcases d with _ | _ | jobid₂
        · cases hdelete.2.symm.trans hds
        · rfl
        · cases hdelete.symm.trans hd
      · cases hget.symm.trans hg
  · intro h
    rcases g with _ | _ | jobid₁
    · rcases d with _ | _ | jobid₂
      · exact Or.inr ⟨400, Or.inr rfl, hget.1, hget.2, hdelete.1, hdelete.2⟩
      · cases h
      · cases h
    · rcases d with _ | _ | jobid₂
      · cases h
      · exact Or.inr ⟨404, Or.inl rfl, hget.1, hget.2, hdelete.1, hdelete.2⟩
      · cases h
    · rcases d with _ | _ | jobid₂
      · cases h
      · cases h
      · cases h
        exact Or.inl ⟨jobid₁, _, hget, hdelete⟩

/-- What follows the jobs prefix of a target, up to its query: the job id `do_GET` reads. -/
def getIdText (target : Str) : Str := before '?' (target.drop jobsPath.length)

/-- The job id `urlsplit` leaves to `do_DELETE`: without tabs and line breaks, up to a fragment. -/
def deleteIdText (target : Str) : Str :=
  before '?' (before '#' ((target.drop jobsPath.length).filter (!isUnsafe ·)))

/-- The targets both methods resolve alike: under the jobs prefix, those whose id `urlsplit` does
not change into another; elsewhere, those of which `urlsplit` makes no job path. -/
def SpelledAlike (F : Flux) (target : Str) : Prop :=
  if jobsPath <+: target then SameId (idOf F (getIdText target)) (idOf F (deleteIdText target))
  else ∃ parsed, urlsplit site.hostError target = .ok parsed ∧
    ∀ text, parsed.path = jobsPath ++ text → idOf F text = .ok none

theorem before_jobsPath (text : Str) : before '?' (jobsPath ++ text) = jobsPath ++ before '?' text :=
  before_append (by decide) text

/-- Under the prefix, `urlsplit` finds no scheme and no authority. -/
theorem urlsplit_jobsPath (text : Str) : ∃ parsed,
    urlsplit site.hostError (jobsPath ++ text) = .ok parsed ∧
      parsed.path = jobsPath ++ before '?' (before '#' (text.filter (!isUnsafe ·))) := by
  have hdrop : (jobsPath ++ text).dropWhile isC0OrSpace = jobsPath ++ text := rfl
  have hfilter : ((jobsPath ++ text).dropWhile isC0OrSpace).filter (!isUnsafe ·) =
      jobsPath ++ text.filter (!isUnsafe ·) := by
    rw [hdrop, List.filter_append]
    rfl
  refine ⟨_, urlsplit_of_rooted site.hostError (c := 'a') (hfilter.trans rfl) (by decide), ?_⟩
  change before '?' (before '#' (jobsPath ++ text.filter (!isUnsafe ·))) = _
  rw [before_append (p := jobsPath) (by decide), before_jobsPath]

theorem sameId_none {r : Except Str (Option F.JobID)} : SameId (.ok none) r ↔ r = .ok none := by
  rcases r with _ | _ | jobid
  · exact iff_of_false (fun h => h) (fun h => by cases h)
  · exact iff_of_true rfl rfl
  · exact iff_of_false (fun h => by cases h) (fun h => by cases h)

theorem parseJobPath_none_iff {path : Str} : parseJobPath F path = .ok none ↔
    ∀ text, path = jobsPath ++ text → idOf F text = .ok none := by
  constructor
  · intro h text ht
    rw [ht, parseJobPath_append] at h
    exact h
  · intro h
    by_cases hp : jobsPath <+: path
    · obtain ⟨text, rfl⟩ := hp
      rw [parseJobPath_append]
      exact h text rfl
    · exact parseJobPath_of_unprefixed hp

theorem not_resolveAlike_of_error {get delete : Request} {message : Str}
    (hu : urlsplit site.hostError delete.path = .error message) (w w' : World F) :
    ¬ ResolveAlike site get delete w w' := by
  have hraise : doDELETE F site (tables F site) delete = throw (.ofClass .valueError message) := by
    unfold doDELETE
    rw [hu]
  have hran : ran (doDELETE F site (tables F site) delete) w' = [] := by
    rw [hraise]
    exact ran_of_routed (List.append_nil _).symm
  have hstatus : status (doDELETE F site (tables F site) delete) w' = none := by
    rw [hraise]
    exact status_eq_none rfl
  intro h
  rcases h with ⟨jobid, reason, -, hd⟩ | ⟨code, -, -, -, -, hds⟩
  · cases hran.symm.trans hd
  · cases hstatus.symm.trans hds

/-- What both methods select, `GET` has read off the raw target. -/
theorem selectsLiterally_of_alike {get delete : Request} (ht : SameTarget get delete)
    (hs : lookup (before '?' get.path) (tables F site).routes = none) {w w' : World F}
    (h : ResolveAlike site get delete w w') : SelectsLiterally site delete w' := by
  intro jobid reason hm
  rcases h with ⟨jobid', reason', hg, -⟩ | ⟨code, -, -, -, hd, -⟩
  · rw [ht.target]
    by_contra hp
    have hno : ¬ jobsPath <+: before '?' get.path := fun h => hp (h.trans (before_isPrefix _ _))
    have hget := resolved_doGET site ht.getVersion hs w
    rw [parseJobPath_of_unprefixed hno] at hget
    cases hget.1.symm.trans hg
  · rw [hd] at hm
    cases hm

theorem resolveAlike_iff {get delete : Request} (ht : SameTarget get delete)
    (hs : lookup (before '?' get.path) (tables F site).routes = none) (w w' : World F) :
    ResolveAlike site get delete w w' ∧ SelectsLiterally site delete w' ↔
      SpelledAlike site F get.path := by
  rw [and_iff_left_of_imp (selectsLiterally_of_alike site ht hs)]
  unfold SpelledAlike
  by_cases hp : jobsPath <+: get.path
  · rw [if_pos hp]
    obtain ⟨text, htext⟩ := hp
    obtain ⟨parsed, hu, hpath⟩ := urlsplit_jobsPath site text
    rw [resolveAlike_iff_sameId site ht hs (htext ▸ hu), hpath, ← htext, before_jobsPath,
      parseJobPath_append, parseJobPath_append, getIdText, deleteIdText, List.drop_left]
  · rw [if_neg hp]
    have hno : ¬ jobsPath <+: before '?' get.path := fun h => hp (h.trans (before_isPrefix _ _))
    rcases hu : urlsplit site.hostError get.path with message | parsed
    · refine iff_of_false (not_resolveAlike_of_error site (ht.target ▸ hu) w w') ?_
      intro h
      obtain ⟨parsed, hparsed, -⟩ := h
      cases hparsed
    · rw [resolveAlike_iff_sameId site ht hs hu, parseJobPath_of_unprefixed hno, sameId_none,
        parseJobPath_none_iff]
      constructor
      · intro h
        exact ⟨parsed, rfl, h⟩
      · intro h
        obtain ⟨parsed', hparsed, h⟩ := h
        cases hparsed
        exact h

/-- A target with an authority, which only `DELETE` takes apart. -/
def absoluteTarget (command : Str) : Request where
  command := command
  path := "http://h/api/v1/jobs/f2".toList

theorem resolveAlike_absoluteTarget :
    ResolveAlike (F := .fixed {}) .fixed (absoluteTarget "GET".toList)
        (absoluteTarget "DELETE".toList) { flux := () } { flux := () } ∧
      SelectsLiterally (F := .fixed {}) .fixed (absoluteTarget "DELETE".toList) { flux := () } ↔
    SpelledAlike .fixed (.fixed {}) "http://h/api/v1/jobs/f2".toList :=
  resolveAlike_iff .fixed ⟨rfl, rfl, rfl⟩ rfl _ _

/-- `DELETE http://h/api/v1/jobs/f2` cancels a job that `GET` does not find. -/
theorem absoluteTarget_cancelled :
    status (doGET (.fixed {}) .fixed (tables (.fixed {}) .fixed) (absoluteTarget "GET".toList))
        { flux := () } = some 404 ∧
      ¬ ResolveAlike (F := .fixed {}) .fixed (absoluteTarget "GET".toList)
        (absoluteTarget "DELETE".toList) { flux := () } { flux := () } ∧
      ¬ SelectsLiterally (F := .fixed {}) .fixed (absoluteTarget "DELETE".toList)
        { flux := () } := by
  have hget : ran (doGET (.fixed {}) .fixed (tables (.fixed {}) .fixed)
      (absoluteTarget "GET".toList)) { flux := () } = [] := rfl
  have hdelete : ran (doDELETE (.fixed {}) .fixed (tables (.fixed {}) .fixed)
      (absoluteTarget "DELETE".toList)) { flux := () } = [.deleteJob (1 : UInt64) none] := rfl
  refine ⟨rfl, ?_, ?_⟩
  · intro h
    rcases h with ⟨jobid, reason, hg, -⟩ | ⟨code, -, -, -, hd, -⟩
    · cases hget.symm.trans hg
    · cases hdelete.symm.trans hd
  · intro h
    have hp := h (1 : UInt64) none (by rw [hdelete]; exact List.mem_singleton_self _)
    revert hp
    decide

end FluxRest
