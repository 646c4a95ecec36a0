import FluxRest.Dispatch
import FluxRest.Py.Percent
import Mathlib.Data.List.Sort

/-! The check that the OpenAPI document lists exactly the operations the server has routes for, and
the requests that the handler dispatches to these routes. -/
namespace FluxRest
open Py Py.Http

variable {F : Flux} (site : Site) (tbl : Tables F)

def HTTP_METHODS : List Str :=
  ["get".toList, "put".toList, "post".toList, "delete".toList, "patch".toList, "head".toList,
    "options".toList, "trace".toList]

/-- A path below the API prefix, and a method. -/
abbrev Operation := Str × Str

/-- `route[len(prefix):] or "/"`. -/
def relativePath (route : Str) : Str :=
  let path := route.drop PREFIX.length
  if path = [] then "/".toList else path

def JOB_PATH : Str := "/jobs/\x7bjobid\x7d".toList

/-- `implemented_operations(server)`, in the order in which the pairs are added. -/
def implementedOperations : List Operation :=
  (tbl.routes.map fun r => (relativePath r.1, "get".toList)) ++
  (tbl.postRoutes.map fun r => (relativePath r.1, "post".toList)) ++
  (if tbl.getJobRoute.isSome then [(JOB_PATH, "get".toList)] else []) ++
  if tbl.deleteJobRoute.isSome then [(JOB_PATH, "delete".toList)] else []

/-- The document `yaml.safe_load` reads: its path items, with the keys of each. -/
structure Document where
  paths : Option (List (Str × List Str))

/-- `documented_operations(spec)`. -/
def documentedOperations (spec : Document) : List Operation :=
  (spec.paths.getD []).flatMap fun item => (item.2.filter (· ∈ HTTP_METHODS)).map (item.1, ·)

/-- Pairs compare by their first difference, and texts by code points. -/
def Operation.less (a b : Operation) : Bool :=
  let less := fun x y : Char => decide (x.toNat < y.toNat)
  a.1.lex b.1 less || (a.1 = b.1 && a.2.lex b.2 less)

/-- `sorted(ops)`, as an f-string shows it. -/
def sortedText (ops : List Operation) : Str :=
  let pair := fun op : Operation => '(' :: site.repr op.1 ++ ", ".toList ++ site.repr op.2 ++ [')']
  let pairs := (ops.eraseDups.insertionSort fun a b => !b.less a).map pair
  '[' :: ", ".toList.intercalate pairs ++ [']']

example : sortedText .fixed [("/jobs".toList, "post".toList), ("/health".toList, "get".toList)] =
    "[('/health', 'get'), ('/jobs', 'post')]".toList := by decide +kernel

/-- The route coverage of `main`; an error is the text of its `SystemExit`. -/
def routeCoverage (spec : Document) : Except Str Unit :=
  let implemented := implementedOperations tbl
  let documented := documentedOperations spec
  let missing := implemented.filter (· ∉ documented)
  let extra := documented.filter (· ∉ implemented)
  if missing ≠ [] then .error ("implemented but undocumented: ".toList ++ sortedText site missing)
  else if extra ≠ [] then .error ("documented but not implemented: ".toList ++ sortedText site extra)
  else .ok ()

/-- The check passes exactly if both sets have the same pairs. -/
theorem routeCoverage_ok_iff {spec : Document} : routeCoverage site tbl spec = .ok () ↔
    ∀ op, op ∈ documentedOperations spec ↔ op ∈ implementedOperations tbl := by
  have hsubset : ∀ l l' : List Operation, l.filter (· ∉ l') = [] ↔ ∀ op ∈ l, op ∈ l' := by
    intro l l'
    simp
  unfold routeCoverage
  dsimp only
  split_ifs with hmissing hextra
  · have hmissing' := mt (hsubset _ _).mpr hmissing
    exact iff_of_false nofun fun h => hmissing' fun op => (h op).mpr
  · have hextra' := mt (hsubset _ _).mpr hextra
    exact iff_of_false nofun fun h => hextra' fun op => (h op).mp
  · have hmissing' := (hsubset _ _).mp (not_not.mp hmissing)
    have hextra' := (hsubset _ _).mp (not_not.mp hextra)
    exact iff_of_true rfl fun op => ⟨hextra' op, hmissing' op⟩

/-! The tables, and the targets that are asked for. -/

/-- A path without a query, a fragment or a parameter. -/
structure Literal (path : Str) : Prop where
  noQuery : '?' ∉ path
  noFragment : '#' ∉ path
  noParameter : '\x7b' ∉ path

def Tables.keys : List Str := tbl.routes.map Prod.fst ++ tbl.postRoutes.map Prod.fst

/-- Tables of literal paths below the API prefix, no longer than a `dict` can be. -/
structure Tables.Literal : Prop where
  rooted : ∀ key ∈ tbl.keys, PREFIX ++ "/".toList <+: key
  literal : ∀ key ∈ tbl.keys, FluxRest.Literal key
  length : tbl.routes.length ≤ Spec.SSIZE_MAX

/-- A path is an instance of a template: each segment is the template's, or is what a parameter
stands for. -/
def Instance (template path : Str) : Prop :=
  List.Forall₂ (fun t s => t = s ∨ t.head? = some '\x7b' ∧ s ≠ [])
    (template.splitOn '/') (path.splitOn '/')

theorem instance_self (path : Str) : Instance path path :=
  List.forall₂_same.mpr fun _ _ => Or.inl rfl

theorem instance_job {id : Str} (hne : id ≠ []) (hslash : '/' ∉ id) :
    Instance JOB_PATH ("/jobs/".toList ++ id) := by
  have hsplit : ("/jobs/".toList ++ id).splitOn '/' = [[], "jobs".toList, id] := by
    change ([] ++ '/' :: ("jobs".toList ++ '/' :: id)).splitOn '/' = _
    rw [List.splitOn_append_cons_self_of_not_mem List.not_mem_nil,
      List.splitOn_append_cons_self_of_not_mem (by decide), List.splitOn_eq_singleton hslash]
  have htemplate : JOB_PATH.splitOn '/' = [[], "jobs".toList, "\x7bjobid\x7d".toList] := by decide
  rw [Instance, hsplit, htemplate]
  exact .cons (Or.inl rfl) (.cons (Or.inl rfl) (.cons (Or.inr ⟨rfl, hne⟩) .nil))

/-! Operations and the requests that run them. -/

variable {tbl} (req : Request) (w : World F)

/-- The operation that a route function is called for. -/
def operation : RouteCall F → Operation
  | .get key => (relativePath key, "get".toList)
  | .post key _ => (relativePath key, "post".toList)
  | .getJob _ => (JOB_PATH, "get".toList)
  | .deleteJob _ _ => (JOB_PATH, "delete".toList)

/-- A request is an instance of an operation. -/
structure Operation.Asked (op : Operation) (req : Request) : Prop where
  method : lower req.command = op.2
  path : ∃ path, before '?' req.path = PREFIX ++ path ∧ Instance op.1 path

theorem relativePath_eq_iff {key path : Str} (h : PREFIX ++ "/".toList <+: key) :
    relativePath key = path ↔ PREFIX ++ path = key := by
  obtain ⟨rest, rfl⟩ := h
  have hrelative : relativePath (PREFIX ++ "/".toList ++ rest) = "/".toList ++ rest := by
    rw [relativePath, List.append_assoc, List.drop_left]
    rfl
  rw [hrelative, List.append_assoc, List.append_right_inj, eq_comm]

theorem mem_map_relativePath {α : Type} {items : List (Str × α)} {method : Str} {op : Operation}
    (h : ∀ key ∈ items.map Prod.fst, PREFIX ++ "/".toList <+: key) :
    op ∈ items.map (fun r => (relativePath r.1, method)) ↔
      op.2 = method ∧ PREFIX ++ op.1 ∈ items.map Prod.fst := by
  simp only [List.mem_map, Prod.ext_iff]
  constructor
  · rintro ⟨r, hr, hpath, hmethod⟩
    have hkey := (relativePath_eq_iff (h _ (List.mem_map_of_mem hr))).mp hpath
    exact ⟨hmethod.symm, r, hr, hkey.symm⟩
  · rintro ⟨hmethod, r, hr, hkey⟩
    exact ⟨r, hr, (relativePath_eq_iff (h _ (List.mem_map_of_mem hr))).mpr hkey.symm, hmethod.symm⟩

theorem mem_implementedOperations (h : tbl.Literal) {op : Operation} :
    op ∈ implementedOperations tbl ↔
      (op.2 = "get".toList ∧ PREFIX ++ op.1 ∈ tbl.routes.map Prod.fst) ∨
      (op.2 = "post".toList ∧ PREFIX ++ op.1 ∈ tbl.postRoutes.map Prod.fst) ∨
      (op = (JOB_PATH, "get".toList) ∧ tbl.getJobRoute.isSome = true) ∨
      op = (JOB_PATH, "delete".toList) ∧ tbl.deleteJobRoute.isSome = true := by
  have hjob : ∀ (served : Bool) (job : Operation),
      op ∈ (if served then [job] else []) ↔ op = job ∧ served = true := by
    intro served job
    cases served <;> simp
  unfold implementedOperations
  simp only [List.mem_append, hjob, or_assoc]
  rw [mem_map_relativePath fun key hkey => h.rooted key (List.mem_append_left _ hkey),
    mem_map_relativePath fun key hkey => h.rooted key (List.mem_append_right _ hkey)]

theorem Literal.ne_job {path : Str} (hpath : Literal path) : path ≠ JOB_PATH := by
  rintro rfl
  exact hpath.noParameter (by decide)

section Implemented

variable (h : tbl.Literal)
include h

theorem get_mem_iff {path : Str} (hpath : Literal path) :
    (path, "get".toList) ∈ implementedOperations tbl ↔ PREFIX ++ path ∈ tbl.routes.map Prod.fst := by
  have hmethod : "get".toList ≠ "post".toList := by decide
  simp only [mem_implementedOperations h, Prod.mk.injEq, hpath.ne_job, hmethod, true_and, false_and,
    or_false]

theorem post_mem_iff {path : Str} (hpath : Literal path) :
    (path, "post".toList) ∈ implementedOperations tbl ↔
      PREFIX ++ path ∈ tbl.postRoutes.map Prod.fst := by
  have hmethod : "post".toList ≠ "get".toList := by decide
  simp only [mem_implementedOperations h, Prod.mk.injEq, hpath.ne_job, hmethod, true_and, false_and,
    or_false, false_or]

/-- The path of the job routes is no key. -/
theorem jobPath_notMem : PREFIX ++ JOB_PATH ∉ tbl.keys := by
  intro hkey
  exact (h.literal _ hkey).noParameter (by decide)

theorem getJob_mem_iff :
    (JOB_PATH, "get".toList) ∈ implementedOperations tbl ↔ tbl.getJobRoute.isSome = true := by
  have hpost : "get".toList ≠ "post".toList := by decide
  have hdelete : "get".toList ≠ "delete".toList := by decide
  have hkey : PREFIX ++ JOB_PATH ∉ tbl.routes.map Prod.fst :=
    fun hroute => jobPath_notMem h (List.mem_append_left _ hroute)
  simp only [mem_implementedOperations h, Prod.mk.injEq, hpost, hdelete, hkey, true_and, and_false,
    false_and, or_false, false_or]

theorem deleteJob_mem_iff :
    (JOB_PATH, "delete".toList) ∈ implementedOperations tbl ↔ tbl.deleteJobRoute.isSome = true := by
  have hget : "delete".toList ≠ "get".toList := by decide
  have hpost : "delete".toList ≠ "post".toList := by decide
  simp only [mem_implementedOperations h, Prod.mk.injEq, hget, hpost, true_and, and_false,
    false_and, false_or]

end Implemented

theorem mem_jobCalls {served : Bool} {call : F.JobID → RouteCall F} {path : Str} {c : RouteCall F}
    (h : c ∈ jobCalls served call path) : served = true ∧ (∃ jobid, c = call jobid) ∧
      ∃ relative, path = PREFIX ++ relative ∧ Instance JOB_PATH relative := by
  unfold jobCalls at h
  rcases hparse : parseJobPath F path with message | _ | jobid
  · simp [hparse] at h
  · simp [hparse] at h
  · cases served with
    | false => simp [hparse] at h
    | true =>
      obtain ⟨id, hne, hslash, rfl⟩ := jobPath_of_parse hparse
      refine ⟨rfl, ⟨jobid, by simpa [hparse] using h⟩, "/jobs/".toList ++ id, ?_, instance_job hne hslash⟩
      rw [jobsPath, List.append_assoc]

/-! Every request that runs a route function asks for the operation it is called for. -/

section Asked

variable (h : tbl.Literal) (hl : tbl.Unlogged) {call : RouteCall F}
include h hl

theorem asked_of_ran_doGET (hget : req.command = "GET".toList)
    (hcall : call ∈ ran (doGET F site tbl req) w) :
    operation call ∈ implementedOperations tbl ∧ (operation call).Asked req := by
  have hmethod : lower req.command = "get".toList := by
    rw [hget]
    decide
  rw [mem_implementedOperations h]
  rw [ran_doGET site req w hl] at hcall
  split_ifs at hcall with hroute
  · obtain rfl := List.mem_singleton.mp hcall
    have hkey := isSome_lookup.mp hroute
    have hpath := (relativePath_eq_iff (h.rooted _ (List.mem_append_left _ hkey))).mp rfl
    exact ⟨Or.inl ⟨rfl, hpath.symm ▸ hkey⟩, hmethod, _, hpath.symm, instance_self _⟩
  · obtain ⟨hserved, ⟨jobid, rfl⟩, hpath⟩ := mem_jobCalls hcall
    exact ⟨Or.inr (Or.inr (Or.inl ⟨rfl, hserved⟩)), hmethod, hpath⟩

theorem asked_of_ran_doPOST (hpost : req.command = "POST".toList)
    (hcall : call ∈ ran (doPOST F site tbl req) w) :
    operation call ∈ implementedOperations tbl ∧ (operation call).Asked req := by
  have hmethod : lower req.command = "post".toList := by
    rw [hpost]
    decide
  rw [mem_implementedOperations h]
  rw [ran_doPOST site req w hl] at hcall
  split at hcall
  · next fields hroute hbody =>
    obtain rfl := List.mem_singleton.mp hcall
    have hkey := isSome_lookup.mp (Option.isSome_of_eq_some hroute)
    have hpath := (relativePath_eq_iff (h.rooted _ (List.mem_append_right _ hkey))).mp rfl
    exact ⟨Or.inr (Or.inl ⟨rfl, hpath.symm ▸ hkey⟩), hmethod, _, hpath.symm, instance_self _⟩
  · cases hcall

theorem asked_of_ran_doDELETE (hdelete : req.command = "DELETE".toList) (ho : OriginForm req.path)
    (hcall : call ∈ ran (doDELETE F site tbl req) w) :
    operation call ∈ implementedOperations tbl ∧ (operation call).Asked req := by
  have hmethod : lower req.command = "delete".toList := by
    rw [hdelete]
    decide
  rw [mem_implementedOperations h]
  rw [ran_doDELETE site req w hl ho] at hcall
  obtain ⟨hserved, ⟨jobid, rfl⟩, hpath⟩ := mem_jobCalls hcall
  exact ⟨Or.inr (Or.inr (Or.inr ⟨rfl, hserved⟩)), hmethod, hpath⟩

theorem asked_of_ran (ho : OriginForm req.path)
    (hcall : call ∈ ran (handleOneRequest F site tbl req) w) :
    operation call ∈ implementedOperations tbl ∧ (operation call).Asked req := by
  unfold handleOneRequest at hcall
  split_ifs at hcall with hold hget hpost hdelete
  · rw [ran_of_keeps_trace (keeps_trace_sendError site req _ _ _)] at hcall
    cases hcall
  · exact asked_of_ran_doGET site req w h hl hget hcall
  · exact asked_of_ran_doPOST site req w h hl hpost hcall
  · exact asked_of_ran_doDELETE site req w h hl hdelete ho hcall
  · rw [ran_of_keeps_trace (keeps_trace_sendError site req _ _ _)] at hcall
    cases hcall

end Asked

/-- A list has no room for more values than it is long. -/
theorem exists_notMem_of_length_lt {α : Type} {n : ℕ} {f : ℕ → α}
    (hf : ∀ i < n, ∀ j < n, f i = f j → i = j) {l : List α} (hl : l.length < n) :
    ∃ i < n, f i ∉ l := by
  by_contra hno
  push Not at hno
  have hnodup : ((List.range n).map f).Nodup := by
    apply List.nodup_range.map_on
    intro i hi j hj
    exact hf i (List.mem_range.mp hi) j (List.mem_range.mp hj)
  have hsubset : (List.range n).map f ⊆ l := by
    intro x hx
    obtain ⟨i, hi, rfl⟩ := List.mem_map.mp hx
    exact hno i (List.mem_range.mp hi)
  have hlength := (List.subperm_of_subset hnodup hsubset).length_le
  rw [List.length_map, List.length_range] at hlength
  omega

/-- Job ids are 64-bit numbers with a plain F58 encoding, as Flux documents them. -/
structure JobIds (F : Flux) : Prop extends PlainF58 F where
  numbers : ∃ ids : UInt64 → F.JobID, ids.Injective

/-- The keys leave the path of some job alone. -/
theorem exists_job_notMem (hF : JobIds F) (h : tbl.Literal) :
    ∃ jobid, jobsPath ++ F.f58plain jobid ∉ tbl.routes.map Prod.fst := by
  obtain ⟨ids, hids⟩ := hF.numbers
  have hinj : ∀ i < UInt64.size, ∀ j < UInt64.size,
      jobsPath ++ F.f58plain (ids (.ofNat i)) = jobsPath ++ F.f58plain (ids (.ofNat j)) → i = j := by
    intro i hi j hj heq
    have hplain := List.append_cancel_left heq
    have hjob : ids (.ofNat i) = ids (.ofNat j) := by
      have hdecoded := hF.decodes (ids (.ofNat i))
      rw [hplain, hF.decodes] at hdecoded
      exact (Except.ok.inj hdecoded).symm
    have hnat := congrArg UInt64.toNat (hids hjob)
    rwa [UInt64.toNat_ofNat_of_lt' hi, UInt64.toNat_ofNat_of_lt' hj] at hnat
  have hlength : (tbl.routes.map Prod.fst).length < UInt64.size := by
    rw [List.length_map]
    exact h.length.trans_lt (by decide)
  obtain ⟨i, -, hi⟩ := exists_notMem_of_length_lt hinj hlength
  exact ⟨_, hi⟩

/-- The target of a path below the API prefix, with a query or without. -/
def apiTarget (path : Str) (q : Option Str) : Str :=
  PREFIX ++ (path ++ match q with
    | none => []
    | some q => '?' :: q)

/-- The set `ops` has exactly the operations that requests run the route functions of the tables
for. -/
structure Describes (tbl : Tables F) (w : World F) (ops : Set Operation) : Prop where
  get : ∀ path, Literal path → ∀ (req : Request) q, req.command = "GET".toList →
    req.path = apiTarget path q →
      (ran (handleOneRequest F site tbl req) w = [.get (PREFIX ++ path)] ↔ (path, "get".toList) ∈ ops)
  post : ∀ path, Literal path → ∀ (req : Request) q, req.command = "POST".toList →
    req.version ≠ none → req.path = apiTarget path q → ∀ fields, readBody site req = .ok (.body fields) →
      (ran (handleOneRequest F site tbl req) w = [.post (PREFIX ++ path) fields] ↔
        (path, "post".toList) ∈ ops)
  getJob : (∃ target jobid, JobTarget target ∧ ∀ req : Request, req.command = "GET".toList →
    req.path = target → ran (handleOneRequest F site tbl req) w = [.getJob jobid]) ↔
      (JOB_PATH, "get".toList) ∈ ops
  deleteJob : (∃ target jobid reason, JobTarget target ∧ ∀ req : Request,
    req.command = "DELETE".toList → req.version ≠ none → req.path = target →
      ran (handleOneRequest F site tbl req) w = [.deleteJob jobid reason]) ↔
        (JOB_PATH, "delete".toList) ∈ ops
  only : ∀ op ∈ ops, (∃ path, Literal path ∧ (op = (path, "get".toList) ∨ op = (path, "post".toList))) ∨
    op = (JOB_PATH, "get".toList) ∨ op = (JOB_PATH, "delete".toList)
  asked : ∀ req : Request, OriginForm req.path →
    ∀ call ∈ ran (handleOneRequest F site tbl req) w,
      operation call ∈ ops ∧ (operation call).Asked req

theorem before_apiTarget {path : Str} (hpath : Literal path) (q : Option Str) :
    before '?' (apiTarget path q) = PREFIX ++ path := by
  unfold apiTarget
  rw [before_append (by decide), before_append hpath.noQuery]
  cases q <;> simp [before]

section Describes

variable (h : tbl.Literal) (hl : tbl.Unlogged)
include h hl

theorem ran_get_iff {path : Str} (hpath : Literal path) {q : Option Str}
    (hget : req.command = "GET".toList) (htarget : req.path = apiTarget path q) :
    ran (handleOneRequest F site tbl req) w = [.get (PREFIX ++ path)] ↔
      (path, "get".toList) ∈ implementedOperations tbl := by
  rw [handleOneRequest_get hget, ran_doGET site req w hl, htarget, before_apiTarget hpath,
    get_mem_iff h hpath, ← isSome_lookup]
  split_ifs with hroute
  · exact iff_of_true rfl hroute
  · refine iff_of_false ?_ hroute
    intro hcalls
    obtain ⟨-, ⟨jobid, hcall⟩, -⟩ := mem_jobCalls (hcalls.symm ▸ List.mem_singleton_self _)
    cases hcall

theorem ran_post_iff {path : Str} (hpath : Literal path) {q : Option Str}
    (hpost : req.command = "POST".toList) (hv : req.version ≠ none)
    (htarget : req.path = apiTarget path q) {fields : List (Str × Json)}
    (hbody : readBody site req = .ok (.body fields)) :
    ran (handleOneRequest F site tbl req) w = [.post (PREFIX ++ path) fields] ↔
      (path, "post".toList) ∈ implementedOperations tbl := by
  rw [handleOneRequest_post hpost hv, ran_doPOST site req w hl, htarget,
    before_apiTarget hpath, hbody, post_mem_iff h hpath, ← isSome_lookup]
  cases lookup (PREFIX ++ path) tbl.postRoutes with
  | none => exact iff_of_false nofun nofun
  | some route => exact iff_of_true rfl rfl

theorem exists_ran_getJob (hF : JobIds F) (hserved : tbl.getJobRoute.isSome = true) :
    ∃ target jobid, JobTarget target ∧ ∀ req : Request, req.command = "GET".toList →
      req.path = target → ran (handleOneRequest F site tbl req) w = [.getJob jobid] := by
  obtain ⟨jobid, hfree⟩ := exists_job_notMem hF h
  have hspells := hF.spellsJob jobid
  refine ⟨jobTarget (F.f58plain jobid) none, jobid, hspells.jobTarget_none, ?_⟩
  intro req hget htarget
  rw [handleOneRequest_get hget, ran_doGET site req w hl, htarget, hspells.before_jobTarget,
    if_neg (mt isSome_lookup.mp hfree), jobCalls, parseJobPath_append, hspells.idOf]
  exact if_pos hserved

omit h in
theorem exists_ran_deleteJob (hF : PlainF58 F) (jobid : F.JobID)
    (hserved : tbl.deleteJobRoute.isSome = true) :
    ∃ target jobid reason, JobTarget target ∧ ∀ req : Request, req.command = "DELETE".toList →
      req.version ≠ none → req.path = target →
        ran (handleOneRequest F site tbl req) w = [.deleteJob jobid reason] := by
  have hspells := hF.spellsJob jobid
  have htarget := hspells.jobTarget_none
  let reason := parseQsFirst "reason".toList (after '?' (jobTarget (F.f58plain jobid) none))
  refine ⟨jobTarget (F.f58plain jobid) none, jobid, reason, htarget, ?_⟩
  intro req hdelete hv hpath
  rw [handleOneRequest_delete hdelete hv, ran_doDELETE site req w hl (hpath ▸ htarget.1),
    hpath, hspells.before_jobTarget, jobCalls, parseJobPath_append, hspells.idOf]
  exact if_pos hserved

/-- The set that is derived from the tables has exactly the operations that are dispatched. -/
theorem describes_implementedOperations (hF : JobIds F) :
    Describes site tbl w {op | op ∈ implementedOperations tbl} := by
  have hliteral : ∀ path, PREFIX ++ path ∈ tbl.keys → Literal path := by
    intro path hkey
    have hkey := h.literal _ hkey
    exact ⟨fun hc => hkey.noQuery (List.mem_append_right _ hc),
      fun hc => hkey.noFragment (List.mem_append_right _ hc),
      fun hc => hkey.noParameter (List.mem_append_right _ hc)⟩
  constructor
  · intro path hpath req q hget htarget
    exact ran_get_iff site req w h hl hpath hget htarget
  · intro path hpath req q hpost hv htarget fields hbody
    exact ran_post_iff site req w h hl hpath hpost hv htarget hbody
  · constructor
    · rintro ⟨target, jobid, htarget, hran⟩
      have hcall := hran { command := "GET".toList, path := target } rfl rfl
      exact (asked_of_ran site _ w h hl htarget.1 (hcall ▸ List.mem_singleton_self _)).1
    · intro hserved
      exact exists_ran_getJob site w h hl hF ((getJob_mem_iff h).mp hserved)
  · constructor
    · rintro ⟨target, jobid, reason, htarget, hran⟩
      have hcall := hran { command := "DELETE".toList, path := target } rfl (Option.some_ne_none _) rfl
      exact (asked_of_ran site _ w h hl htarget.1 (hcall ▸ List.mem_singleton_self _)).1
    · intro hserved
      obtain ⟨ids, -⟩ := hF.numbers
      exact exists_ran_deleteJob site w hl hF.toPlainF58 (ids 0) ((deleteJob_mem_iff h).mp hserved)
  · intro op hop
    obtain ⟨hmethod, hkey⟩ | ⟨hmethod, hkey⟩ | ⟨hjob, -⟩ | ⟨hjob, -⟩ :=
      (mem_implementedOperations h).mp hop
    · exact Or.inl ⟨op.1, hliteral _ (List.mem_append_left _ hkey), Or.inl (Prod.ext rfl hmethod)⟩
    · exact Or.inl ⟨op.1, hliteral _ (List.mem_append_right _ hkey), Or.inr (Prod.ext rfl hmethod)⟩
    · exact Or.inr (Or.inl hjob)
    · exact Or.inr (Or.inr hjob)
  · intro req ho call hcall
    exact asked_of_ran site req w h hl ho hcall

end Describes

/-! The server's own tables. -/

theorem literal_tables (F : Flux) (site : Site) : (tables F site).Literal := by
  have hrooted : ∀ key ∈ [PREFIX ++ "/".toList, PREFIX ++ "/health".toList, PREFIX ++ "/jobs".toList],
      PREFIX ++ "/".toList <+: key := by decide
  have hliteral : ∀ key ∈ [PREFIX ++ "/".toList, PREFIX ++ "/health".toList, PREFIX ++ "/jobs".toList],
      '?' ∉ key ∧ '#' ∉ key ∧ '\x7b' ∉ key := by decide
  refine ⟨hrooted, ?_, (by decide : 2 ≤ Spec.SSIZE_MAX)⟩
  intro key hkey
  obtain ⟨hquery, hfragment, hparameter⟩ := hliteral key hkey
  exact ⟨hquery, hfragment, hparameter⟩

theorem jobIds_fixed (a : Answers) : JobIds (.fixed a) :=
  ⟨plainF58_fixed a, id, Function.injective_id⟩

/-- For all tables of literal paths, the operations that the check derives are exactly the ones that
the handler dispatches; so a document that passes the check describes what the handler does. -/
theorem operations_described (hF : JobIds F) (tbl : Tables F) (h : tbl.Literal) (hl : tbl.Unlogged)
    (w : World F) :
    Describes site tbl w {op | op ∈ implementedOperations tbl} ∧
      ∀ spec, routeCoverage site tbl spec = .ok () →
        Describes site tbl w {op | op ∈ documentedOperations spec} := by
  have hdescribes := describes_implementedOperations site w h hl hF
  refine ⟨hdescribes, ?_⟩
  intro spec hpasses
  have hsame := (routeCoverage_ok_iff site tbl).mp hpasses
  exact (Set.ext hsame : {op | op ∈ documentedOperations spec} = _) ▸ hdescribes

/-- The paths of the document in the repository. -/
def document : Document := ⟨some [
  ("/".toList, ["get".toList]),
  ("/health".toList, ["get".toList]),
  ("/jobs".toList, ["post".toList]),
  (JOB_PATH, ["parameters".toList, "get".toList, "delete".toList])]⟩

/-- The document in the repository describes the server. -/
theorem operations_described_document :
    Describes .fixed (tables (.fixed {}) .fixed) { flux := () }
      {op | op ∈ documentedOperations document} := by
  have hpasses : routeCoverage .fixed (tables (.fixed {}) .fixed) document = .ok () := by rfl
  exact (operations_described .fixed (jobIds_fixed {}) (tables (.fixed {}) .fixed)
    (literal_tables _ _) (unlogged_tables _ _) { flux := () }).2 document hpasses

end FluxRest
