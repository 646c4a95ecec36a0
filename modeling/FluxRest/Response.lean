import FluxRest.Frame
import FluxRest.Body

/-! Every request gets one complete response, or the method raises: which requests are which. -/
namespace FluxRest
open Py Py.Http

variable {F : Flux} (site : Site)

/-- Run from `w`, the method returns and has written one head and one JSON body, and the head
announces the length of that body and no other. -/
def AnsweredOnce (x : Proc (World F) Unit) (w : World F) : Prop :=
  (x.run w).1 = .ok () ∧ ∃ head body,
    (x.run w).2.wire = w.wire ++ [.head head, .data (bodyBytes body)] ∧
    head.fields.filter (·.1 = "Content-Length".toList) =
      [("Content-Length".toList, natStr (bodyBytes body).length)]

theorem run_write {req : Request} (hw : req.writeError = none) (x : Wire) (w : World F) :
    (write F req x).run w = (.ok (), { w with wire := w.wire ++ [x] }) := by
  simp only [write, hw]
  rfl

theorem run_endHeaders {req : Request} (hw : req.writeError = none) (hv : req.http09 = false)
    (head : Head) {reply : Reply} (hp : Plain reply) (w : World F) :
    (endHeaders F req head reply.headers).run w =
      (.ok (), { w with wire := w.wire ++ [.head head] }) := by
  have hl : (reply.headers.getD []).all fun f => isLatin1 f.1 && isLatin1 f.2 := by
    rw [List.all_eq_true]
    intro f hf
    simp [(hp f hf).1, (hp f hf).2.1]
  simp only [endHeaders, hv, Bool.false_eq_true, if_false, hl, if_true]
  exact run_write hw _ w

theorem run_send {req : Request} (hw : req.writeError = none) (hv : req.http09 = false)
    {reply : Reply} (hp : Plain reply) (w : World F) :
    (send F site req reply).run w = (.ok (), { w with wire := w.wire ++
      [.head (sendHead site reply.status (bodyBytes reply.body).length reply.headers),
        .data (bodyBytes reply.body)] }) := by
  rw [send]
  refine Proc.run_tryCatch_ok ?_ _
  rw [Proc.run_bind_ok (run_endHeaders hw hv _ hp w), run_write hw]
  simp

/-- Without a version in the request line there is no head. -/
theorem run_send_http09 {req : Request} (hw : req.writeError = none) (hv : req.http09 = true)
    (reply : Reply) (w : World F) : (send F site req reply).run w =
      (.ok (), { w with wire := w.wire ++ [.data (bodyBytes reply.body)] }) := by
  rw [send]
  refine Proc.run_tryCatch_ok ?_ _
  have he : (endHeaders F req (sendHead site reply.status (bodyBytes reply.body).length
      reply.headers) reply.headers).run w = (.ok (), w) := by
    simp only [endHeaders, hv, if_true]
    rfl
  rw [Proc.run_bind_ok he, run_write hw]

theorem contentLength_sendHead {reply : Reply} (hp : Plain reply) (status length : ℕ) :
    (sendHead site status length reply.headers).fields.filter (·.1 = "Content-Length".toList) =
      [("Content-Length".toList, natStr length)] := by
  have hrest : (reply.headers.getD []).filter (·.1 = "Content-Length".toList) = [] := by
    rw [List.filter_eq_nil_iff]
    intro f hf
    simp only [decide_eq_true_eq]
    exact (hp f hf).2.2
  have hserver : "Server".toList ≠ "Content-Length".toList := by decide
  have hdate : "Date".toList ≠ "Content-Length".toList := by decide
  have htype : "Content-Type".toList ≠ "Content-Length".toList := by decide
  simp only [sendHead, List.filter_append, hrest, List.append_nil, List.filter_cons, hserver,
    hdate, htype, decide_false, decide_true, Bool.false_eq_true, if_false, if_true, List.filter_nil]

theorem answeredOnce_send {req : Request} (hw : req.writeError = none) (hv : req.http09 = false)
    {reply : Reply} (hp : Plain reply) (w : World F) :
    AnsweredOnce (send F site req reply) w := by
  rw [AnsweredOnce, run_send site hw hv hp w]
  exact ⟨rfl, _, reply.body, rfl, contentLength_sendHead site hp _ _⟩

theorem answeredOnce_of_guardRoute {req : Request} (hw : req.writeError = none)
    (hv : req.http09 = false) {path : Str} {call : RouteCall F} {route : Proc (World F) Reply}
    (hk : Proc.Keeps World.wire route) (hp : Proc.Returns Plain route) (w : World F) :
    AnsweredOnce (do send F site req (← guardRoute F path call route)) w := by
  obtain ⟨reply, hr⟩ := guardRoute_returns path call route w
  have hplain := plain_guardRoute path call hp w reply hr
  have hkeep := keeps_guardRoute (fun _ _ => rfl) (fun _ _ => rfl) path call hk w
  rcases hg : (guardRoute F path call route).run w with ⟨r, w'⟩
  rw [hg] at hr hkeep
  subst hr
  have hwire : w'.wire = w.wire := hkeep
  have hs := answeredOnce_send site hw hv hplain w'
  rw [AnsweredOnce] at hs ⊢
  rw [Proc.run_bind_ok hg]
  exact ⟨hs.1, by simpa only [hwire] using hs.2⟩

/-- A response is a head and a body, so that one write alone is none. -/
theorem not_answeredOnce_of_short {l : List Wire} (hl : l.length ≤ 1) {x : Proc (World F) Unit}
    {w : World F} (h : (x.run w).2.wire = w.wire ++ l) : ¬ AnsweredOnce x w := by
  rintro ⟨-, head, body, hwire, -⟩
  rw [h] at hwire
  have hlength := congrArg List.length hwire
  simp only [List.length_append, List.length_cons, List.length_nil] at hlength
  omega

theorem not_answeredOnce_of_error {x : Proc (World F) Unit} {w : World F} {e : Exc}
    (h : (x.run w).1 = .error e) : ¬ AnsweredOnce x w := fun ha => by
  rw [ha.1] at h
  cases h

theorem not_answeredOnce_of_guardRoute {req : Request} (hw : req.writeError = none)
    (hv : req.http09 = true) {path : Str} {call : RouteCall F} {route : Proc (World F) Reply}
    (hk : Proc.Keeps World.wire route) (w : World F) :
    ¬ AnsweredOnce (do send F site req (← guardRoute F path call route)) w := by
  obtain ⟨reply, hr⟩ := guardRoute_returns path call route w
  have hkeep := keeps_guardRoute (fun _ _ => rfl) (fun _ _ => rfl) path call hk w
  rcases hg : (guardRoute F path call route).run w with ⟨r, w'⟩
  rw [hg] at hr hkeep
  subst hr
  have hwire : w'.wire = w.wire := hkeep
  refine not_answeredOnce_of_short (l := [.data (bodyBytes reply.body)]) le_rfl ?_
  rw [Proc.run_bind_ok hg, run_send_http09 site hw hv, ← hwire]

theorem answeredOnce_send_iff {req : Request} (hw : req.writeError = none) {reply : Reply}
    (hp : Plain reply) (w : World F) :
    AnsweredOnce (send F site req reply) w ↔ req.http09 = false := by
  cases hv : req.http09 with
  | false => exact iff_of_true (answeredOnce_send site hw hv hp w) rfl
  | true =>
    refine iff_of_false
      (not_answeredOnce_of_short (l := [.data (bodyBytes reply.body)]) le_rfl ?_) (by simp)
    rw [run_send_http09 site hw hv]

theorem answeredOnce_guardRoute_iff {req : Request} (hw : req.writeError = none) {path : Str}
    {call : RouteCall F} {route : Proc (World F) Reply} (hk : Proc.Keeps World.wire route)
    (hp : Proc.Returns Plain route) (w : World F) :
    AnsweredOnce (do send F site req (← guardRoute F path call route)) w ↔ req.http09 = false := by
  cases hv : req.http09 with
  | false => exact iff_of_true (answeredOnce_of_guardRoute site hw hv hk hp w) rfl
  | true => exact iff_of_false (not_answeredOnce_of_guardRoute site hw hv hk w) (by simp)

theorem answeredOnce_doGET_iff {req : Request} (hw : req.writeError = none) (w : World F) :
    AnsweredOnce (doGET F site (tables F site) req) w ↔ req.http09 = false := by
  have hq := (ignoresCalls_wire (F := F)).toIgnoresQueries
  unfold doGET
  dsimp only
  cases hl : lookup (before '?' req.path) (tables F site).routes with
  | some route =>
    dsimp only
    obtain rfl | rfl := tables_routes hl
    · rw [unpackPair_root]
      exact answeredOnce_guardRoute_iff site hw (keeps_root site hq) (plain_root site) w
    · rw [unpackPair_health]
      exact answeredOnce_guardRoute_iff site hw keeps_health plain_health w
  | none =>
    rcases hj : parseJobPath F (before '?' req.path) with message | _ | jobid
    · exact answeredOnce_send_iff site hw (plain_of_none rfl) w
    · exact answeredOnce_send_iff site hw (plain_of_none rfl) w
    · dsimp only [tables]
      rw [unpackPair_jobsState]
      exact answeredOnce_guardRoute_iff site hw (keeps_jobsState hq jobid) (plain_jobsState jobid) w

theorem answeredOnce_doPOST_iff {req : Request} (hw : req.writeError = none) (w : World F) :
    AnsweredOnce (doPOST F site (tables F site) req) w ↔ req.http09 = false ∧
      (before '?' req.path = PREFIX ++ "/jobs".toList → ¬ Unreadable site req) := by
  unfold doPOST
  dsimp only
  by_cases hpath : before '?' req.path = PREFIX ++ "/jobs".toList
  · rw [hpath, tables_postRoutes_jobs]
    rcases hr : readBody site req with err | reply | fields
    · have hu : Unreadable site req := (readBody_error_iff site req).mp ⟨err, hr⟩
      refine iff_of_false (not_answeredOnce_of_error (e := err) ?_) fun h => h.2 rfl hu
      rfl
    · have hu : ¬ Unreadable site req := fun hu => by
        obtain ⟨err, he⟩ := (readBody_error_iff site req).mpr hu
        rw [hr] at he
        cases he
      obtain ⟨message, rfl⟩ := readBody_refused_plain site hr
      rw [and_iff_left fun _ => hu]
      exact answeredOnce_send_iff site hw (plain_of_none rfl) w
    · have hu : ¬ Unreadable site req := fun hu => by
        obtain ⟨err, he⟩ := (readBody_error_iff site req).mpr hu
        rw [hr] at he
        cases he
      rw [and_iff_left fun _ => hu]
      exact answeredOnce_guardRoute_iff site hw (keeps_jobsSubmit site ignoresCalls_wire fields)
        (plain_jobsSubmit site fields) w
  · cases hl : lookup (before '?' req.path) (tables F site).postRoutes with
    | some route => exact absurd (tables_postRoutes hl).1 hpath
    | none =>
      rw [and_iff_left fun h => absurd h hpath]
      exact answeredOnce_send_iff site hw (plain_of_none rfl) w

theorem answeredOnce_doDELETE_iff {req : Request} (hw : req.writeError = none) (w : World F) :
    AnsweredOnce (doDELETE F site (tables F site) req) w ↔ req.http09 = false ∧
      ∀ message, urlsplit site.hostError req.path ≠ .error message := by
  unfold doDELETE
  rcases hu : urlsplit site.hostError req.path with message | parsed
  · refine iff_of_false (not_answeredOnce_of_error (e := .ofClass .valueError message) rfl) ?_
    exact fun h => h.2 message rfl
  · have hne : ∀ message, Except.ok (ε := Str) parsed ≠ .error message := fun _ h => by cases h
    rw [and_iff_left hne]
    dsimp only
    rcases hj : parseJobPath F parsed.path with message | _ | jobid
    · exact answeredOnce_send_iff site hw (plain_of_none rfl) w
    · exact answeredOnce_send_iff site hw (plain_of_none rfl) w
    · exact answeredOnce_guardRoute_iff site hw (keeps_jobsCancel ignoresCalls_wire jobid _)
        (plain_jobsCancel jobid _) w

/-- The requests that get their one response: the request line names a version other than
`HTTP/0.9`, a body on its way to `_jobs_submit` can be read, and `urlsplit` takes the target of
a `DELETE`. -/
structure Served (req : Request) : Prop where
  version : req.http09 = false
  readable : req.command = "POST".toList → before '?' req.path = PREFIX ++ "/jobs".toList →
    ¬ Unreadable site req
  target : req.command = "DELETE".toList →
    ∀ message, urlsplit site.hostError req.path ≠ .error message

theorem not_answeredOnce_sendError {req : Request} (hw : req.writeError = none)
    (hv : req.http09 = true) (command : Option Str) (code : ℕ) (message : Str) (w : World F) :
    ¬ AnsweredOnce (sendError F site req command code message) w := by
  unfold sendError
  simp only [endHeaders, hv, if_true]
  split_ifs with hbody
  · exact not_answeredOnce_of_short (l := [.data (encode (site.errorPage code message))]) le_rfl
      (congrArg (fun r => r.2.wire) (run_write hw _ w))
  · exact not_answeredOnce_of_short (l := []) (by simp) (List.append_nil _).symm

theorem answeredOnce_iff {req : Request} (hw : req.writeError = none)
    (hm : req.command ∈ ["GET".toList, "POST".toList, "DELETE".toList]) (w : World F) :
    AnsweredOnce (handleOneRequest F site (tables F site) req) w ↔ Served site req := by
  have hgp : "GET".toList ≠ "POST".toList := by decide
  have hgd : "GET".toList ≠ "DELETE".toList := by decide
  have hpd : "POST".toList ≠ "DELETE".toList := by decide
  simp only [List.mem_cons, List.not_mem_nil, or_false] at hm
  by_cases hget : req.command = "GET".toList
  · rw [handleOneRequest_get hget, answeredOnce_doGET_iff site hw]
    exact ⟨fun hv => ⟨hv, fun h => absurd (hget.symm.trans h) hgp,
      fun h => absurd (hget.symm.trans h) hgd⟩, fun h => h.version⟩
  · by_cases hv : req.version = none
    · have hold : req.http09 = true := by simp [Request.http09, hv]
      rw [handleOneRequest_unversioned hv hget]
      refine iff_of_false (not_answeredOnce_sendError site hw hold _ _ _ w) ?_
      intro h
      rw [h.version] at hold
      cases hold
    · obtain hpost | hdelete := hm.resolve_left hget
      · rw [handleOneRequest_post hpost hv, answeredOnce_doPOST_iff site hw]
        exact ⟨fun h => ⟨h.1, fun _ => h.2, fun h' => absurd (hpost.symm.trans h') hpd⟩,
          fun h => ⟨h.version, h.readable hpost⟩⟩
      · rw [handleOneRequest_delete hdelete hv, answeredOnce_doDELETE_iff site hw]
        exact ⟨fun h => ⟨h.1, fun h' => absurd (h'.symm.trans hdelete) hpd, fun _ => h.2⟩,
          fun h => ⟨h.version, h.target hdelete⟩⟩

theorem answeredOnce_health :
    (AnsweredOnce (handleOneRequest (.fixed {}) .fixed (tables (.fixed {}) .fixed)
      { command := "GET".toList, path := "/api/v1/health".toList }) { flux := () } ↔
      Served .fixed { command := "GET".toList, path := "/api/v1/health".toList }) :=
  answeredOnce_iff .fixed rfl (by decide) _

/-- `DELETE http://[/api/v1/jobs/f1` is dropped without an answer: `urlsplit` raises outside
any `try`. -/
theorem unmatched_bracket_unanswered :
    ¬ AnsweredOnce (handleOneRequest (.fixed {}) .fixed (tables (.fixed {}) .fixed)
      { command := "DELETE".toList, path := "http://[/api/v1/jobs/f1".toList }) { flux := () } :=
  not_answeredOnce_of_error (e := .ofClass .valueError "Invalid IPv6 URL".toList) rfl

end FluxRest
