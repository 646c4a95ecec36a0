import FluxRest.Effects
import FluxRest.Ops
import FluxRest.Targets
import FluxRest.Py.Quote
import Mathlib.Algebra.Group.Nat.Defs

/-! The spellings of a job id in a target: all of them name the same job. -/
namespace FluxRest
open Py Py.Http

variable {F : Flux} (site : Site)

/-- `e` spells a text that `JobID` reads as `jobid`. -/
def SpellsJob (F : Flux) (jobid : F.JobID) (e : Str) : Prop :=
  ∃ s, s ≠ [] ∧ '/' ∉ s ∧ F.jobId s = .ok jobid ∧ Spells (encode s) e

/-- The target `/api/v1/jobs/e`, with a query or without. -/
def jobTarget (e : Str) (q : Option Str) : Str :=
  jobsPath ++ (e ++ match q with
    | none => []
    | some q => '?' :: q)

/-- The `reason` in a query. -/
def cancelReason : Option Str → Option Str
  | none => none
  | some q => parseQsFirst "reason".toList (before '#' (q.filter (!isUnsafe ·)))

/-- A reply that tells of a job found, cancelled, missing or inactive gives its id in plain F58. -/
structure NamesJob (jobid : F.JobID) (reply : Reply) : Prop where
  done : reply.status = 200 ∨ reply.status = 202 → ∃ fields, reply.body = .obj fields ∧
    lookup "id".toList fields = some (.str (F.f58plain jobid))
  missing : reply.status = 404 → reply = noSuchJob F jobid
  inactive : reply.status = 409 → reply = .error 409
    ("job ".toList ++ F.f58plain jobid ++ " is already inactive, cannot cancel".toList)

/-- The plain F58 encoding of a job id, as Flux documents it. -/
structure PlainF58 (F : Flux) : Prop where
  decodes : ∀ jobid, F.jobId (F.f58plain jobid) = .ok jobid
  base58 : ∀ jobid, ∃ digits, F.f58plain jobid = 'f' :: digits ∧ ∀ c ∈ digits, c ∈ base58Alphabet

namespace SpellsJob

variable {jobid : F.JobID} {e : Str}

theorem notMem (h : SpellsJob F jobid e) {c : Char} (hc : c.toNat < 37 ∨ c.toNat = 63) : c ∉ e := by
  obtain ⟨s, -, -, -, hs⟩ := h
  intro hmem
  have hrange := hs.toNat hmem
  omega

theorem safe (h : SpellsJob F jobid e) : e.filter (!isUnsafe ·) = e := by
  rw [List.filter_eq_self]
  intro c hc
  have ht : c ≠ '\t' := fun heq => h.notMem (c := '\t') (by decide) (heq ▸ hc)
  have hr : c ≠ '\r' := fun heq => h.notMem (c := '\r') (by decide) (heq ▸ hc)
  have hn : c ≠ '\n' := fun heq => h.notMem (c := '\n') (by decide) (heq ▸ hc)
  simp [isUnsafe, ht, hr, hn]

theorem idOf (h : SpellsJob F jobid e) : idOf F e = .ok (some jobid) := by
  obtain ⟨s, hne, hslash, hj, hs⟩ := h
  unfold FluxRest.idOf
  rw [hs.unquote, if_neg (not_or.mpr ⟨hne, hslash⟩), hj]
  rfl

/-- What `do_GET` cuts off is the query. -/
theorem before_jobTarget (h : SpellsJob F jobid e) (q : Option Str) :
    before '?' (jobTarget e q) = jobsPath ++ e := by
  have he : '?' ∉ e := h.notMem (Or.inr rfl)
  unfold jobTarget
  rw [before_jobsPath, before_append he]
  cases q <;> simp [before]

/-- `urlsplit` takes the target apart at the end of the spelling. -/
theorem urlsplit_append (h : SpellsJob F jobid e) (tail : Str) : ∃ parsed,
    urlsplit site.hostError (jobsPath ++ (e ++ tail)) = .ok parsed ∧
      parsed.path = jobsPath ++ (e ++ before '?' (before '#' (tail.filter (!isUnsafe ·)))) ∧
      parsed.query = after '?' (before '#' (tail.filter (!isUnsafe ·))) := by
  have hquery : '?' ∉ e := h.notMem (Or.inr rfl)
  have hfragment : '#' ∉ e := h.notMem (Or.inl (by decide))
  have hfilter : ((jobsPath ++ (e ++ tail)).dropWhile isC0OrSpace).filter (!isUnsafe ·) =
      jobsPath ++ (e ++ tail.filter (!isUnsafe ·)) := by
    change (jobsPath ++ (e ++ tail)).filter (!isUnsafe ·) = _
    rw [List.filter_append, List.filter_append, h.safe]
    rfl
  have hcut : before '#' (jobsPath ++ (e ++ tail.filter (!isUnsafe ·))) =
      jobsPath ++ (e ++ before '#' (tail.filter (!isUnsafe ·))) := by
    rw [before_append (by decide), before_append hfragment]
  refine ⟨_, urlsplit_of_rooted site.hostError (c := 'a') (hfilter.trans rfl) (by decide), ?_, ?_⟩
  · change before '?' (before '#' (jobsPath ++ (e ++ tail.filter (!isUnsafe ·)))) = _
    rw [hcut, before_jobsPath, before_append hquery]
  · change after '?' (before '#' (jobsPath ++ (e ++ tail.filter (!isUnsafe ·)))) = _
    rw [hcut, after_append (by decide), after_append hquery]

theorem urlsplit_jobTarget (h : SpellsJob F jobid e) (q : Option Str) : ∃ parsed,
    urlsplit site.hostError (jobTarget e q) = .ok parsed ∧ parsed.path = jobsPath ++ e ∧
      parseQsFirst "reason".toList parsed.query = cancelReason q := by
  obtain ⟨parsed, hurl, hpath, hquery⟩ := h.urlsplit_append site (match q with
    | none => []
    | some q => '?' :: q)
  refine ⟨parsed, hurl, ?_, ?_⟩
  · rw [hpath, List.append_right_inj]
    cases q <;> simp [before, isUnsafe]
  · rw [hquery]
    cases q <;> rfl

theorem asks_state (h : SpellsJob F jobid e) (req : Request) (q : Option Str) :
    (Op.state jobid).Asks site { req with command := "GET".toList, path := jobTarget e q } := by
  refine ⟨rfl, ?_, ?_⟩
  · dsimp only
    rw [h.before_jobTarget]
    rfl
  · dsimp only
    rw [h.before_jobTarget, parseJobPath_append, h.idOf]

theorem asks_cancel (h : SpellsJob F jobid e) (req : Request) (hv : req.version ≠ none)
    (q : Option Str) : (Op.cancel jobid (cancelReason q)).Asks site
      { req with command := "DELETE".toList, path := jobTarget e q } := by
  obtain ⟨parsed, hurl, hpath, hreason⟩ := h.urlsplit_jobTarget site q
  refine ⟨rfl, hv, parsed, hurl, ?_, hreason⟩
  rw [hpath, parseJobPath_append, h.idOf]

end SpellsJob

/-- A request for an operation runs its route with what it asks for, and the response is the
route's. -/
theorem handled_of_asks {req : Request} {op : Op F} (h : op.Asks site req) (w : World F) :
    ran (handleOneRequest F site (tables F site) req) w = [op.call] ∧
    written (handleOneRequest F site (tables F site) req) w =
      sent site req (afterRoute ((op.route site).run (w.log (.route op.call))).1) := by
  obtain ⟨path, hhandle⟩ := Op.handle_of_asks site h
  rw [hhandle]
  constructor
  · apply ran_guarded
    cases op with
    | root => exact keeps_root site ignoresCalls_routed.toIgnoresQueries
    | submit fields => exact keeps_jobsSubmit site ignoresCalls_routed fields
    | state jobid => exact keeps_jobsState ignoresCalls_routed.toIgnoresQueries jobid
    | cancel jobid reason => exact keeps_jobsCancel ignoresCalls_routed jobid reason
  · exact written_guarded site req path op.call (Op.keeps_route site op) (Op.plain_route site op) w

/-! What the replies of the two job routes say of the job. -/

theorem lookup_setItem {α : Type} (k : Str) (v : α) (items : List (Str × α)) :
    lookup k (setItem k v items) = some v := by
  unfold setItem
  split_ifs with hany
  · induction items with
    | nil => cases hany
    | cons x items ih =>
      by_cases hx : x.1 = k
      · simp [lookup, hx]
      · have hrest : (items.any (·.1 = k)) = true := by simpa [hx] using hany
        have hcons : lookup k ((x :: items).map fun e => if e.1 = k then (k, v) else e) =
            lookup k (items.map fun e => if e.1 = k then (k, v) else e) := by
          simp [lookup, hx]
        rw [hcons, ih hrest]
  · have hnone : items.find? (·.1 = k) = none := by
      rw [List.find?_eq_none]
      intro e he hk
      exact hany (List.any_eq_true.mpr ⟨e, he, hk⟩)
    unfold lookup
    rw [List.find?_append, hnone]
    simp

theorem lookup_popItem {α : Type} {k k' : Str} (h : k ≠ k') (items : List (Str × α)) :
    lookup k (popItem k' items) = lookup k items := by
  unfold lookup popItem
  rw [List.find?_filter]
  congr 1
  congr 1
  funext e
  by_cases he : e.1 = k
  · simp [he, h]
  · simp [he]

theorem namesJob_of_status {jobid : F.JobID} {reply : Reply} (code : ℕ)
    (hcode : reply.status = code) (h : code ≠ 200 ∧ code ≠ 202 ∧ code ≠ 404 ∧ code ≠ 409) :
    NamesJob jobid reply := by
  subst hcode
  constructor
  · intro hdone
    obtain hdone | hdone := hdone
    · exact absurd hdone h.1
    · exact absurd hdone h.2.1
  · intro hmissing
    exact absurd hmissing h.2.2.1
  · intro hinactive
    exact absurd hinactive h.2.2.2

theorem namesJob_noSuchJob (jobid : F.JobID) : NamesJob jobid (noSuchJob F jobid) :=
  ⟨fun h => absurd h (by decide : ¬ (404 = 200 ∨ 404 = 202)), fun _ => rfl,
    fun h => absurd h (by decide : ¬ 404 = 409)⟩

theorem NamesJob.afterRoute {jobid : F.JobID} {r : Except Exc Reply}
    (h : ∀ reply, r = .ok reply → NamesJob jobid reply) : NamesJob jobid (afterRoute r) := by
  cases r with
  | ok reply => exact h reply rfl
  | error err =>
    dsimp only [FluxRest.afterRoute]
    split_ifs
    · exact namesJob_of_status 503 rfl (by decide)
    · exact namesJob_of_status 500 rfl (by decide)

theorem namesJob_jobsState (jobid : F.JobID) :
    Proc.Returns (NamesJob jobid) (jobsState F jobid) := by
  refine .bind fun h => .seq (P := fun r => ∀ reply, r = .inl reply → NamesJob jobid reply) ?_
    fun found hfound => ?_
  · refine .tryCatch (.map (.trivial _) fun _ _ _ h => by cases h) fun err => ?_
    refine .map (P := NamesJob jobid) (.ofExcept ?_) fun reply hreply _ h => by cases h; exact hreply
    intro reply h
    unfold stateFailed at h
    split_ifs at h
    cases h
    exact namesJob_noSuchJob jobid
  · cases found with
    | inl reply => exact .pure (hfound reply rfl)
    | inr info =>
      refine .bind fun body => .pure ⟨fun _ => ⟨_, rfl, ?_⟩, fun h => ?_, fun h => ?_⟩
      · rw [lookup_popItem (by decide), lookup_setItem]
      · exact absurd h (by decide : ¬ 200 = 404)
      · exact absurd h (by decide : ¬ 200 = 409)

theorem namesJob_jobsCancel (jobid : F.JobID) (reason : Option Str) :
    Proc.Returns (NamesJob jobid) (jobsCancel F jobid reason) := by
  refine .bind fun h => .tryCatch (.bind fun _ => .pure ?_) fun err => .ofExcept ?_
  · exact ⟨fun _ => ⟨_, rfl, rfl⟩, fun h => absurd h (by decide : ¬ 202 = 404),
      fun h => absurd h (by decide : ¬ 202 = 409)⟩
  · intro reply h
    unfold cancelFailed at h
    split_ifs at h <;> cases h
    · exact ⟨fun h => absurd h (by decide : ¬ (409 = 200 ∨ 409 = 202)),
        fun h => absurd h (by decide : ¬ 409 = 404), fun _ => rfl⟩
    · exact namesJob_noSuchJob jobid
    · exact namesJob_of_status 403 rfl (by decide)

/-- The plain F58 encoding of a job id spells it. -/
theorem PlainF58.spellsJob (hF : PlainF58 F) (jobid : F.JobID) :
    SpellsJob F jobid (F.f58plain jobid) := by
  obtain ⟨digits, hdigits, hbase58⟩ := hF.base58 jobid
  have hall : (base58Alphabet.all fun c => isUnreserved c && c != '/') = true := by decide
  have halphabet : ∀ c ∈ F.f58plain jobid, isUnreserved c = true ∧ c ≠ '/' := by
    intro c hc
    rw [hdigits] at hc
    obtain rfl | hc := List.mem_cons.mp hc
    · decide
    · simpa using List.all_eq_true.mp hall c (hbase58 c hc)
  refine ⟨F.f58plain jobid, ?_, ?_, hF.decodes jobid, ?_⟩
  · rw [hdigits]
    exact List.cons_ne_nil _ _
  · intro hslash
    exact (halphabet '/' hslash).2 rfl
  · exact spells_self fun c hc => (halphabet c hc).1

/-- A job id is the job's under any spelling of any text for it: `GET` and `DELETE` of the jobs
path with it, under any query, run the job route with that id and answer alike, naming the job in
plain F58; and the `Location` of a 201 leads both methods back to the job created. -/
theorem job_spelled_alike (hF : PlainF58 F) (req : Request) (w : World F) :
    (∀ jobid, ∃ reply, NamesJob jobid reply ∧ ∀ e, SpellsJob F jobid e → ∀ q,
      let get := { req with command := "GET".toList, path := jobTarget e q }
      ran (handleOneRequest F site (tables F site) get) w = [.getJob jobid] ∧
      written (handleOneRequest F site (tables F site) get) w = sent site req reply) ∧
    (req.version ≠ none → ∀ jobid reason, ∃ reply, NamesJob jobid reply ∧
      ∀ e, SpellsJob F jobid e → ∀ q, cancelReason q = reason →
        let delete := { req with command := "DELETE".toList, path := jobTarget e q }
        ran (handleOneRequest F site (tables F site) delete) w = [.deleteJob jobid reason] ∧
        written (handleOneRequest F site (tables F site) delete) w = sent site req reply) ∧
    (status (handleOneRequest F site (tables F site) req) w = some 201 →
      ∃ jobspec jobid head rest target,
        .submit jobspec (.ok jobid) ∈ effects (handleOneRequest F site (tables F site) req) w ∧
        written (handleOneRequest F site (tables F site) req) w = .head head :: rest ∧
        lookup "Location".toList head.fields = some target ∧ ∀ (next : Request) w',
          let get := { next with command := "GET".toList, path := target }
          let delete := { next with command := "DELETE".toList, path := target }
          ran (handleOneRequest F site (tables F site) get) w' = [.getJob jobid] ∧
          (next.version ≠ none →
            ran (handleOneRequest F site (tables F site) delete) w' = [.deleteJob jobid none])) := by
  refine ⟨?_, ?_, ?_⟩
  · intro jobid
    refine ⟨afterRoute ((jobsState F jobid).run (w.log (.route (.getJob jobid)))).1, ?_, ?_⟩
    · exact .afterRoute fun reply hreply => namesJob_jobsState jobid _ reply hreply
    · intro e he q
      exact handled_of_asks site (he.asks_state site req q) w
  · intro hv jobid reason
    refine ⟨afterRoute ((jobsCancel F jobid reason).run
      (w.log (.route (.deleteJob jobid reason)))).1, ?_, ?_⟩
    · exact .afterRoute fun reply hreply => namesJob_jobsCancel jobid reason _ reply hreply
    · intro e he q hq
      subst hq
      exact handled_of_asks site (he.asks_cancel site req hv q) w
  · intro hstatus
    have htold := effectsTold_of_status site hstatus
    obtain ⟨jobspec, jobid, hsubmit⟩ := htold.created.mp hstatus
    obtain ⟨head, hwritten, hlocation⟩ := htold.createdNamed jobspec jobid hsubmit
    refine ⟨jobspec, jobid, head, _, _, hsubmit, hwritten, hlocation, ?_⟩
    intro next w'
    have hspells := hF.spellsJob jobid
    have htarget : PREFIX ++ "/jobs".toList ++ ['/'] ++ F.f58plain jobid =
        jobTarget (F.f58plain jobid) none := by
      rw [jobTarget, List.append_nil]
      rfl
    constructor
    · exact htarget ▸ (handled_of_asks site (hspells.asks_state site next none) w').1
    · intro hv
      exact htarget ▸ (handled_of_asks site (hspells.asks_cancel site next hv none) w').1

/-! The bindings with fixed answers encode job ids as Flux does. -/

theorem base58_digit : ∀ d < 58, base58Alphabet.idxOf (base58Alphabet.getD d '1') = d ∧
    base58Alphabet.getD d '1' ∈ base58Alphabet := by
  decide +kernel

theorem base58Digits_lt {fuel n d : ℕ} (h : d ∈ base58Digits fuel n) : d < 58 := by
  induction fuel generalizing n with
  | zero => cases h
  | succ fuel ih =>
    rw [base58Digits] at h
    split_ifs at h with hn
    · rw [List.mem_singleton.mp h]
      exact hn
    · obtain rfl | h := List.mem_cons.mp h
      · exact Nat.mod_lt n (by decide)
      · exact ih h

/-- Reading the digits back gives the number they were made from. -/
theorem base58Digits_value {fuel n : ℕ} (h : n < 58 ^ fuel) : (base58Digits fuel n).foldr
    (fun d acc => 58 * acc + base58Alphabet.idxOf (base58Alphabet.getD d '1')) 0 = n := by
  induction fuel generalizing n with
  | zero =>
    have hn : n = 0 := by simpa using h
    rw [hn]
    rfl
  | succ fuel ih =>
    rw [base58Digits]
    split_ifs with hn
    · rw [List.foldr_cons, List.foldr_nil, (base58_digit n hn).1]
      omega
    · have hdiv : n / 58 < 58 ^ fuel := by
        rw [Nat.pow_succ] at h
        omega
      have hmod : n % 58 < 58 := Nat.mod_lt n (by decide)
      rw [List.foldr_cons, ih hdiv, (base58_digit _ hmod).1]
      omega

theorem f58plain_base58 (n : ℕ) : ∃ c cs, f58plain n = 'f' :: c :: cs ∧
    ∀ x ∈ c :: cs, x ∈ base58Alphabet := by
  have hmem : ∀ x ∈ (base58Digits 11 n).reverse.map fun d => base58Alphabet.getD d '1',
      x ∈ base58Alphabet := by
    intro x hx
    obtain ⟨d, hd, rfl⟩ := List.mem_map.mp hx
    exact (base58_digit d (base58Digits_lt (List.mem_reverse.mp hd))).2
  have hne : (base58Digits 11 n).reverse.map (fun d => base58Alphabet.getD d '1') ≠ [] := by
    rw [Ne, List.map_eq_nil_iff, List.reverse_eq_nil_iff, base58Digits]
    split_ifs <;> simp
  obtain ⟨c, cs, hcs⟩ := List.exists_cons_of_ne_nil hne
  rw [hcs] at hmem
  exact ⟨c, cs, congrArg ('f' :: ·) hcs, hmem⟩

theorem jobIdOfText_f58plain {n : ℕ} (h : n < 58 ^ 11) : jobIdOfText (f58plain n) = some n := by
  obtain ⟨c, cs, hcs, hmem⟩ := f58plain_base58 n
  have hall : (c :: cs).all base58Alphabet.contains = true := by
    rw [List.all_eq_true]
    intro x hx
    exact List.contains_iff_mem.mpr (hmem x hx)
  have hvalue : (c :: cs).foldl (fun n c => 58 * n + base58Alphabet.idxOf c) 0 = n := by
    rw [← (List.cons.inj hcs).2, List.foldl_map, List.foldl_reverse]
    exact base58Digits_value h
  rw [hcs, jobIdOfText]
  rw [if_pos hall, hvalue]

theorem fixed_jobId (a : Answers) (jobid : UInt64) :
    (Flux.fixed a).jobId (f58plain jobid.toNat) = .ok jobid := by
  have hsize : jobid.toNat < UInt64.size := jobid.toNat_lt_size
  have htext : jobIdOfText (f58plain jobid.toNat) = some jobid.toNat :=
    jobIdOfText_f58plain (hsize.trans (by decide))
  simp only [Flux.fixed, htext, hsize, if_true, UInt64.ofNat_toNat]

theorem plainF58_fixed (a : Answers) : PlainF58 (.fixed a) := by
  constructor
  · exact fixed_jobId a
  · intro jobid
    obtain ⟨c, cs, hcs, hmem⟩ := f58plain_base58 (UInt64.toNat jobid)
    exact ⟨c :: cs, hcs, hmem⟩

/-- A submission that Flux answers with job 1. -/
def submission : Request where
  command := "POST".toList
  path := "/api/v1/jobs".toList
  headers := [("Content-Length".toList, "21".toList)]
  body := encode "\x7b\"command\": [\"true\"]\x7d".toList

/-- Where Flux cannot be reached, `GET /api/v1/jobs/f2` is answered without the id of the job. -/
theorem job_unnamed_unavailable :
    let F := Flux.fixed { connect := .error (.ofClass .osError "no broker".toList) }
    PlainF58 F ∧ SpellsJob F (1 : UInt64) "f2".toList ∧
    ran (handleOneRequest F .fixed (tables F .fixed)
      { command := "GET".toList, path := "/api/v1/jobs/f2".toList }) { flux := () } =
        [.getJob (1 : UInt64)] ∧
    ∃ head fields, written (handleOneRequest F .fixed (tables F .fixed)
        { command := "GET".toList, path := "/api/v1/jobs/f2".toList }) { flux := () } =
          [.head head, .data (bodyBytes (.obj fields))] ∧
      head.status = 503 ∧ lookup "id".toList fields = none := by
  intro F
  have hspells : SpellsJob F (1 : UInt64) "f2".toList :=
    ⟨"f2".toList, by decide, by decide, rfl, .literal rfl (.literal rfl .nil)⟩
  refine ⟨plainF58_fixed _, hspells, rfl, _, [("error".toList, .str "flux unavailable".toList),
    ("detail".toList, .str "no broker".toList)], rfl, rfl, ?_⟩
  decide

/-- Job 1, whose plain F58 encoding is `f2`, under a spelling with an escape. -/
theorem job_spelled_alike_escaped :
    PlainF58 (.fixed {}) ∧
    ran (handleOneRequest (.fixed {}) .fixed (tables (.fixed {}) .fixed)
      { submission with command := "GET".toList, path := "/api/v1/jobs/%662?x".toList })
      { flux := () } = [.getJob (1 : UInt64)] ∧
    ran (handleOneRequest (.fixed {}) .fixed (tables (.fixed {}) .fixed)
      { submission with command := "DELETE".toList, path := "/api/v1/jobs/%662?reason=x".toList })
      { flux := () } = [.deleteJob (1 : UInt64) (some ['x'])] ∧
    status (handleOneRequest (.fixed {}) .fixed (tables (.fixed {}) .fixed) submission)
      { flux := () } = some 201 ∧
    ∃ jobspec jobid, .submit jobspec (.ok jobid) ∈
      effects (handleOneRequest (.fixed {}) .fixed (tables (.fixed {}) .fixed) submission)
        { flux := () } := by
  have hescaped : Spells [UInt8.ofNat (16 * 6 + 6), UInt8.ofNat '2'.toNat] ['%', '6', '6', '2'] :=
    .escaped rfl rfl (.literal rfl .nil)
  have hspells : SpellsJob (.fixed {}) (1 : UInt64) "%662".toList :=
    ⟨"f2".toList, by decide, by decide, rfl, hescaped⟩
  have hstatus : status (handleOneRequest (.fixed {}) .fixed (tables (.fixed {}) .fixed) submission)
      { flux := () } = some 201 := rfl
  obtain ⟨hget, hdelete, hcreated⟩ :=
    job_spelled_alike .fixed (plainF58_fixed {}) submission { flux := () }
  obtain ⟨replyGet, -, hget⟩ := hget (1 : UInt64)
  obtain ⟨replyDelete, -, hdelete⟩ := hdelete (Option.some_ne_none _) (1 : UInt64) (some ['x'])
  obtain ⟨jobspec, jobid, -, -, -, hsubmit, -⟩ := hcreated hstatus
  exact ⟨plainF58_fixed {}, (hget _ hspells (some "x".toList)).1,
    (hdelete _ hspells (some "reason=x".toList) rfl).1, hstatus, jobspec, jobid, hsubmit⟩

end FluxRest
