import FluxRest.Replies
import FluxRest.Py.Receive
import FluxRest.Py.RoundTrip
import FluxRest.Py.Quote
import Mathlib.Data.List.Nodup

/-! What a client reads of a response: the status, the headers and the JSON value that were meant. -/
namespace FluxRest
open Py Py.Http Py.Json

variable {F : Flux} {site : Site}

/-- The status, the headers and the JSON value of a response, where nothing follows it. -/
def readReply (num : Numbers) (bs : Bytes) : Option (ℕ × List (Str × Str) × Json) := do
  let (received, rest) ← receive bs
  if rest = [] then
    let body ← loadsText num (decode received.body)
    return (received.status, received.fields, body)
  else none

/-- What the site and Flux put into responses can be read: the version and the date stay within
their header lines, and what `to_dict` returns are the items of a `dict`. -/
structure Presentable (F : Flux) (site : Site) (num : Numbers) : Prop where
  version : IsLine site.pythonVersion
  date : IsLine site.date
  dateUnpadded : ∀ c ∈ site.date.head?, isPadding c = false
  limit : ∀ n, Fits site.intLimit n → Fits num.intLimit n
  items : ∀ info s items, Listed F info → ((F.toDict info).run s).1 = .ok items →
    (items.map Prod.fst).Nodup ∧ HoldsFields num items

variable {num : Numbers}

theorem holdsFields_iff {fields : List (Str × Json)} :
    HoldsFields num fields ↔ ∀ e ∈ fields, Holds num e.2 := by
  induction fields with
  | nil => simp [HoldsFields]
  | cons e fields ih =>
    rw [HoldsFields, ih, List.forall_mem_cons]

/-- A flat object with distinct keys. -/
theorem holds_obj {fields : List (Str × Json)} (hkeys : (fields.map Prod.fst).Nodup)
    (h : ∀ e ∈ fields, Holds num e.2) : Holds num (.obj fields) := by
  rw [Holds, holdsFields_iff]
  exact ⟨hkeys, h⟩

theorem holds_str (s : Str) : Holds num (.str s) := by
  simp only [Holds]

theorem holds_errorBody (message : Str) : Holds num (errorBody message) := by
  refine holds_obj (List.nodup_singleton _) ?_
  intro e he
  rw [List.mem_singleton.mp he]
  exact holds_str message

theorem keys_setItem {α : Type} {items : List (Str × α)} (h : (items.map Prod.fst).Nodup) (k : Str)
    (v : α) : ((setItem k v items).map Prod.fst).Nodup := by
  unfold setItem
  split_ifs with hk
  · have hsame : (items.map fun e => if e.1 = k then (k, v) else e).map Prod.fst = items.map Prod.fst := by
      rw [List.map_map]
      apply List.map_congr_left
      intro e _
      by_cases he : e.1 = k <;> simp [he]
    rw [hsame]
    exact h
  · rw [List.map_append, List.nodup_append]
    refine ⟨h, List.nodup_singleton _, ?_⟩
    intro x hx y hy heq
    obtain ⟨e, he, rfl⟩ := List.mem_map.mp hx
    have hy' : y = k := by simpa using hy
    exact hk (List.any_eq_true.mpr ⟨e, he, by simp [heq, hy']⟩)

theorem mem_setItem {α : Type} {items : List (Str × α)} {k : Str} {v : α} {e : Str × α}
    (h : e ∈ setItem k v items) : e = (k, v) ∨ e ∈ items := by
  unfold setItem at h
  split_ifs at h
  · obtain ⟨e', he', rfl⟩ := List.mem_map.mp h
    by_cases hk : e'.1 = k
    · exact Or.inl (if_pos hk)
    · rw [if_neg hk]
      exact Or.inr he'
  · obtain he | he := List.mem_append.mp h
    · exact Or.inr he
    · exact Or.inl (List.mem_singleton.mp he)

theorem holds_stateBody (jobid : F.JobID) {items : List (Str × Json)}
    (hkeys : (items.map Prod.fst).Nodup) (h : HoldsFields num items) :
    Holds num (stateBody jobid items) := by
  unfold stateBody
  refine holds_obj ?_ ?_
  · have hsub : (popItem "jobid".toList (setItem "id".toList (.str (F.f58plain jobid)) items)).Sublist
        (setItem "id".toList (.str (F.f58plain jobid)) items) := List.filter_sublist
    exact (keys_setItem hkeys _ _).sublist (hsub.map _)
  · intro e he
    obtain rfl | he := mem_setItem (List.mem_of_mem_filter he)
    · exact holds_str _
    · exact holdsFields_iff.mp h e he

theorem holds_replies (hp : Presentable F site num) {op : Op F} {reply : Reply}
    (h : op.Replies site reply) : Holds num reply.body := by
  cases h with
  | root hrank hsize =>
    obtain ⟨s, hrank⟩ := hrank
    obtain ⟨t, hsize⟩ := hsize
    have hkeys : ["name".toList, "user".toList, "broker_version".toList, "rank".toList,
      "size".toList].Nodup := by decide
    refine holds_obj hkeys ?_
    simp only [List.forall_mem_cons, List.not_mem_nil, false_implies, implies_true, and_true]
    refine ⟨holds_str _, holds_str _, holds_str _, ?_, ?_⟩
    · rw [Holds]
      exact hp.limit _ (int_fits hrank)
    · rw [Holds]
      exact hp.limit _ (int_fits hsize)
  | rejected => exact holds_errorBody _
  | created jobid =>
    refine holds_obj (List.nodup_singleton _) ?_
    simp only [List.forall_mem_cons, List.not_mem_nil, false_implies, implies_true, and_true]
    exact holds_str _
  | state hinfo hitems =>
    obtain ⟨hkeys, hfields⟩ := hp.items _ _ _ hinfo hitems
    exact holds_stateBody _ hkeys hfields
  | unknown => exact holds_errorBody _
  | cancelled =>
    have hkeys : ["id".toList, "status".toList].Nodup := by decide
    refine holds_obj hkeys ?_
    simp only [List.forall_mem_cons, List.not_mem_nil, false_implies, implies_true, and_true]
    exact ⟨holds_str _, holds_str _⟩
  | failed => exact holds_errorBody _

theorem holds_answer (hp : Presentable F site num) {req : Request} {w : World F} {reply : Reply}
    (h : Answer site req w reply) : Holds num reply.body := by
  have hpair : ∀ (k k' s s' : Str), k ≠ k' → Holds num (.obj [(k, .str s), (k', .str s')]) := by
    intro k k' s s' hne
    refine holds_obj (by simpa using hne) ?_
    simp only [List.forall_mem_cons, List.not_mem_nil, false_implies, implies_true, and_true]
    exact ⟨holds_str _, holds_str _⟩
  cases h with
  | op h =>
    next op =>
      obtain hr | ⟨err, hr⟩ | ⟨err, -, -, hr⟩ := op.afterRoute_cases site (w.log (.route op.call))
      · exact holds_replies hp hr
      · rw [hr]
        exact hpair _ _ _ _ (by decide)
      · rw [hr]
        exact holds_errorBody _
  | health =>
    refine holds_obj (List.nodup_singleton _) ?_
    simp only [List.forall_mem_cons, List.not_mem_nil, false_implies, implies_true, and_true]
    exact holds_str _
  | malformedId => exact holds_errorBody _
  | noJob => exact hpair _ _ _ _ (by decide)
  | noPost => exact hpair _ _ _ _ (by decide)
  | badBody => exact holds_errorBody _

/-! The head of a response. -/

theorem isLine_reasonPhrase (status : ℕ) : IsLine (reasonPhrase status) := by
  unfold reasonPhrase
  split <;> decide

theorem isTame_f58plain (hF : PlainF58 F) (jobid : F.JobID) : isTame (F.f58plain jobid) = true := by
  obtain ⟨digits, hdigits, hbase58⟩ := hF.base58 jobid
  have halphabet : isTame base58Alphabet = true := by decide
  have hf : isTame ['f'] = true := by decide
  have hrest : isTame digits = true :=
    List.all_eq_true.mpr fun c hc => List.all_eq_true.mp halphabet c (hbase58 c hc)
  rw [hdigits]
  exact isTame_append.mpr ⟨hf, hrest⟩

/-- The header of a 201. -/
def location (jobid : F.JobID) : Str × Str :=
  ("Location".toList, PREFIX ++ "/jobs/".toList ++ F.f58plain jobid)

theorem isField_location (hF : PlainF58 F) (jobid : F.JobID) : IsField (location jobid) := by
  have hname : isTame ("Location: /api/v1/jobs/".toList) = true := by decide
  have hcolon : ':' ∉ "Location".toList := by decide
  have htame : isTame (Head.fieldLine (location jobid)) = true := by
    have hline : Head.fieldLine (location jobid) = "Location: /api/v1/jobs/".toList ++ F.f58plain jobid := rfl
    rw [hline]
    exact isTame_append.mpr ⟨hname, isTame_f58plain hF jobid⟩
  refine ⟨isLine_of_isTame htame, hcolon, fun c hc => ?_⟩
  cases hc
  rfl

/-- A reply has no headers of its own but the location of a job. -/
theorem headers_answer {req : Request} {w : World F} {reply : Reply} (h : Answer site req w reply) :
    reply.headers = none ∨ ∃ jobid : F.JobID, reply.headers = some [location jobid] := by
  cases h with
  | op h =>
    next op =>
      obtain hr | ⟨err, hr⟩ | ⟨err, -, -, hr⟩ := op.afterRoute_cases site (w.log (.route op.call))
      · generalize afterRoute _ = reply at hr
        cases hr with
        | created jobid => exact Or.inr ⟨jobid, rfl⟩
        | _ => exact Or.inl rfl
      · rw [hr]
        exact Or.inl rfl
      · rw [hr]
        exact Or.inl rfl
  | _ => exact Or.inl rfl

theorem isField_of_isTame {name value : Str} (hname : isTame name = true) (hcolon : ':' ∉ name)
    (hvalue : IsLine value) (hpadding : ∀ c ∈ value.head?, isPadding c = false) :
    IsField (name, value) := by
  have hseparator : isTame ": ".toList = true := by decide
  refine ⟨?_, hcolon, hpadding⟩
  exact isLine_append.mpr ⟨isLine_append.mpr ⟨isLine_of_isTame hname, isLine_of_isTame hseparator⟩, hvalue⟩

/-- `Content-Length` is the server's alone. -/
theorem length_sendHead {headers : Option (List (Str × Str))}
    (h : ∀ f ∈ headers.getD [], lower f.1 ≠ "content-length".toList) (status length : ℕ) :
    (sendHead site status length headers).fields.filter (lower ·.1 = "content-length".toList) =
      [("Content-Length".toList, natStr length)] := by
  have hnone : (headers.getD []).filter (lower ·.1 = "content-length".toList) = [] := by
    rw [List.filter_eq_nil_iff]
    intro f hf
    rw [decide_eq_true_eq]
    exact h f hf
  have hserver : lower "Server".toList ≠ "content-length".toList := by decide
  have hdate : lower "Date".toList ≠ "content-length".toList := by decide
  have htype : lower "Content-Type".toList ≠ "content-length".toList := by decide
  have hlength : lower "Content-Length".toList = "content-length".toList := by decide
  unfold sendHead
  dsimp only
  rw [List.filter_append, hnone, List.append_nil]
  rw [List.filter_cons_of_neg (by rw [decide_eq_true_eq]; exact hserver)]
  rw [List.filter_cons_of_neg (by rw [decide_eq_true_eq]; exact hdate)]
  rw [List.filter_cons_of_neg (by rw [decide_eq_true_eq]; exact htype)]
  rw [List.filter_cons_of_pos (by rw [decide_eq_true_eq]; exact hlength), List.filter_nil]

theorem sendable_sendHead (hF : PlainF58 F) (hp : Presentable F site num) {headers : Option (List (Str × Str))}
    (hh : headers = none ∨ ∃ jobid : F.JobID, headers = some [location jobid]) (status length : ℕ) :
    (sendHead site status length headers).Sendable length := by
  have hrest : ∀ f ∈ headers.getD [], IsField f ∧ lower f.1 ≠ "content-length".toList := by
    obtain rfl | ⟨jobid, rfl⟩ := hh
    · intro f hf
      cases hf
    · intro f hf
      rw [List.mem_singleton.mp hf]
      have hname : lower "Location".toList ≠ "content-length".toList := by decide
      exact ⟨isField_location hF jobid, hname⟩
  refine ⟨isLine_reasonPhrase status, ?_, length_sendHead (fun f hf => (hrest f hf).2) status length⟩
  intro f hf
  obtain hf | hf := List.mem_append.mp hf
  · simp only [List.mem_cons, List.not_mem_nil, or_false] at hf
    obtain rfl | rfl | rfl | rfl := hf
    · have hserver : IsLine (SERVER_NAME ++ " Python/".toList) := by decide
      refine isField_of_isTame (by decide) (by decide) (isLine_append.mpr ⟨hserver, hp.version⟩) ?_
      intro c hc
      cases hc
      rfl
    · exact isField_of_isTame (by decide) (by decide) hp.date hp.dateUnpadded
    · refine isField_of_isTame (by decide) (by decide) (by decide) ?_
      intro c hc
      cases hc
      rfl
    · refine isField_of_isTame (by decide) (by decide) (isLine_of_isTame (isTame_natStr length)) ?_
      intro c hc
      have hdigit : isDigit c = true := isDigit_of_mem_natStr (List.mem_of_mem_head? hc)
      cases hpadding : isPadding c with
      | false => rfl
      | true =>
        simp only [isPadding, Bool.or_eq_true, decide_eq_true_eq] at hpadding
        obtain rfl | rfl := hpadding <;> cases hdigit
  · exact (hrest f hf).1

theorem loadsText_body {v : Json} (h : Holds num v) : loadsText num (decode (bodyBytes v)) = some v := by
  rw [bodyBytes, decode_encode]
  exact loadsText_dumps h rfl

/-- A client of a request that is served reads the status, the headers and the JSON value of its
answer, and nothing is left over. -/
theorem response_read_back (hF : PlainF58 F) (hp : Presentable F site num) {req : Request}
    (hw : req.writeError = none) (hm : req.command ∈ ["GET".toList, "POST".toList, "DELETE".toList])
    (hs : Served site req) (w : World F) : ∃ reply, Answer site req w reply ∧
      readReply num ((written (handleOneRequest F site (tables F site) req) w).flatMap Wire.bytes) =
        some (reply.status, (sendHead site reply.status (bodyBytes reply.body).length
          reply.headers).fields, reply.body) := by
  obtain ⟨reply, hanswer, hwritten⟩ := answer_of_served hm hs w
  refine ⟨reply, hanswer, ?_⟩
  have hsendable := sendable_sendHead hF hp (headers_answer hanswer) reply.status
    (bodyBytes reply.body).length
  have hbytes : (sent site req reply).flatMap Wire.bytes =
      (Wire.head (sendHead site reply.status (bodyBytes reply.body).length reply.headers)).bytes ++
        (bodyBytes reply.body ++ []) := by
    simp only [sent, hs.version, hw, Option.isSome_none, Bool.false_eq_true, if_false,
      List.flatMap_cons, List.flatMap_nil]
    rfl
  rw [hwritten, hbytes, readReply, receive_response hsendable]
  simp only [Option.bind_eq_bind, Option.bind_some, if_true, loadsText_body (holds_answer hp hanswer)]
  rfl

def numbers : Numbers := ⟨some 4300, id⟩

theorem presentable_fixed (a : Answers) (h : ∀ items, a.jobListId = .ok items →
    (items.map Prod.fst).Nodup ∧ HoldsFields numbers items) : Presentable (.fixed a) .fixed numbers := by
  refine ⟨by decide, by decide, ?_, fun n hn => hn, ?_⟩
  · intro c hc
    cases hc
    rfl
  · intro info s items hinfo hitems
    obtain ⟨_, _, _, hlisted⟩ := hinfo
    cases hitems
    exact h info hlisted

/-- A job as `to_dict` shows it. -/
def sampleJob : List (Str × Json) :=
  [("jobid".toList, .int 1), ("state".toList, .str "RUN".toList), ("t_run".toList, .float "1.5".toList)]

theorem response_read_back_job : ∃ reply,
    Answer (F := .fixed { jobListId := .ok sampleJob }) .fixed
      { command := "GET".toList, path := "/api/v1/jobs/f2".toList } { flux := () } reply ∧
    readReply numbers ((written (handleOneRequest (.fixed { jobListId := .ok sampleJob }) .fixed
      (tables _ .fixed) { command := "GET".toList, path := "/api/v1/jobs/f2".toList })
        { flux := () }).flatMap Wire.bytes) =
      some (reply.status, (sendHead .fixed reply.status (bodyBytes reply.body).length
        reply.headers).fields, reply.body) := by
  have hpost : "GET".toList ≠ "POST".toList := by decide
  have hdelete : "GET".toList ≠ "DELETE".toList := by decide
  refine response_read_back (plainF58_fixed _) (presentable_fixed _ ?_) rfl (by decide)
    ⟨rfl, fun h => absurd h hpost, fun h => absurd h hdelete⟩ _
  intro items hitems
  cases hitems
  have hkeys : ["jobid".toList, "state".toList, "t_run".toList].Nodup := by decide
  have hfloat : IsFloat numbers "1.5".toList :=
    Or.inr ⟨"1".toList, ".5".toList, [], by decide, rfl⟩
  have hint : Fits numbers.intLimit (1 : ℤ).natAbs := by
    intro k hk
    cases hk
    decide
  refine ⟨hkeys, ?_⟩
  simp only [sampleJob, HoldsFields, Holds, hfloat, hint, and_self]

end FluxRest
