import FluxRest.Serve.Runs
import Mathlib.Tactic.Linarith

/-! Refused connections: how long they are held, and what closes them. -/
namespace FluxRest
open Py

def Obs.refused? : Obs → Option (Sock × ℚ)
  | .refused s deadline => some (s, deadline)
  | _ => none

/-- The connections refused so far with their deadlines, the latest first. -/
def refusals (log : List Obs) : List (Sock × ℚ) := log.filterMap Obs.refused?

theorem refusals_append (l l' : List Obs) : refusals (l ++ l') = refusals l ++ refusals l' :=
  List.filterMap_append

theorem refusals_cons_refused (s : Sock) (d : ℚ) (log : List Obs) :
    refusals (.refused s d :: log) = (s, d) :: refusals log := rfl

/-- What closes a connection that was refused: its deadline, or the refusals that came after it. -/
def ClosedLate (o : Obs) (older : List Obs) : Prop :=
  ∀ s why t, o = .closed s why t → ∀ d newer gone, refusals older = newer ++ (s, d) :: gone →
    why ≠ .shutdown ∧ (d ≤ t ∨ REFUSE_MAX ≤ newer.length)

namespace Pc

/-- The eviction of `_refuse` is under way, or a `KeyboardInterrupt` may have cut it short. -/
def evictionDue : Pc → Bool
  | evict _ => true
  | disarm raised | serverClose raised | exited raised => raised
  | _ => false

/-- The connection in hand, unless it has just been put in the queue. -/
def inHand : Pc → Option Sock
  | evict _ | shutdownRefused _ => none
  | pc => pc.sock

/-- The connection just put in the queue. -/
def queued : Pc → Option Sock
  | evict s | shutdownRefused s => some s
  | _ => none

theorem free_of_sock {pc : Pc} (h : pc.sock = none) : pc.inHand = none ∧ pc.queued = none := by
  cases pc <;> first | exact ⟨rfl, rfl⟩ | cases h

theorem sock_of_inHand {pc : Pc} {s : Sock} (h : pc.inHand = some s) : pc.sock = some s := by
  cases pc <;> first | exact h | cases h

theorem Proceeds.inHand {s : Sock} {pc pc' : Pc} (h : Proceeds s pc pc')
    (hs : pc'.inHand = some s) : pc.inHand = some s := by
  cases h with
  | respond h | raises h => obtain rfl | rfl := h <;> rfl
  | evict | evicted | hold => cases hs
  | _ => rfl

theorem inHand_interrupted {pc : Pc} {s : Sock} (h : pc.interrupted.inHand = some s) :
    pc.inHand = some s := by
  cases pc <;> first | exact h | cases h

theorem queued_interrupted (pc : Pc) : pc.interrupted.queued = none := by
  cases pc <;> rfl

theorem evictionDue_interrupted {pc : Pc} (h : pc.interrupted.evictionDue = false) :
    pc.evictionDue = false := by
  cases pc <;> first | rfl | exact h | cases h

end Pc

namespace Cfg

variable {c c' : Cfg}

/-- The queue of refused connections, between any two steps. -/
structure RefusalsKept (c : Cfg) : Prop where
  sorted : Queue.Sorted c.srv.refused
  soon : ∀ e ∈ c.srv.refused, e.2 ≤ c.now + REFUSE_LINGER
  capped : c.pc.evictionDue = false → c.srv.refused.length ≤ REFUSE_MAX
  latest : Queue.Latest c.srv.refused (refusals c.log)
  once : ((refusals c.log).map Prod.fst).Nodup
  fresh : ∀ e ∈ refusals c.log, e.1 < c.next
  inHand : ∀ s, c.pc.inHand = some s → ∀ e ∈ refusals c.log, e.1 ≠ s
  queued : ∀ s, c.pc.queued = some s → ∃ q d, c.srv.refused = q ++ [(s, d)]
  closed : History.Always ClosedLate c.log

theorem Advances.inHand (h : c.Advances c') {s : Sock} (hs : c'.pc.inHand = some s) :
    c.pc.inHand = some s ∨ c.pc = .accept ∧ s = c.next := by
  obtain ⟨hp, -⟩ | ⟨haccept, -, hs, -⟩ := h.proceeds (Pc.sock_of_inHand hs)
  · exact Or.inl (hp.inHand hs)
  · exact Or.inr ⟨haccept, hs⟩

/-- A step of the main thread that neither adds to the queue nor takes from it. -/
structure Keeps (c c' : Cfg) : Prop where
  refused : c'.srv.refused = c.srv.refused
  log : c'.log = c.log ∨ ∃ o, c'.log = o :: c.log ∧ o.refused? = none ∧
    ∀ s why t, o = .closed s why t → c.pc.sock = some s ∧ c.srv.isRefused s = false
  queued : ∀ s, c'.pc.queued = some s → c.pc.queued = some s
  capped : c'.pc.evictionDue = false →
    c.pc.evictionDue = false ∨ c.srv.refused.length ≤ REFUSE_MAX

theorem Keeps.refusals (hk : Keeps c c') : refusals c'.log = refusals c.log := by
  obtain hlog | ⟨o, hlog, ho, -⟩ := hk.log
  · rw [hlog]
  · rw [hlog]
    exact List.filterMap_cons_none ho

theorem Moves.keeps {pc : Pc} (h : c.Moves pc) : Keeps c { c with pc } := by
  constructor
  · rfl
  · exact Or.inl rfl
  · intro s hs
    cases h with
    | evicted h =>
      rw [h]
      exact hs
    | _ => cases hs
  · intro _
    cases h with
    | evicted _ hl => exact Or.inr hl
    | raises h => exact Or.inl (by obtain h | h := h <;> rw [h] <;> rfl)
    | _ h => exact Or.inl (by rw [h]; rfl)

theorem keeps_shutdownRequest {s : Sock} (hs : c.pc.sock = some s) (hdue : c.pc.evictionDue = false)
    {pc : Pc} (hq : pc.queued = none) : Keeps c { c.shutdownRequest s with pc } := by
  obtain ⟨-, hc⟩ | ⟨hr, hc⟩ := c.shutdownRequest_cases s
  · rw [hc]
    exact ⟨rfl, Or.inl rfl, fun s hs => absurd hs (by rw [hq]; exact nofun), fun _ => Or.inl hdue⟩
  · rw [hc]
    refine ⟨rfl, Or.inr ⟨_, rfl, rfl, ?_⟩, fun s hs => absurd hs (by rw [hq]; exact nofun),
      fun _ => Or.inl hdue⟩
    intro s' why t heq
    obtain ⟨rfl, -, -⟩ := Obs.closed.inj heq
    exact ⟨hs, hr⟩

/-- What a step of the main thread does to the queue. -/
theorem Advances.queue (h : c.Advances c') :
    Keeps c c' ∨
    (c'.srv.refused = Queue.pending c.now c.srv.refused ∧ c'.log = c.reap.log ∧
      c'.pc.sock = none ∧ c.pc.evictionDue = false) ∨
    (∃ s, c.pc = .hold s ∧ c'.pc = .evict s ∧ c'.next = c.next ∧
      c'.srv.refused = c.srv.refused ++ [(s, c.now + REFUSE_LINGER)] ∧
      c'.log = .refused s (c.now + REFUSE_LINGER) :: c.log) ∨
    (∃ s e rest, c.pc = .evict s ∧ c'.pc = .evict s ∧ c'.next = c.next ∧
      c.srv.refused = e :: rest ∧ REFUSE_MAX < rest.length + 1 ∧ c'.srv.refused = rest ∧
      c'.log = .closed e.1 .evicted c.now :: c.log) := by
  have hone : ∀ o : Obs, o.refused? = none → (∀ s why t, o ≠ .closed s why t) →
      ∃ o', o :: c.log = o' :: c.log ∧ o'.refused? = none ∧
        ∀ s why t, o' = .closed s why t → c.pc.sock = some s ∧ c.srv.isRefused s = false := by
    intro o ho hne
    exact ⟨o, rfl, ho, fun s why t heq => absurd heq (hne s why t)⟩
  cases h with
  | moves h => exact Or.inl h.keeps
  | reapTimeout h hr =>
    refine Or.inr (Or.inl ⟨rfl, rfl, rfl, ?_⟩)
    rw [h]
    rfl
  | reap h =>
    refine Or.inr (Or.inl ⟨rfl, rfl, rfl, ?_⟩)
    rw [h]
    rfl
  | hold h => exact Or.inr (Or.inr (Or.inl ⟨_, h, rfl, rfl, rfl, rfl⟩))
  | evict h hr hl => exact Or.inr (Or.inr (Or.inr ⟨_, _, _, h, h, rfl, hr, hl, rfl, rfl⟩))
  | shutdownRefused h | shutdown h | shutdownRaised h | shutdownUnwound h =>
    left
    apply keeps_shutdownRequest
    · rw [h]
      rfl
    · rw [h]
      rfl
    · rfl
  | wait h | accept h | forbid h | begin h | request h | send h =>
    left
    refine ⟨rfl, Or.inr (hone _ rfl nofun), nofun, fun _ => Or.inl ?_⟩
    rw [h]
    rfl
  | respond h =>
    left
    refine ⟨rfl, Or.inr (hone _ rfl nofun), nofun, fun _ => Or.inl ?_⟩
    obtain h | h := h <;> rw [h] <;> rfl
  | writeFails h hpc =>
    left
    refine ⟨rfl, Or.inr (hone _ rfl nofun), ?_, fun _ => Or.inl ?_⟩
    · intro s hs
      obtain rfl | rfl := hpc <;> cases hs
    · rw [h]
      rfl
  | serveTimeout h | idle h | clear h | clearRaised h | clearUnwound h =>
    left
    refine ⟨rfl, Or.inl rfl, nofun, fun _ => Or.inl ?_⟩
    rw [h]
    rfl
  | disarm h | serverClose h =>
    left
    refine ⟨rfl, Or.inl rfl, nofun, ?_⟩
    intro hdue
    left
    rw [h]
    exact hdue

theorem Advances.refusals (h : c.Advances c') : refusals c'.log = refusals c.log ∨
    ∃ s, c.pc = .hold s ∧ refusals c'.log = (s, c.now + REFUSE_LINGER) :: refusals c.log ∧
      c'.srv.refused = c.srv.refused ++ [(s, c.now + REFUSE_LINGER)] := by
  obtain hk | ⟨-, hlog, -, -⟩ | ⟨s, hpc, -, -, hr, hlog⟩ | ⟨s, e, rest, -, -, -, -, -, -, hlog⟩ := h.queue
  · exact Or.inl hk.refusals
  · left
    rw [hlog]
    exact c.filterMap_reap fun _ _ _ => rfl
  · right
    refine ⟨s, hpc, ?_, hr⟩
    rw [hlog]
    rfl
  · left
    rw [hlog]
    rfl

/-- The connection in hand is in the queue if it was ever refused. -/
theorem RefusalsKept.not_refused (hI : c.RefusalsKept) {s : Sock} (hs : c.pc.sock = some s)
    (hr : c.srv.isRefused s = false) : ∀ e ∈ refusals c.log, e.1 ≠ s := by
  have hqueued : c.pc.queued ≠ some s := by
    intro hq
    obtain ⟨q, d, hsplit⟩ := hI.queued s hq
    rw [Server.isRefused, hsplit] at hr
    simp at hr
  apply hI.inHand
  cases hpc : c.pc <;> rw [hpc] at hs hqueued <;> first | exact hs | exact absurd hs hqueued

theorem RefusalsKept.deadline_unique (hI : c.RefusalsKept) {s : Sock} {d d' : ℚ}
    {newer gone : List (Sock × ℚ)} (hsplit : refusals c.log = newer ++ (s, d) :: gone)
    (hmem : (s, d') ∈ refusals c.log) : d = d' := by
  obtain ⟨newer', gone', hsplit'⟩ := List.append_of_mem hmem
  have honce := hI.once
  rw [hsplit] at honce
  exact (Queue.split_unique honce (hsplit.symm.trans hsplit')).2

theorem RefusalsKept.keep (hI : c.RefusalsKept) (h : c.Advances c') (hk : Keeps c c') :
    c'.RefusalsKept := by
  have hrefusals : refusals c'.log = refusals c.log := hk.refusals
  constructor
  · rw [hk.refused]
    exact hI.sorted
  · rw [hk.refused, h.now]
    exact hI.soon
  · intro hdue
    rw [hk.refused]
    obtain hdue | hl := hk.capped hdue
    · exact hI.capped hdue
    · exact hl
  · rw [hk.refused, hrefusals]
    exact hI.latest
  · rw [hrefusals]
    exact hI.once
  · rw [hrefusals]
    intro e he
    exact (hI.fresh e he).trans_le h.next_le
  · rw [hrefusals]
    intro s hs e he
    obtain hs | ⟨-, rfl⟩ := h.inHand hs
    · exact hI.inHand s hs e he
    · exact (hI.fresh e he).ne
  · intro s hs
    rw [hk.refused]
    exact hI.queued s (hk.queued s hs)
  · obtain hlog | ⟨o, hlog, -, ho⟩ := hk.log
    · rw [hlog]
      exact hI.closed
    · rw [hlog]
      refine ⟨?_, hI.closed⟩
      intro s why t heq d newer gone hsplit
      obtain ⟨hs, hr⟩ := ho s why t heq
      have hmem : (s, d) ∈ refusals c.log := by
        rw [hsplit]
        exact List.mem_append_right newer List.mem_cons_self
      exact absurd rfl (hI.not_refused hs hr _ hmem)

/-- A reaping closes what is due. -/
theorem RefusalsKept.reap (hI : c.RefusalsKept)
    (h : c'.srv.refused = Queue.pending c.now c.srv.refused) (hlog : c'.log = c.reap.log)
    (hpc : c'.pc.sock = none) (hdue : c.pc.evictionDue = false) (hnow : c'.now = c.now)
    (hnext : c.next ≤ c'.next) : c'.RefusalsKept := by
  have hrefusals : refusals c'.log = refusals c.log := by
    rw [hlog]
    exact c.filterMap_reap fun _ _ _ => rfl
  have hsuffix : c'.srv.refused <:+ c.srv.refused := by
    rw [h]
    exact hI.sorted.pending_isSuffix c.now
  constructor
  · exact hI.sorted.of_suffix hsuffix
  · rw [hnow]
    intro e he
    exact hI.soon e (hsuffix.mem he)
  · intro _
    exact hsuffix.length_le.trans (hI.capped hdue)
  · rw [hrefusals]
    exact hI.latest.of_suffix hsuffix
  · rw [hrefusals]
    exact hI.once
  · rw [hrefusals]
    intro e he
    exact (hI.fresh e he).trans_le hnext
  · intro s hs
    rw [(Pc.free_of_sock hpc).1] at hs
    cases hs
  · intro s hs
    rw [(Pc.free_of_sock hpc).2] at hs
    cases hs
  · rw [hlog, reap_log]
    apply hI.closed.append
    intro o mid ho s why t heq d newer gone hsplit
    have hclosed : ∀ o' ∈ o :: mid, ∃ e ∈ Queue.due c.now c.srv.refused,
        Obs.closed e.1 .reaped c.now = o' := by
      intro o' ho'
      exact List.mem_map.mp (List.mem_reverse.mp (ho.mem ho'))
    have hmid : refusals (mid ++ c.log) = refusals c.log := by
      have hnil : refusals mid = [] := by
        rw [refusals, List.filterMap_eq_nil_iff]
        intro o' ho'
        obtain ⟨e, -, rfl⟩ := hclosed o' (List.mem_cons_of_mem _ ho')
        rfl
      rw [refusals_append, hnil, List.nil_append]
    obtain ⟨e, he, heq'⟩ := hclosed o List.mem_cons_self
    rw [heq] at heq'
    obtain ⟨rfl, rfl, rfl⟩ := Obs.closed.inj heq'
    obtain ⟨hmem, hle⟩ := Queue.mem_due.mp he
    have hd : d = e.2 := by
      rw [hmid] at hsplit
      exact hI.deadline_unique hsplit (hI.latest.mem hmem)
    rw [hd]
    exact ⟨nofun, Or.inl hle⟩

/-- A refused connection goes to the end of the queue. -/
theorem RefusalsKept.hold (hI : c.RefusalsKept) {s : Sock} (hlt : s < c.next) (hpc : c.pc = .hold s)
    (hpc' : c'.pc = .evict s) (hnow : c'.now = c.now) (hnext : c'.next = c.next)
    (h : c'.srv.refused = c.srv.refused ++ [(s, c.now + REFUSE_LINGER)])
    (hlog : c'.log = .refused s (c.now + REFUSE_LINGER) :: c.log) : c'.RefusalsKept := by
  constructor
  · rw [h]
    exact hI.sorted.concat hI.soon
  · rw [h, hnow]
    intro e he
    obtain he | he := List.mem_append.mp he
    · exact hI.soon e he
    · rw [List.mem_singleton.mp he]
  · intro hdue
    rw [hpc'] at hdue
    cases hdue
  · rw [h, hlog, refusals_cons_refused]
    exact hI.latest.concat _
  · rw [hlog, refusals_cons_refused, List.map_cons, List.nodup_cons]
    refine ⟨?_, hI.once⟩
    intro hmem
    obtain ⟨e, he, heq⟩ := List.mem_map.mp hmem
    exact hI.inHand s (by rw [hpc]; rfl) e he heq
  · rw [hlog, refusals_cons_refused, hnext]
    intro e he
    obtain rfl | he := List.mem_cons.mp he
    · exact hlt
    · exact hI.fresh e he
  · intro s' hs'
    rw [hpc'] at hs'
    cases hs'
  · intro s' hs'
    rw [hpc'] at hs'
    cases hs'
    exact ⟨_, _, h⟩
  · rw [hlog]
    exact ⟨nofun, hI.closed⟩

/-- An eviction closes the connection that was refused first. -/
theorem RefusalsKept.evict (hI : c.RefusalsKept) {s : Sock} {e : Sock × ℚ} {rest : List (Sock × ℚ)}
    (hpc : c.pc = .evict s) (hpc' : c'.pc = .evict s) (hnow : c'.now = c.now)
    (hnext : c'.next = c.next) (hr : c.srv.refused = e :: rest) (hl : REFUSE_MAX < rest.length + 1)
    (h : c'.srv.refused = rest) (hlog : c'.log = .closed e.1 .evicted c.now :: c.log) :
    c'.RefusalsKept := by
  have hrefusals : refusals c'.log = refusals c.log := by
    rw [hlog]
    rfl
  have hsuffix : c'.srv.refused <:+ c.srv.refused := by
    rw [h, hr]
    exact List.suffix_cons e rest
  constructor
  · exact hI.sorted.of_suffix hsuffix
  · rw [hnow]
    intro e' he'
    exact hI.soon e' (hsuffix.mem he')
  · intro hdue
    rw [hpc'] at hdue
    cases hdue
  · rw [hrefusals]
    exact hI.latest.of_suffix hsuffix
  · rw [hrefusals]
    exact hI.once
  · rw [hrefusals, hnext]
    exact hI.fresh
  · intro s' hs'
    rw [hpc'] at hs'
    cases hs'
  · intro s' hs'
    rw [hpc'] at hs'
    obtain ⟨q, d, hq⟩ := hI.queued s' (by rw [hpc]; exact hs')
    rw [hr] at hq
    rw [h]
    cases q with
    | nil =>
      -- the queue is longer than the one entry just added
      obtain ⟨-, rfl⟩ := List.cons.inj hq
      have hmax : 0 < REFUSE_MAX := by decide
      rw [List.length_nil] at hl
      omega
    | cons e' q =>
      obtain ⟨-, hrest⟩ := List.cons.inj hq
      exact ⟨q, d, hrest⟩
  · rw [hlog]
    refine ⟨?_, hI.closed⟩
    intro s' why t heq d newer gone hsplit
    obtain ⟨rfl, rfl, rfl⟩ := Obs.closed.inj heq
    have honce := hI.once
    have hlatest := hI.latest
    rw [hsplit] at honce hlatest
    rw [hr] at hlatest
    have hlen : newer.length = rest.length := hlatest.newer_of_head honce
    refine ⟨nofun, Or.inr ?_⟩
    omega

theorem RefusalsKept.advance (hI : c.RefusalsKept)
    (hlt : ∀ s, c.pc.sock = some s → s < c.next) (h : c.Advances c') : c'.RefusalsKept := by
  obtain hk | ⟨hr, hlog, hpc', hdue⟩ | ⟨s, hpc, hpc', hnext, hr, hlog⟩ |
    ⟨s, e, rest, hpc, hpc', hnext, hq, hl, hr, hlog⟩ := h.queue
  · exact hI.keep h hk
  · exact hI.reap hr hlog hpc' hdue h.now h.next_le
  · have hs : s < c.next := hlt s (by rw [hpc]; rfl)
    exact hI.hold hs hpc hpc' h.now hnext hr hlog
  · exact hI.evict hpc hpc' h.now hnext hq hl hr hlog

theorem RefusalsKept.stop (hI : c.RefusalsKept) (signal : Signal) :
    (c.stop signal).RefusalsKept := by
  have hrefusals : refusals (c.stop signal).log = refusals c.log := by
    rw [stop_log]
    rfl
  have hrefused : (c.stop signal).srv.refused = c.srv.refused := by rw [stop_srv]
  constructor
  · rw [hrefused]
    exact hI.sorted
  · rw [hrefused, stop_now]
    exact hI.soon
  · intro hdue
    rw [hrefused]
    apply hI.capped
    rw [stop_pc] at hdue
    split_ifs at hdue
    · exact Pc.evictionDue_interrupted hdue
    · exact hdue
  · rw [hrefused, hrefusals]
    exact hI.latest
  · rw [hrefusals]
    exact hI.once
  · rw [hrefusals, stop_next]
    exact hI.fresh
  · rw [hrefusals]
    intro s hs
    apply hI.inHand
    rw [stop_pc] at hs
    split_ifs at hs
    · exact Pc.inHand_interrupted hs
    · exact hs
  · rw [hrefused]
    intro s hs
    rw [stop_pc] at hs
    split_ifs at hs
    · rw [Pc.queued_interrupted] at hs
      cases hs
    · exact hI.queued s hs
  · rw [stop_log]
    exact ⟨nofun, hI.closed⟩

variable {uid : Option ℕ} {T : Option ℚ}

theorem Reached.refusalsKept (h : Reached uid T c) : c.RefusalsKept := by
  apply h.invariant
  · intro now ign
    constructor
    · exact List.Pairwise.nil
    · exact nofun
    · intro _
      exact Nat.zero_le _
    · exact ⟨[], rfl⟩
    · exact List.nodup_nil
    · exact nofun
    · exact nofun
    · exact nofun
    · trivial
  · intro c d _ hI hd
    refine ⟨hI.sorted, ?_, hI.capped, hI.latest, hI.once, hI.fresh, hI.inHand, hI.queued, hI.closed⟩
    intro e he
    have hsoon : e.2 ≤ c.now + REFUSE_LINGER := hI.soon e he
    dsimp only
    linarith
  · intro c signal _ hI
    exact hI.stop signal
  · intro c c' hr hI h
    exact hI.advance (fun s hs => hr.sock_lt hs) h

end Cfg

/-- In every state of every run of `serve`, the queue of refused connections is in the order of the
deadlines, its head is the earliest, and it holds no more than `REFUSE_MAX` of them once a refusal
is complete; and a refused connection has been closed, if it has, after its own deadline or after
`REFUSE_MAX` others were refused later, and by no `shutdown_request`. -/
theorem refused_held {uid : Option ℕ} {T : Option ℚ} {c : Cfg} (h : c.Reached uid T) :
    Queue.Sorted c.srv.refused ∧
    (∀ e rest, c.srv.refused = e :: rest → ∀ e' ∈ c.srv.refused, e.2 ≤ e'.2) ∧
    (c.pc.evictionDue = false → c.srv.refused.length ≤ REFUSE_MAX) ∧
    (∀ newer mid older s why t d,
      c.log = newer ++ .closed s why t :: (mid ++ .refused s d :: older) →
        why ≠ .shutdown ∧ (d ≤ t ∨ REFUSE_MAX ≤ (refusals mid).length)) := by
  have hI : c.RefusalsKept := h.refusalsKept
  refine ⟨hI.sorted, ?_, hI.capped, ?_⟩
  · intro e rest hr e' he'
    have hs : Queue.Sorted (e :: rest) := by
      rw [← hr]
      exact hI.sorted
    apply hs.head_le
    rw [← hr]
    exact he'
  · intro newer mid older s why t d hlog
    have hclosed : History.Always ClosedLate c.log := hI.closed
    rw [hlog] at hclosed
    exact hclosed.entry s why t rfl d _ _ (refusals_append mid _)

/-- A connection refused at time 0 is closed at the end of a wait cut down to its deadline. -/
def refusedAndReaped : List Input :=
  [.main .next, .main .next, .main .next, .main .ready, .main .next, .main (.accept (some 2)),
    .main .next, .main .next, .main .next, .main .next, .main .next, .tick 1, .main .next,
    .main .next, .main .next, .main .elapsed, .main .next]

theorem refused_held_reaped :
    ∃ c, Machine.run Cfg.step (.serve (some 1) none 0 false) refusedAndReaped = some c ∧
      c.log = [.closed 0 .reaped 1, .waitBegan 1, .refused 0 1, .forbidden 0 FORBIDDEN,
        .accepted 0 (some 2) 0, .waitBegan 0] ∧
      (Why.reaped ≠ .shutdown ∧ ((1 : ℚ) ≤ 1 ∨ REFUSE_MAX ≤ (refusals [.waitBegan 1]).length)) := by
  have hrun : (Machine.run Cfg.step (.serve (some 1) none 0 false) refusedAndReaped).map Cfg.log =
      some [.closed 0 .reaped 1, .waitBegan 1, .refused 0 1, .forbidden 0 FORBIDDEN,
        .accepted 0 (some 2) 0, .waitBegan 0] := by
    decide +kernel
  obtain ⟨c, hc, hlog⟩ := Option.map_eq_some_iff.mp hrun
  refine ⟨c, hc, hlog, ?_⟩
  exact (refused_held ⟨0, false, refusedAndReaped, hc⟩).2.2.2 [] [.waitBegan 1] _ 0 .reaped 1 1 hlog

end FluxRest
