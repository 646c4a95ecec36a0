import FluxRest.Serve.Refusal
import FluxRest.Serve.Peer
import FluxRest.Serve.Stop

/-! Where each accepted connection is: in hand, in the queue, or closed, and never in two places. -/
namespace FluxRest
open Py

/-- Whether a peer may connect, where only the uid `uid` may, or any. -/
def permits (uid peer : Option ℕ) : Bool := ({ allowedPeerUid := uid } : Server).verifyRequest peer

def Obs.closes (s : Sock) : Obs → Bool
  | .closed s' _ _ => s' = s
  | _ => false

/-- How often the server has closed a connection. -/
def closes (s : Sock) (log : List Obs) : ℕ := log.countP (Obs.closes s)

/-- How often a connection is in the queue. -/
def held (s : Sock) (q : List (Sock × ℚ)) : ℕ := q.countP fun e => e.1 = s

/-- The connection the main thread still has to close or to put in the queue. -/
def Pc.owned : Pc → Option Sock
  | evict _ | shutdownRefused _ | clear _ => none
  | pc => pc.sock

theorem Pc.Proceeds.ne_verify {s : Sock} {pc pc' : Pc} (h : Pc.Proceeds s pc pc') (s' : Sock)
    (peer : Option ℕ) : pc' ≠ .verify s' peer := by
  cases h with
  | writeFails _ h => obtain rfl | rfl := h <;> exact nofun
  | _ => exact nofun

/-- A `KeyboardInterrupt` is on its way out of `serve`, or has left it. -/
def Pc.unwound : Pc → Bool
  | clearUnwound _ | shutdownUnwound _ => true
  | disarm raised | serverClose raised | exited raised => raised
  | _ => false

theorem closes_cons_of {o : Obs} {s : Sock} (ho : o.closes s = false) (log : List Obs) :
    closes s (o :: log) = closes s log := by
  rw [closes, List.countP_cons, ho]
  rfl

theorem closes_cons_closed (s s' : Sock) (why : Why) (t : ℚ) (log : List Obs) :
    closes s (.closed s' why t :: log) = closes s log + if s' = s then 1 else 0 := by
  unfold closes
  rw [List.countP_cons]
  simp [Obs.closes]

theorem held_append (s : Sock) (q q' : List (Sock × ℚ)) : held s (q ++ q') = held s q + held s q' :=
  List.countP_append

theorem held_cons (s : Sock) (e : Sock × ℚ) (q : List (Sock × ℚ)) :
    held s (e :: q) = held s q + if e.1 = s then 1 else 0 := by
  unfold held
  rw [List.countP_cons]
  simp

theorem isRefused_iff {srv : Server} {s : Sock} : srv.isRefused s = true ↔ 0 < held s srv.refused := by
  rw [Server.isRefused, held, List.countP_pos_iff, List.any_eq_true]

/-- What is due and what is not make up the queue. -/
theorem held_due_pending (s : Sock) (now : ℚ) (q : List (Sock × ℚ)) :
    held s (Queue.due now q) + held s (Queue.pending now q) = held s q := by
  induction q with
  | nil => rfl
  | cons e q ih =>
    unfold Queue.due Queue.pending at ih ⊢
    rw [List.filter_cons, List.filter_cons]
    by_cases he : e.2 ≤ now
    · have hlt : ¬ now < e.2 := not_lt.mpr he
      simp only [he, hlt, decide_true, decide_false, if_true, Bool.false_eq_true, if_false, held_cons]
      omega
    · have hlt : now < e.2 := not_le.mp he
      simp only [he, hlt, decide_true, decide_false, if_true, Bool.false_eq_true, if_false, held_cons]
      omega

namespace Cfg

variable {c c' : Cfg}

theorem closes_reap (s : Sock) :
    closes s c.reap.log = closes s c.log + held s (Queue.due c.now c.srv.refused) := by
  have hdue : ∀ q : List (Sock × ℚ),
      closes s (q.map fun e => Obs.closed e.1 .reaped c.now) = held s q := by
    intro q
    induction q with
    | nil => rfl
    | cons e q ih => rw [List.map_cons, closes_cons_closed, held_cons, ih]
  rw [reap_log, closes, List.countP_append, List.countP_reverse]
  have h := hdue (Queue.due c.now c.srv.refused)
  unfold closes at h
  rw [h]
  exact Nat.add_comm _ _

/-- Every connection accepted is in one place: closed, in the queue, or in hand. -/
def Balanced (c : Cfg) : Prop :=
  ∀ s, closes s c.log + held s c.srv.refused + (if c.pc.owned = some s then 1 else 0) =
    if s < c.next then 1 else 0

theorem Moves.owned {pc : Pc} (h : c.Moves pc) : pc.owned = c.pc.owned := by
  cases h with
  | raises h => obtain h | h := h <;> rw [h] <;> rfl
  | _ h =>
    rw [h]
    rfl

/-- A step that closes nothing and leaves the queue alone. -/
theorem Balanced.keep (hI : c.Balanced) (hlog : ∀ s, closes s c'.log = closes s c.log)
    (hr : c'.srv.refused = c.srv.refused) (hpc : c'.pc.owned = c.pc.owned)
    (hnext : c'.next = c.next) : c'.Balanced := by
  intro s
  rw [hlog, hr, hpc, hnext]
  exact hI s

/-- `shutdown_request` closes the connection in hand. -/
theorem Balanced.shutdown (hI : c.Balanced) {s : Sock} (hs : c.pc.owned = some s) {pc : Pc}
    (hpc : pc.owned = none) : Balanced { c.shutdownRequest s with pc } := by
  have hsum := hI s
  rw [if_pos hs] at hsum
  obtain ⟨hr, -⟩ | ⟨-, hc⟩ := c.shutdownRequest_cases s
  · have hpos : 0 < held s c.srv.refused := isRefused_iff.mp hr
    split_ifs at hsum
    omega
  · rw [hc]
    intro s'
    have hsum' := hI s'
    rw [hs] at hsum'
    dsimp only
    rw [closes_cons_closed, hpc]
    by_cases heq : s = s'
    · subst heq
      simp only [if_true] at hsum' ⊢
      simp only [reduceCtorEq, if_false]
      omega
    · have hne : ¬ some s = some s' := fun h => heq (Option.some.inj h)
      simp only [hne, heq, reduceCtorEq, if_false] at hsum' ⊢
      omega

/-- `shutdown_request` leaves a connection in the queue alone. -/
theorem Balanced.spare (hI : c.Balanced) {s : Sock} (hpc : c.pc = .shutdownRefused s)
    (hr : c.srv.isRefused s = true) {pc : Pc} (hpc' : pc.owned = none) :
    Balanced { c.shutdownRequest s with pc } := by
  obtain ⟨-, hc⟩ | ⟨hfalse, -⟩ := c.shutdownRequest_cases s
  · rw [hc]
    apply hI.keep
    · exact fun _ => rfl
    · rfl
    · rw [hpc, hpc']
      rfl
    · rfl
  · rw [hr] at hfalse
    cases hfalse

/-- A reaping closes what it takes from the queue. -/
theorem Balanced.reap (hI : c.Balanced) (hown : c.pc.owned = none) {pc : Pc}
    (hpc : pc.owned = none) : Balanced { c.reap with pc } := by
  intro s
  have hsum := hI s
  have hsplit := held_due_pending s c.now c.srv.refused
  have hlog := closes_reap (c := c) s
  rw [hown] at hsum
  dsimp only
  rw [hpc, hlog]
  change closes s c.log + held s (Queue.due c.now c.srv.refused) +
    held s (Queue.pending c.now c.srv.refused) + _ = if s < c.next then 1 else 0
  omega

/-- A connection accepted is new. -/
theorem Balanced.accept (hI : c.Balanced) (hpc : c.pc = .accept) (peer : Option ℕ) : Balanced { c with
    pc := .verify c.next peer, next := c.next + 1, log := .accepted c.next peer c.now :: c.log } := by
  intro s
  have hsum := hI s
  rw [hpc] at hsum
  dsimp only
  rw [closes_cons_of rfl]
  have hown : (Pc.verify c.next peer).owned = some s ↔ c.next = s := Option.some_inj
  have hnone : ¬ Pc.accept.owned = some s := nofun
  rw [if_neg hnone] at hsum
  by_cases hs : c.next = s
  · rw [if_pos (hown.mpr hs)]
    subst hs
    rw [if_neg (lt_irrefl _)] at hsum
    rw [if_pos (Nat.lt_succ_self _)]
    omega
  · rw [if_neg (fun h => hs (hown.mp h))]
    have hlt : s < c.next + 1 ↔ s < c.next := by
      rw [Nat.lt_succ_iff_lt_or_eq]
      exact or_iff_left fun h => hs h.symm
    simp only [hlt]
    exact hsum

theorem Balanced.hold (hI : c.Balanced) {s : Sock} (hpc : c.pc = .hold s) : Balanced { c with
    srv := c.srv.hold s c.now, pc := .evict s,
    log := .refused s (c.now + REFUSE_LINGER) :: c.log } := by
  intro s'
  have hsum := hI s'
  rw [hpc] at hsum
  have hown : (Pc.hold s).owned = some s' ↔ s = s' := Option.some_inj
  have hnone : ¬ (Pc.evict s).owned = some s' := nofun
  dsimp only
  rw [closes_cons_of rfl, if_neg hnone]
  change closes s' c.log + held s' (c.srv.refused ++ [(s, c.now + REFUSE_LINGER)]) + 0 = _
  rw [held_append, held_cons]
  simp only [hown] at hsum
  change closes s' c.log + (held s' c.srv.refused + (0 + if s = s' then 1 else 0)) + 0 = _
  omega

theorem Balanced.evict (hI : c.Balanced) {e : Sock × ℚ} {rest : List (Sock × ℚ)}
    (hr : c.srv.refused = e :: rest) : Balanced { c with
    srv := { c.srv with refused := rest }, log := .closed e.1 .evicted c.now :: c.log } := by
  intro s
  have hsum := hI s
  rw [hr, held_cons] at hsum
  dsimp only
  rw [closes_cons_closed]
  omega

theorem Balanced.advance (hI : c.Balanced)
    (hq : ∀ s, c.pc.queued = some s → c.srv.isRefused s = true) (h : c.Advances c') :
    c'.Balanced := by
  cases h with
  | moves h => exact hI.keep (fun _ => rfl) rfl h.owned rfl
  | reapTimeout h => exact hI.reap (by rw [h]; rfl) rfl
  | reap h => exact hI.reap (by rw [h]; rfl) rfl
  | accept h peer => exact hI.accept h peer
  | hold h => exact hI.hold h
  | evict h hr => exact hI.evict hr
  | shutdownRefused h => exact hI.spare h (hq _ (by rw [h]; rfl)) rfl
  | shutdown h | shutdownRaised h | shutdownUnwound h => exact hI.shutdown (by rw [h]; rfl) rfl
  | wait h | forbid h | begin h | request h | send h =>
    exact hI.keep (fun _ => closes_cons_of rfl _) rfl (by rw [h]; rfl) rfl
  | respond h =>
    refine hI.keep (fun _ => closes_cons_of rfl _) rfl ?_ rfl
    obtain h | h := h <;> rw [h] <;> rfl
  | writeFails h hpc =>
    refine hI.keep (fun _ => closes_cons_of rfl _) rfl ?_ rfl
    rw [h]
    obtain rfl | rfl := hpc <;> rfl
  | serveTimeout h | idle h | clear h | clearRaised h | clearUnwound h | disarm h | serverClose h =>
    exact hI.keep (fun _ => rfl) rfl (by rw [h]; rfl) rfl

/-- Connections of peers that may connect are not refused. -/
structure Judged (uid : Option ℕ) (c : Cfg) : Prop where
  fresh : ∀ s peer t, .accepted s peer t ∈ c.log → s < c.next
  verify : ∀ s peer peer' t, c.pc = .verify s peer → .accepted s peer' t ∈ c.log → peer' = peer
  turnedAway : ∀ s peer t, c.pc.turnedAway = some s → .accepted s peer t ∈ c.log →
    permits uid peer = false
  refused : ∀ e ∈ refusals c.log, ∀ peer t, .accepted e.1 peer t ∈ c.log → permits uid peer = false

variable {uid : Option ℕ} {T : Option ℚ}

theorem Reached.verifyRequest (h : Reached uid T c) (peer : Option ℕ) :
    c.srv.verifyRequest peer = permits uid peer := by
  rw [Server.verifyRequest, permits, Server.verifyRequest, h.limits.1]

/-- What is accepted in a step was not in hand before it. -/
theorem Advances.of_accepted (h : c.Advances c') {s : Sock} {peer : Option ℕ} {t : ℚ}
    (hs : c.pc.sock = some s) (hmem : .accepted s peer t ∈ c'.log) : .accepted s peer t ∈ c.log := by
  obtain ⟨hpc, -⟩ | hmem := h.of_mem_log hmem
  · rw [hpc] at hs
    cases hs
  · exact hmem

theorem Judged.advance (hI : Judged uid c) (hr : Reached uid T c) (h : c.Advances c') :
    Judged uid c' := by
  constructor
  · intro s peer t hmem
    exact h.accepted_lt hI.fresh hmem
  · intro s peer peer' t hpc hmem
    obtain ⟨hp, -⟩ | ⟨-, -, hs, -⟩ := h.proceeds (congrArg Pc.sock hpc)
    · exact absurd hpc (hp.ne_verify s peer)
    · obtain ⟨-, hpc', -⟩ | hmem := h.of_mem_log hmem
      · rw [hpc] at hpc'
        cases hpc'
        rfl
      · exact absurd hs (hI.fresh s peer' t hmem).ne
  · intro s peer t hs hmem
    obtain hs | ⟨peer', hpc, hv⟩ := h.turnedAway hs
    · exact hI.turnedAway s peer t hs (h.of_accepted (Pc.sock_of_turnedAway hs) hmem)
    · rw [hr.verifyRequest] at hv
      rw [hI.verify s peer' peer t hpc (h.of_accepted (congrArg Pc.sock hpc) hmem)]
      exact hv
  · intro e he peer t hmem
    have hold : e ∈ refusals c.log → permits uid peer = false := by
      intro he
      obtain ⟨-, -, hs, -⟩ | hmem := h.of_mem_log hmem
      · exact absurd hs (hr.refusalsKept.fresh e he).ne
      · exact hI.refused e he peer t hmem
    obtain hsame | ⟨s, hpc, hcons, -⟩ := h.refusals
    · rw [hsame] at he
      exact hold he
    · rw [hcons] at he
      obtain rfl | he := List.mem_cons.mp he
      · have hs : c.pc.turnedAway = some s := by rw [hpc]; rfl
        exact hI.turnedAway s peer t hs (h.of_accepted (Pc.sock_of_turnedAway hs) hmem)
      · exact hold he

theorem Judged.stop (hI : Judged uid c) (signal : Signal) : Judged uid (c.stop signal) := by
  have hmem : ∀ s peer t, .accepted s peer t ∈ (c.stop signal).log → .accepted s peer t ∈ c.log := by
    intro s peer t h
    rw [stop_log] at h
    obtain h | h := List.mem_cons.mp h
    · cases h
    · exact h
  obtain ⟨-, hturned, hverify⟩ := c.pc.interrupted_neither
  constructor
  · intro s peer t h
    rw [stop_next]
    exact hI.fresh s peer t (hmem s peer t h)
  · intro s peer peer' t hpc h
    rw [stop_pc] at hpc
    split_ifs at hpc
    · exact absurd hpc (hverify s peer)
    · exact hI.verify s peer peer' t hpc (hmem s peer' t h)
  · intro s peer t hs h
    rw [stop_pc] at hs
    split_ifs at hs
    · rw [hturned] at hs
      cases hs
    · exact hI.turnedAway s peer t hs (hmem s peer t h)
  · intro e he peer t h
    rw [stop_log] at he
    exact hI.refused e he peer t (hmem e.1 peer t h)

theorem Reached.judged (h : Reached uid T c) : Judged uid c := by
  apply h.invariant
  · intro now ign
    exact ⟨nofun, nofun, nofun, nofun⟩
  · intro c d _ hI _
    exact ⟨hI.fresh, hI.verify, hI.turnedAway, hI.refused⟩
  · intro c signal _ hI
    exact hI.stop signal
  · intro c c' hr hI h
    exact hI.advance hr h

/-- A connection that may connect is never in the queue. -/
theorem Reached.not_held (h : Reached uid T c) {s : Sock} {peer : Option ℕ} {t : ℚ}
    (hmem : .accepted s peer t ∈ c.log) (hp : permits uid peer = true) :
    held s c.srv.refused = 0 ∧ ∀ d, .refused s d ∉ c.log := by
  have hnever : ∀ e ∈ refusals c.log, e.1 ≠ s := by
    rintro e he rfl
    rw [h.judged.refused e he peer t hmem] at hp
    cases hp
  constructor
  · unfold held
    rw [List.countP_eq_zero]
    intro e he
    rw [decide_eq_true_eq]
    exact hnever e (h.refusalsKept.latest.mem he)
  · intro d hd
    exact hnever (s, d) (List.mem_filterMap.mpr ⟨_, hd, rfl⟩) rfl

/-- A `KeyboardInterrupt` on its way out comes from `_stop`. -/
theorem Advances.unwound (h : c.Advances c') (hpc : c'.pc.unwound = true) :
    c.pc.unwound = true := by
  cases h with
  | moves h =>
    cases h with
    | _ => cases hpc
  | evict h =>
    rw [h] at hpc
    cases hpc
  | writeFails _ h => obtain rfl | rfl := h <;> cases hpc
  | clearUnwound h | shutdownUnwound h =>
    rw [h]
    rfl
  | disarm h | serverClose h =>
    rw [h]
    exact hpc
  | _ => cases hpc

/-- As a connection is accepted, those accepted earlier that may connect are closed. -/
def ClosedBefore (uid : Option ℕ) (o : Obs) (older : List Obs) : Prop :=
  ∀ s peer t, o = .accepted s peer t → ∀ s' peer' t', .accepted s' peer' t' ∈ older →
    permits uid peer' = true → closes s' older = 1

/-- What the main thread answers for between any two steps, where `_stop` has not raised. -/
structure Ledger (uid : Option ℕ) (c : Cfg) : Prop where
  balanced : c.Balanced
  survives : c.pc.unwound = false
  leaves : c.pc.leaving = true → c.srv.stopping = true ∨ c.srv.idle = true
  closed : History.Always (ClosedBefore uid) c.log

/-- A connection that is neither in hand nor in the queue has been closed. -/
theorem Balanced.closed (hI : c.Balanced) (hr : Reached uid T c) (hpc : c.pc.owned = none) {s : Sock}
    {peer : Option ℕ} {t : ℚ} (hmem : .accepted s peer t ∈ c.log) (hp : permits uid peer = true) :
    closes s c.log = 1 := by
  have hsum := hI s
  have hheld := (hr.not_held hmem hp).1
  have hlt := hr.judged.fresh s peer t hmem
  rw [hpc, if_neg nofun, if_pos hlt] at hsum
  omega

theorem Ledger.advance (hI : Ledger uid c) (hr : Reached uid T c) (h : c.Advances c') :
    Ledger uid c' := by
  have hqueued : ∀ s, c.pc.queued = some s → c.srv.isRefused s = true := by
    intro s hs
    obtain ⟨q, d, hq⟩ := hr.refusalsKept.queued s hs
    rw [isRefused_iff, hq, held_append, held_cons, if_pos rfl]
    omega
  constructor
  · exact hI.balanced.advance hqueued h
  · rw [← Bool.not_eq_true]
    intro hpc
    have hunwound := h.unwound hpc
    rw [hI.survives] at hunwound
    cases hunwound
  · intro hl
    obtain hleaving | ⟨-, -, hsrv, hdone⟩ := h.of_leaving hl
    · obtain ⟨-, -, hidle⟩ := h.leaving hleaving
      rw [h.stopping, hidle]
      exact hI.leaves hleaving
    · rw [hsrv]
      exact hdone
  · by_cases hpc : c.pc = .accept
    · obtain hlog | ⟨peer, hlog⟩ := h.of_accept hpc
      · rw [hlog]
        exact hI.closed
      · rw [hlog]
        refine ⟨?_, hI.closed⟩
        intro s peer t _ s' peer' t' hmem hp
        exact hI.balanced.closed hr (by rw [hpc]; rfl) hmem hp
    · obtain ⟨new, hlog, hnew⟩ := h.log
      rw [hlog]
      apply hI.closed.append
      intro o mid ho s peer t heq
      have hadds : c.Adds c' o := hnew o (ho.mem List.mem_cons_self)
      rw [heq] at hadds
      exact absurd hadds.1 hpc

/-- `_stop` has not raised. -/
def Undisturbed (log : List Obs) : Prop := ∀ signal timer inWindow, .handled signal timer true inWindow ∉ log

theorem Reached.ledger (h : Reached uid T c) : Undisturbed c.log → Ledger uid c := by
  apply h.invariant
  · intro now ign _
    refine ⟨?_, rfl, nofun, trivial⟩
    intro s
    have hnone : ¬ s < (serve uid T now ign).next := Nat.not_lt_zero s
    rw [if_neg hnone]
    rfl
  · intro c d _ hI _ hquiet
    obtain ⟨hb, hs, hl, hc⟩ := hI hquiet
    exact ⟨hb, hs, hl, hc⟩
  · intro c signal _ hI hquiet
    have hraises : c.srv.stopRaises = false := by
      rw [← Bool.not_eq_true]
      intro hraises
      apply hquiet signal (c.byTimer signal) c.pc.inWindow
      rw [stop_log, hraises]
      exact List.mem_cons_self
    have hpc : (c.stop signal).pc = c.pc := by
      rw [stop_pc, hraises]
      rfl
    have hold : Ledger uid c := by
      apply hI
      intro signal' timer inWindow hmem
      apply hquiet signal' timer inWindow
      rw [stop_log]
      exact List.mem_cons_of_mem _ hmem
    constructor
    · apply hold.balanced.keep
      · intro s
        rw [stop_log]
        exact closes_cons_of rfl _
      · rw [stop_srv]
      · rw [hpc]
      · exact stop_next c signal
    · rw [hpc]
      exact hold.survives
    · intro _
      rw [stop_srv]
      exact Or.inl rfl
    · rw [stop_log]
      exact ⟨nofun, hold.closed⟩
  · intro c c' hr hI h hquiet
    apply (hI _).advance hr h
    intro signal timer inWindow hmem
    exact hquiet signal timer inWindow (h.mem_log hmem)

end Cfg

/-- In every run of `serve` in which `_stop` does not raise, whatever the clients do and whatever
the handler raises, the loop is left only by its condition; at each test of the condition
`_in_request` is false and every connection accepted has been closed once and is not in the queue,
or is open and in the queue once; and a connection that may connect is never in the queue, and is
closed before the next is accepted. -/
theorem connections_accounted {uid : Option ℕ} {T : Option ℚ} {c : Cfg} (h : c.Reached uid T)
    (hquiet : Cfg.Undisturbed c.log) :
    (c.pc.unwound = false ∧ (c.pc.leaving = true → c.srv.stopping = true ∨ c.srv.idle = true)) ∧
    (c.pc = .test → c.srv.inRequest = false ∧ ∀ s peer t, .accepted s peer t ∈ c.log →
      closes s c.log = 1 ∧ held s c.srv.refused = 0 ∨
      closes s c.log = 0 ∧ held s c.srv.refused = 1) ∧
    (∀ s peer t, .accepted s peer t ∈ c.log → permits uid peer = true →
      held s c.srv.refused = 0 ∧ ∀ d, .refused s d ∉ c.log) ∧
    (∀ newer older s peer t s' peer' t', c.log = newer ++ .accepted s peer t :: older →
      .accepted s' peer' t' ∈ older → permits uid peer' = true → closes s' older = 1) := by
  have hI : Cfg.Ledger uid c := h.ledger hquiet
  refine ⟨⟨hI.survives, hI.leaves⟩, ?_, ?_, ?_⟩
  · intro hpc
    constructor
    · rw [← Bool.not_eq_true]
      intro hin
      have hwindow := h.window hin
      rw [hpc] at hwindow
      obtain hwindow | hwindow := hwindow <;> cases hwindow
    · intro s peer t hmem
      have hsum := hI.balanced s
      have hlt := h.judged.fresh s peer t hmem
      rw [hpc, if_neg nofun, if_pos hlt] at hsum
      omega
  · intro s peer t hmem hp
    exact h.not_held hmem hp
  · intro newer older s peer t s' peer' t' hlog hmem hp
    have hclosed := hI.closed
    rw [hlog] at hclosed
    exact hclosed.entry s peer t rfl s' peer' t' hmem hp

/-- A peer that may not connect is refused, and the handler of one that may raises. -/
def refusedThenRaised : List Input :=
  [.main .next, .main .next, .main .next, .main .ready, .main .next, .main (.accept (some 2)),
    .main .next, .main .next, .main .next, .main .next, .main .next, .main .next, .main .next,
    .main .next, .main .ready, .main .next, .main (.accept (some 1)), .main .next, .main .next,
    .main .next, .main .request, .main .raises, .main .next, .main .next, .main .next]

theorem connections_accounted_raised :
    ∃ c, Machine.run Cfg.step (.serve (some 1) none 0 false) refusedThenRaised = some c ∧
      c.pc = .test ∧ c.srv.inRequest = false ∧
      (closes 0 c.log = 1 ∧ held 0 c.srv.refused = 0 ∨
        closes 0 c.log = 0 ∧ held 0 c.srv.refused = 1) ∧
      (closes 1 c.log = 1 ∧ held 1 c.srv.refused = 0 ∨
        closes 1 c.log = 0 ∧ held 1 c.srv.refused = 1) := by
  have hrun : (Machine.run Cfg.step (.serve (some 1) none 0 false) refusedThenRaised).map
      (fun c => (c.pc, c.log)) = some (.test, [.closed 1 .shutdown 0, .ran 1, .began 1,
        .accepted 1 (some 1) 0, .waitBegan 0, .refused 0 1, .forbidden 0 FORBIDDEN,
        .accepted 0 (some 2) 0, .waitBegan 0]) := by
    decide +kernel
  obtain ⟨c, hc, hpair⟩ := Option.map_eq_some_iff.mp hrun
  obtain ⟨hpc, hlog⟩ := Prod.mk.inj hpair
  have hquiet : Cfg.Undisturbed c.log := by
    intro signal timer inWindow hmem
    rw [hlog] at hmem
    simp at hmem
  obtain ⟨hin, haccounted⟩ :=
    (connections_accounted ⟨0, false, refusedThenRaised, hc⟩ hquiet).2.1 hpc
  refine ⟨c, hc, hpc, hin, haccounted 0 (some 2) 0 ?_, haccounted 1 (some 1) 0 ?_⟩
  · rw [hlog]
    simp
  · rw [hlog]
    simp

end FluxRest
