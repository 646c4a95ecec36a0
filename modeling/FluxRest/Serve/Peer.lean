import FluxRest.Serve.Runs

/-! The check of the peer's uid: who is served, and who is refused unheard. -/
namespace FluxRest
open Py

namespace Pc

/-- The connection `verify_request` has let through, until its response is made. -/
def permitted : Pc → Option Sock
  | admitted s | setInRequest s | read s | route s => some s
  | _ => none

/-- The connection `verify_request` has turned away, until it is in the queue. -/
def turnedAway : Pc → Option Sock
  | refuse s | hold s => some s
  | _ => none

theorem sock_of_permitted {pc : Pc} {s : Sock} (h : pc.permitted = some s) : pc.sock = some s := by
  cases pc <;> first | exact h | cases h

theorem sock_of_turnedAway {pc : Pc} {s : Sock} (h : pc.turnedAway = some s) :
    pc.sock = some s := by
  cases pc <;> first | exact h | cases h

theorem Proceeds.permitted {s : Sock} {pc pc' : Pc} (h : Proceeds s pc pc')
    (hs : pc'.permitted = some s) :
    pc.permitted = some s ∨ ∃ peer, pc = verify s peer ∧ pc' = admitted s := by
  cases h with
  | permit peer => exact Or.inr ⟨peer, rfl, rfl⟩
  | enter | begin | request => exact Or.inl rfl
  | writeFails rest h => obtain rfl | rfl := h <;> cases hs
  | _ => cases hs

theorem Proceeds.turnedAway {s : Sock} {pc pc' : Pc} (h : Proceeds s pc pc')
    (hs : pc'.turnedAway = some s) :
    pc.turnedAway = some s ∨ ∃ peer, pc = verify s peer ∧ pc' = refuse s := by
  cases h with
  | reject peer => exact Or.inr ⟨peer, rfl, rfl⟩
  | forbid => exact Or.inl rfl
  | writeFails rest h => obtain rfl | rfl := h <;> cases hs
  | _ => cases hs

theorem interrupted_neither (pc : Pc) :
    pc.interrupted.permitted = none ∧ pc.interrupted.turnedAway = none ∧
      ∀ s peer, pc.interrupted ≠ .verify s peer := by
  cases pc <;> exact ⟨rfl, rfl, nofun⟩

end Pc

namespace Cfg

variable {c c' : Cfg}

theorem Advances.to_verify (h : c.Advances c') {s : Sock} {peer : Option ℕ}
    (hpc : c'.pc = .verify s peer) : .accepted s peer c.now ∈ c'.log := by
  cases h with
  | accept =>
    cases hpc
    exact List.mem_cons_self
  | moves h => cases h <;> cases hpc
  | evict h =>
    rw [h] at hpc
    cases hpc
  | writeFails _ h => obtain rfl | rfl := h <;> cases hpc
  | _ => cases hpc

theorem Advances.of_verify (h : c.Advances c') {s : Sock} {peer : Option ℕ}
    (hpc : c.pc = .verify s peer) :
    c.srv.verifyRequest peer = true ∧ c'.pc = .admitted s ∨
      c.srv.verifyRequest peer = false ∧ c'.pc = .refuse s := by
  cases h with
  | moves h =>
    cases h with
    | permit h hv =>
      rw [hpc] at h
      cases h
      exact Or.inl ⟨hv, rfl⟩
    | reject h hv =>
      rw [hpc] at h
      cases h
      exact Or.inr ⟨hv, rfl⟩
    | raises h => obtain h | h := h <;> rw [hpc] at h <;> cases h
    | _ h =>
      rw [hpc] at h
      cases h
  | respond h => obtain h | h := h <;> rw [hpc] at h <;> cases h
  | _ h =>
    rw [hpc] at h
    cases h

theorem Advances.permitted (h : c.Advances c') {s : Sock} (hs : c'.pc.permitted = some s) :
    c.pc.permitted = some s ∨ ∃ peer, c.pc = .verify s peer ∧ c.srv.verifyRequest peer = true := by
  obtain ⟨hp, -⟩ | ⟨-, ⟨peer, hpc'⟩, -⟩ := h.proceeds (Pc.sock_of_permitted hs)
  · obtain hp | ⟨peer, hpc, hpc'⟩ := hp.permitted hs
    · exact Or.inl hp
    · obtain ⟨hv, -⟩ | ⟨-, hrefuse⟩ := h.of_verify hpc
      · exact Or.inr ⟨peer, hpc, hv⟩
      · rw [hpc'] at hrefuse
        cases hrefuse
  · rw [hpc'] at hs
    cases hs

theorem Advances.turnedAway (h : c.Advances c') {s : Sock} (hs : c'.pc.turnedAway = some s) :
    c.pc.turnedAway = some s ∨ ∃ peer, c.pc = .verify s peer ∧ c.srv.verifyRequest peer = false := by
  obtain ⟨hp, -⟩ | ⟨-, ⟨peer, hpc'⟩, -⟩ := h.proceeds (Pc.sock_of_turnedAway hs)
  · obtain hp | ⟨peer, hpc, hpc'⟩ := hp.turnedAway hs
    · exact Or.inl hp
    · obtain ⟨-, hadmitted⟩ | ⟨hv, -⟩ := h.of_verify hpc
      · rw [hpc'] at hadmitted
        cases hadmitted
      · exact Or.inr ⟨peer, hpc, hv⟩
  · rw [hpc'] at hs
    cases hs

theorem Advances.of_refuse (h : c.Advances c') {s : Sock} (hpc : c.pc = .refuse s) :
    .forbidden s FORBIDDEN ∈ c'.log := by
  cases h with
  | forbid h =>
    rw [hpc] at h
    cases h
    exact List.mem_cons_self
  | moves h =>
    cases h with
    | raises h => obtain h | h := h <;> rw [hpc] at h <;> cases h
    | _ h =>
      rw [hpc] at h
      cases h
  | respond h => obtain h | h := h <;> rw [hpc] at h <;> cases h
  | _ h =>
    rw [hpc] at h
    cases h

/-- A connection is numbered as it is accepted. -/
theorem Advances.accepted_lt (h : c.Advances c')
    (hI : ∀ s peer t, .accepted s peer t ∈ c.log → s < c.next) {s : Sock} {peer : Option ℕ} {t : ℚ}
    (hmem : .accepted s peer t ∈ c'.log) : s < c'.next := by
  obtain ⟨haccept, hpc, -, -⟩ | hmem := h.of_mem_log hmem
  · obtain ⟨hp, -⟩ | ⟨-, -, hs, hn⟩ := h.proceeds (congrArg Pc.sock hpc)
    · have hsock : c.pc.sock = some s := hp.sock
      rw [haccept] at hsock
      cases hsock
    · rw [hn, hs]
      exact Nat.lt_succ_self _
  · exact (hI s peer t hmem).trans_le h.next_le

theorem Advances.of_accept (h : c.Advances c') (hpc : c.pc = .accept) :
    c'.log = c.log ∨ ∃ peer, c'.log = .accepted c.next peer c.now :: c.log := by
  cases h with
  | accept h peer => exact Or.inr ⟨peer, rfl⟩
  | moves => exact Or.inl rfl
  | respond h => obtain h | h := h <;> rw [hpc] at h <;> cases h
  | _ h =>
    rw [hpc] at h
    cases h

/-- What is known of the peers of the connections, where only the uid `u` is allowed. -/
structure PeersKept (u : ℕ) (c : Cfg) : Prop where
  allowed : c.srv.allowedPeerUid = some u
  fresh : ∀ s peer t, .accepted s peer t ∈ c.log → s < c.next
  once : ∀ s peer t peer' t', .accepted s peer t ∈ c.log → .accepted s peer' t' ∈ c.log →
    peer = peer'
  verify : ∀ s peer, c.pc = .verify s peer → ∃ t, .accepted s peer t ∈ c.log
  permitted : ∀ s, c.pc.permitted = some s → ∃ t, .accepted s (some u) t ∈ c.log
  served : ∀ s, .began s ∈ c.log ∨ .ran s ∈ c.log → ∃ t, .accepted s (some u) t ∈ c.log
  turnedAway : ∀ s, c.pc.turnedAway = some s → ∃ peer t, .accepted s peer t ∈ c.log ∧ peer ≠ some u
  forbidden : ∀ s response, .forbidden s response ∈ c.log →
    ∃ peer t, .accepted s peer t ∈ c.log ∧ peer ≠ some u
  answered : ∀ s peer t, .accepted s peer t ∈ c.log → peer ≠ some u →
    .forbidden s FORBIDDEN ∈ c.log ∨ c.pc = .verify s peer ∨ c.pc = .refuse s ∨
      c.pc.leaving = true

variable {u : ℕ}

theorem PeersKept.verifyRequest_iff (hI : PeersKept u c) {peer : Option ℕ} :
    c.srv.verifyRequest peer = true ↔ peer = some u := by
  rw [Server.verifyRequest, hI.allowed, decide_eq_true_eq]

theorem PeersKept.once_advance (hI : PeersKept u c) (h : c.Advances c') {s : Sock}
    {peer peer' : Option ℕ} {t t' : ℚ} (hs : .accepted s peer t ∈ c'.log)
    (hs' : .accepted s peer' t' ∈ c'.log) : peer = peer' := by
  obtain ⟨-, hpc, rfl, -⟩ | hs := h.of_mem_log hs
  · obtain ⟨-, hpc', -, -⟩ | hs' := h.of_mem_log hs'
    · rw [hpc] at hpc'
      cases hpc'
      rfl
    · exact absurd rfl (hI.fresh _ _ _ hs').ne
  · obtain ⟨-, -, rfl, -⟩ | hs' := h.of_mem_log hs'
    · exact absurd rfl (hI.fresh _ _ _ hs).ne
    · exact hI.once s peer t peer' t' hs hs'

theorem PeersKept.advance (hI : PeersKept u c) (h : c.Advances c') : PeersKept u c' := by
  have hpermitted : ∀ s, c.pc.permitted = some s → ∃ t, .accepted s (some u) t ∈ c'.log := by
    intro s hs
    obtain ⟨t, ht⟩ := hI.permitted s hs
    exact ⟨t, h.mem_log ht⟩
  have hturned : ∀ s, c.pc.turnedAway = some s →
      ∃ peer t, .accepted s peer t ∈ c'.log ∧ peer ≠ some u := by
    intro s hs
    obtain ⟨peer, t, ht, hne⟩ := hI.turnedAway s hs
    exact ⟨peer, t, h.mem_log ht, hne⟩
  constructor
  · rw [h.limits.1]
    exact hI.allowed
  · intro s peer t hmem
    exact h.accepted_lt hI.fresh hmem
  · intro s peer t peer' t' hs hs'
    exact hI.once_advance h hs hs'
  · intro s peer hpc
    exact ⟨c.now, h.to_verify hpc⟩
  · intro s hs
    obtain hs | ⟨peer, hpc, hv⟩ := h.permitted hs
    · exact hpermitted s hs
    · obtain ⟨t, ht⟩ := hI.verify s peer hpc
      rw [hI.verifyRequest_iff.mp hv] at ht
      exact ⟨t, h.mem_log ht⟩
  · intro s hs
    have hold : .began s ∈ c.log ∨ .ran s ∈ c.log → ∃ t, .accepted s (some u) t ∈ c'.log := by
      intro hs
      obtain ⟨t, ht⟩ := hI.served s hs
      exact ⟨t, h.mem_log ht⟩
    obtain hs | hs := hs
    · obtain hpc | hs := h.of_mem_log hs
      · exact hpermitted s (congrArg Pc.permitted hpc)
      · exact hold (Or.inl hs)
    · obtain hpc | hs := h.of_mem_log hs
      · exact hpermitted s (congrArg Pc.permitted hpc)
      · exact hold (Or.inr hs)
  · intro s hs
    obtain hs | ⟨peer, hpc, hv⟩ := h.turnedAway hs
    · exact hturned s hs
    · obtain ⟨t, ht⟩ := hI.verify s peer hpc
      refine ⟨peer, t, h.mem_log ht, ?_⟩
      intro hpeer
      rw [hI.verifyRequest_iff.mpr hpeer] at hv
      cases hv
  · intro s response hs
    obtain hpc | hs := h.of_mem_log hs
    · exact hturned s (congrArg Pc.turnedAway hpc)
    · obtain ⟨peer, t, ht, hne⟩ := hI.forbidden s response hs
      exact ⟨peer, t, h.mem_log ht, hne⟩
  · intro s peer t hs hne
    obtain hadds | hs := h.of_mem_log hs
    · exact Or.inr (Or.inl hadds.2.1)
    · obtain hf | hpc | hpc | hl := hI.answered s peer t hs hne
      · exact Or.inl (h.mem_log hf)
      · obtain ⟨hv, -⟩ | ⟨-, hpc'⟩ := h.of_verify hpc
        · exact absurd (hI.verifyRequest_iff.mp hv) hne
        · exact Or.inr (Or.inr (Or.inl hpc'))
      · exact Or.inl (h.of_refuse hpc)
      · exact Or.inr (Or.inr (Or.inr (h.leaving hl).1))

theorem PeersKept.stop (hI : PeersKept u c) (signal : Signal) : PeersKept u (c.stop signal) := by
  have hold : ∀ o, o ∈ c.log → o ∈ (c.stop signal).log := by
    intro o ho
    rw [stop_log]
    exact List.mem_cons_of_mem _ ho
  have hmem : ∀ o : Obs, o.isHandled = false → o ∈ (c.stop signal).log → o ∈ c.log := by
    intro o ho h
    rw [stop_log] at h
    obtain rfl | h := List.mem_cons.mp h
    · cases ho
    · exact h
  have hpc : (c.stop signal).pc = c.pc ∨ (c.stop signal).pc = c.pc.interrupted := by
    rw [stop_pc]
    split_ifs
    · exact Or.inr rfl
    · exact Or.inl rfl
  obtain ⟨hpermitted, hturned, hverify⟩ := c.pc.interrupted_neither
  constructor
  · rw [stop_srv]
    exact hI.allowed
  · intro s peer t hs
    rw [stop_next]
    exact hI.fresh s peer t (hmem _ rfl hs)
  · intro s peer t peer' t' hs hs'
    exact hI.once s peer t peer' t' (hmem _ rfl hs) (hmem _ rfl hs')
  · intro s peer hs
    obtain hpc | hpc := hpc
    · rw [hpc] at hs
      obtain ⟨t, ht⟩ := hI.verify s peer hs
      exact ⟨t, hold _ ht⟩
    · exact absurd (hpc.symm.trans hs) (hverify s peer)
  · intro s hs
    obtain hpc | hpc := hpc
    · rw [hpc] at hs
      obtain ⟨t, ht⟩ := hI.permitted s hs
      exact ⟨t, hold _ ht⟩
    · rw [hpc, hpermitted] at hs
      cases hs
  · intro s hs
    have hs' : .began s ∈ c.log ∨ .ran s ∈ c.log := hs.imp (hmem _ rfl) (hmem _ rfl)
    obtain ⟨t, ht⟩ := hI.served s hs'
    exact ⟨t, hold _ ht⟩
  · intro s hs
    obtain hpc | hpc := hpc
    · rw [hpc] at hs
      obtain ⟨peer, t, ht, hne⟩ := hI.turnedAway s hs
      exact ⟨peer, t, hold _ ht, hne⟩
    · rw [hpc, hturned] at hs
      cases hs
  · intro s response hs
    obtain ⟨peer, t, ht, hne⟩ := hI.forbidden s response (hmem _ rfl hs)
    exact ⟨peer, t, hold _ ht, hne⟩
  · intro s peer t hs hne
    obtain hf | hanswered := hI.answered s peer t (hmem _ rfl hs) hne
    · exact Or.inl (hold _ hf)
    · obtain hpc | hpc := hpc
      · rw [hpc]
        exact Or.inr hanswered
      · rw [hpc]
        exact Or.inr (Or.inr (Or.inr (Pc.leaving_interrupted _)))

variable {T : Option ℚ}

theorem Reached.peersKept (h : Reached (some u) T c) : PeersKept u c := by
  apply h.invariant
  · intro now ign
    exact ⟨rfl, nofun, nofun, nofun, nofun, by simp [serve], nofun, nofun, nofun⟩
  · intro c d _ hI _
    exact ⟨hI.allowed, hI.fresh, hI.once, hI.verify, hI.permitted, hI.served, hI.turnedAway,
      hI.forbidden, hI.answered⟩
  · intro c signal _ hI
    exact hI.stop signal
  · intro c c' _ hI h
    exact hI.advance h

/-- Only connections of the uid `u` are served; the others are refused, and no byte of a refused
connection is read. -/
structure ServesOnly (u : ℕ) (c : Cfg) : Prop where
  allowed : c.srv.allowedPeerUid = some u
  served : ∀ s, .began s ∈ c.log ∨ .ran s ∈ c.log → ∃ t, .accepted s (some u) t ∈ c.log
  refused : ∀ s peer t, .accepted s peer t ∈ c.log → peer ≠ some u →
    .forbidden s FORBIDDEN ∈ c.log ∨ c.pc = .verify s peer ∨ c.pc = .refuse s ∨
      c.pc.leaving = true
  unheard : ∀ s response, .forbidden s response ∈ c.log → .began s ∉ c.log ∧ .ran s ∉ c.log

theorem Reached.servesOnly (h : Reached (some u) T c) : ServesOnly u c := by
  have hI : PeersKept u c := h.peersKept
  refine ⟨hI.allowed, hI.served, hI.answered, ?_⟩
  intro s response hs
  obtain ⟨peer, t, ht, hne⟩ := hI.forbidden s response hs
  have hunserved : ¬ (.began s ∈ c.log ∨ .ran s ∈ c.log) := by
    intro hserved
    obtain ⟨t', ht'⟩ := hI.served s hserved
    exact hne (hI.once s peer t (some u) t' ht ht')
  exact not_or.mp hunserved

end Cfg

end FluxRest
