import BoundedJobs.Proofs.Semaphore.Usage

/-!
# First come, first served

Whoever waits for a slot is served in the order of the calls, and nobody is forgotten. The first is
a matter of one moment: those who have been granted a slot are always the first callers. The second
is about a whole drain, in which leases are only returned. Each return serves the first of those who
wait, or frees a slot once nobody waits, so it uses up one of both.

* `Usage.tried?` — what `tryAcquire` answers;
* `Usage.served_in_order` — the grants come in the order of the calls, and a slot is taken without
  waiting only while one is free and nobody waits;
* `Usage.Gives` — leases that are returned one after the other, each while it is outstanding;
* `Usage.HandedBack` — what one such return does;
* `Balanced.handBack` — what is left after any number of them;
* `Usage.drained` — everybody has been served by the time that no lease is left.
-/

namespace BoundedJobs

namespace Usage

variable {u v : Usage} {capacity : Nat} {lease : Lease} {leases : List Lease}

/-! ## The order of service -/

/-- What `tryAcquire` answers: a lease, or nothing. -/
def tried? (u : Usage) : Option Lease := u.leases.tryAcquire.2

/-- Whether a call of `acquire` has been granted. -/
def IsGranted (u : Usage) (caller : Nat) : Prop := caller ∈ u.granted.map Prod.fst

theorem tried?_of_open (isOpen : u.leases.slots.isOpen = true) :
    u.tried? = some u.leases.issued := by
  unfold tried? Leases.tryAcquire
  rw [Semaphore.tryAcquire?_of_open isOpen]
  rfl

theorem tried?_of_closed (isClosed : u.leases.slots.isOpen = false) : u.tried? = none := by
  unfold tried? Leases.tryAcquire
  rw [Semaphore.tryAcquire?_of_closed isClosed]

theorem perform_tryAcquire_of_open (isOpen : u.leases.slots.isOpen = true) :
    (u.perform .tryAcquire).taken = u.taken ++ [u.leases.issued] := by
  have hperformed := u.performed .tryAcquire
  generalize u.perform .tryAcquire = v at hperformed
  cases hperformed with
  | taken => rfl
  | refused isClosed => exact absurd (isClosed.symm.trans isOpen) Bool.false_ne_true

theorem perform_tryAcquire_of_closed (isClosed : u.leases.slots.isOpen = false) :
    u.perform .tryAcquire = u := by
  have hperformed := u.performed .tryAcquire
  generalize u.perform .tryAcquire = v at hperformed
  cases hperformed with
  | taken isOpen => exact absurd (isClosed.symm.trans isOpen) Bool.false_ne_true
  | refused => rfl

theorem Balanced.isOpen_iff (h : Balanced capacity u) :
    u.leases.slots.isOpen = true ↔ u.active < capacity ∧ u.ungranted = [] := by
  rw [Semaphore.isOpen_iff, h.capacity_eq, h.ungranted_eq]
  exact Iff.rfl

theorem Balanced.isClosed (h : Balanced capacity u) (full : u.active = capacity) :
    u.leases.slots.isOpen = false := by
  rw [← Bool.not_eq_true, h.isOpen_iff]
  omega

/-- A caller that has been granted a slot has been preceded by all earlier ones. -/
theorem Balanced.isGranted_iff (h : Balanced capacity u) {caller : Nat} :
    u.IsGranted caller ↔ caller < u.granted.length := by
  unfold IsGranted
  rw [h.granted, List.mem_range]

/-- A new lease is none of those that have been handed out. -/
theorem Balanced.issued_not_mem (h : Balanced capacity u) : u.leases.issued ∉ u.handedOut := by
  intro hmem
  exact Nat.lt_irrefl _ (List.mem_range.mp (h.handedOut.mem_iff.mp hmem))

/-- Right after a slot has been passed on, none is left to be taken. -/
theorem Balanced.closed_of_passedOn (h : Balanced capacity u)
    (passed : (u.perform (.surrender lease)).granted ≠ u.granted) :
    (u.perform (.surrender lease)).leases.slots.isOpen = false := by
  refine (h.perform (.surrender lease)).isClosed ?_
  have hperformed := u.performed (.surrender lease)
  generalize u.perform (.surrender lease) = v at passed hperformed
  cases hperformed with
  | passedOn _ _ waiters =>
    -- somebody waited, so all slots were held, and all are
    exact h.busy (by rw [waiters]; exact List.cons_ne_nil _ _)
  | freed | repeated | unknown => exact absurd rfl passed

/-- **First come, first served.** Whatever has been asked of a semaphore: the calls of `acquire`
have been granted in their order, so that at no moment one of them has been granted and an earlier
one has not. A slot is taken without waiting exactly while one is free and nobody waits, under a new
lease; otherwise nothing changes, and so right after a slot has been passed on. -/
theorem served_in_order {given : Value} {slots : Semaphore Nat}
    (accepted : Semaphore.ofValue given = .ok slots) (calls : List Call) :
    let u := (opened slots).after calls
    (u.granted.map Prod.fst).Pairwise (· < ·) ∧
      (∀ moment, moment <+: calls → ∀ earlier later, earlier < later →
        ((opened slots).after moment).IsGranted later →
          ((opened slots).after moment).IsGranted earlier) ∧
      ((∃ lease, u.tried? = some lease) ↔ u.active < slots.capacity ∧ u.ungranted = []) ∧
      (∀ lease, u.tried? = some lease →
        lease ∉ u.handedOut ∧ (u.perform .tryAcquire).taken = u.taken ++ [lease]) ∧
      (u.tried? = none → u.perform .tryAcquire = u) ∧
      ∀ lease, (u.perform (.surrender lease)).granted ≠ u.granted →
        (u.perform (.surrender lease)).tried? = none := by
  intro u
  have h : Balanced slots.capacity u := balanced_after accepted calls
  refine ⟨?_, fun moment _ earlier later hlt hlater => ?_, ?_, fun lease htried => ?_,
    fun hnone => ?_, fun lease hpassed => tried?_of_closed (h.closed_of_passedOn hpassed)⟩
  · -- the granted calls are the first so many calls
    rw [h.granted]
    exact List.pairwise_lt_range
  · have hmoment := balanced_after accepted moment
    rw [hmoment.isGranted_iff] at hlater ⊢
    exact hlt.trans hlater
  · -- whether a slot can be taken at once is whether the semaphore is open
    rw [← h.isOpen_iff]
    cases isOpen : u.leases.slots.isOpen with
    | true => exact iff_of_true ⟨_, tried?_of_open isOpen⟩ rfl
    | false =>
      rw [tried?_of_closed isOpen]
      simp
  · cases isOpen : u.leases.slots.isOpen with
    | true =>
      obtain rfl := Option.some.inj ((tried?_of_open isOpen).symm.trans htried)
      exact ⟨h.issued_not_mem, perform_tryAcquire_of_open isOpen⟩
    | false => exact absurd ((tried?_of_closed isOpen).symm.trans htried) (by simp)
  · cases isOpen : u.leases.slots.isOpen with
    | true => exact absurd ((tried?_of_open isOpen).symm.trans hnone) (by simp)
    | false => exact perform_tryAcquire_of_closed isOpen

/-- Two callers wait for the only slot. Its return serves the first of them, and nobody gets past
the second. -/
theorem served_in_order_twoWaiting :
    let slots : Semaphore Nat := .idle 1 Nat.one_pos
    let u := (opened slots).after [.acquire, .acquire, .acquire]
    Semaphore.ofValue (.number 1) = .ok slots ∧ u.ungranted = [1, 2] ∧ u.tried? = none ∧
      (u.perform (.surrender 0)).granted = u.granted ++ [(1, 1)] ∧
      (u.perform (.surrender 0)).tried? = none := by
  intro slots u
  have accepted : Semaphore.ofValue (.number 1) = .ok slots := rfl
  obtain ⟨-, -, hfree, -, -, hpassed⟩ := served_in_order accepted [.acquire, .acquire, .acquire]
  have hwaiting : u.ungranted ≠ [] := by decide
  have hnone : u.tried? = none := by
    refine Option.eq_none_iff_forall_ne_some.mpr fun lease hlease => ?_
    exact hwaiting (hfree.mp ⟨lease, hlease⟩).2
  exact ⟨accepted, rfl, hnone, rfl, hpassed 0 (by decide)⟩

/-! ## Returns -/

/-- Leases that are returned one after the other, each of them while it is outstanding. -/
def Gives (u : Usage) : List Lease → Prop
  | [] => True
  | lease :: leases => lease ∈ u.outstanding ∧ (u.perform (.surrender lease)).Gives leases

/-- Leases are returned, and nothing else is asked. -/
def handBack (u : Usage) (leases : List Lease) : Usage := u.after (leases.map .surrender)

theorem handBack_append (u : Usage) (first second : List Lease) :
    u.handBack (first ++ second) = (u.handBack first).handBack second := by
  unfold handBack
  rw [List.map_append, after_append]

theorem gives_append {first second : List Lease} :
    u.Gives (first ++ second) ↔ u.Gives first ∧ (u.handBack first).Gives second := by
  induction first generalizing u with
  | nil => exact ⟨fun hsecond => ⟨trivial, hsecond⟩, fun hboth => hboth.2⟩
  | cons lease leases ih => exact (and_congr_right fun _ => ih).trans and_assoc.symm

/-- What the return of an outstanding lease does: it serves the first of those who wait, or frees a
slot when there is nobody. -/
inductive HandedBack (u v : Usage) : Prop
  | served {first : Nat} {others : List Nat} (fresh : Lease)
      (waiting : u.ungranted = first :: others) (left : v.ungranted = others)
      (granted : v.granted = u.granted ++ [(first, fresh)]) (active : v.active = u.active)
  | freed (nobody : u.ungranted = []) (left : v.ungranted = []) (granted : v.granted = u.granted)
      (active : v.active + 1 = u.active)

theorem Balanced.live_of_outstanding (h : Balanced capacity u) (out : lease ∈ u.outstanding) :
    lease ∈ u.leases.live := by
  obtain ⟨hout, hkept⟩ := List.mem_filter.mp out
  rw [h.live]
  exact List.mem_filter.mpr ⟨h.handedOut.mem_iff.mp hout, hkept⟩

/-- **One return** of an outstanding lease. -/
theorem Balanced.handedBack (h : Balanced capacity u) (out : lease ∈ u.outstanding) :
    HandedBack u (u.perform (.surrender lease)) ∧
      (u.perform (.surrender lease)).asked = u.asked := by
  have hlive := h.live_of_outstanding out
  have hnext := h.perform (.surrender lease)
  have hperformed := u.performed (.surrender lease)
  generalize u.perform (.surrender lease) = v at hnext hperformed
  -- an outstanding lease is live, so its return is neither repeated nor unknown
  cases hperformed with
  | freed _ _ waiters =>
    have hpos : 0 < u.leases.slots.held := by
      rw [h.held]
      exact List.length_pos_of_mem hlive
    exact ⟨.freed (h.ungranted_eq.trans waiters) (hnext.ungranted_eq.trans waiters) rfl
      (Nat.sub_add_cancel hpos), rfl⟩
  | passedOn _ _ waiters =>
    exact ⟨.served _ (h.ungranted_eq.trans waiters) hnext.ungranted_eq rfl rfl, rfl⟩
  | repeated _ gone => exact absurd hlive gone
  | unknown unheard => exact absurd (List.mem_filter.mp out).1 unheard

/-- While somebody waits, some lease is outstanding. -/
theorem Balanced.outstanding_ne_nil (h : Balanced capacity u) (waiting : u.ungranted ≠ []) :
    u.outstanding ≠ [] := by
  have hfull : u.active = capacity := h.busy (h.ungranted_eq ▸ waiting)
  have hpos : 0 < capacity := h.capacity_eq ▸ u.leases.slots.positive
  rw [h.active_eq] at hfull
  exact List.ne_nil_of_length_pos (hfull ▸ hpos)

/-- **Any number of returns.** As many callers as leases have been returned are served, in their
order, and each lease beyond them has freed a slot. By induction on the leases from the end, each
return using up a waiter or a slot. -/
theorem Balanced.handBack (h : Balanced capacity u) (gives : u.Gives leases) :
    Balanced capacity (u.handBack leases) ∧ (u.handBack leases).asked = u.asked ∧
      (u.handBack leases).ungranted = u.ungranted.drop leases.length ∧
      (u.handBack leases).active + (u.handBack leases).pending + leases.length
        = u.active + u.pending := by
  induction leases using List.reverseRecOn with
  | nil => exact ⟨h, rfl, rfl, rfl⟩
  | append_singleton leases last ih =>
    obtain ⟨hearlier, hout, -⟩ := gives_append.mp gives
    obtain ⟨hbalanced, hasked, hleft, hspent⟩ := ih hearlier
    obtain ⟨hback, hasked'⟩ := hbalanced.handedBack hout
    have hnext := hbalanced.perform (.surrender last)
    -- the last return comes upon a balanced state, and serves a caller or frees a slot
    have hconcat : u.handBack (leases ++ [last]) = (u.handBack leases).perform (.surrender last) :=
      handBack_append u leases [last]
    rw [hconcat]
    refine ⟨hnext, hasked'.trans hasked, ?_, ?_⟩
    · rw [List.length_append, List.length_singleton, ← List.drop_drop, ← hleft]
      cases hback with
      | served _ waiting left => rw [waiting, left, List.drop_one, List.tail_cons]
      | freed nobody left => rw [nobody, left, List.drop_nil]
    · rw [hbalanced.pending_eq] at hspent
      rw [hnext.pending_eq, List.length_append, List.length_singleton]
      cases hback with
      | served _ waiting left _ active =>
        rw [waiting, List.length_cons] at hspent
        rw [left]
        omega
      | freed nobody left _ active =>
        rw [nobody, List.length_nil] at hspent
        rw [left, List.length_nil]
        omega

/-! ## A whole drain -/

/-- What one return in a drain does: before as many leases have been returned as callers waited, it
serves the oldest of those who still wait, and afterwards it frees a slot. -/
theorem Balanced.handedBack_after (h : Balanced capacity u) {before after : List Lease}
    (gives : u.Gives (before ++ lease :: after)) :
    let s := u.handBack before
    let t := s.perform (.surrender lease)
    (before.length < u.pending → ∃ oldest fresh, oldest ∈ s.ungranted ∧
      (∀ caller ∈ s.ungranted, oldest ≤ caller) ∧ t.granted = s.granted ++ [(oldest, fresh)] ∧
      t.active = s.active) ∧
    (u.pending ≤ before.length → t.granted = s.granted ∧ t.active + 1 = s.active) := by
  intro s t
  obtain ⟨hbefore, hout, -⟩ := gives_append.mp gives
  obtain ⟨hbalanced, -, hwaiting, -⟩ := h.handBack hbefore
  have hpending : s.ungranted.length = u.pending - before.length := by
    rw [h.pending_eq, hwaiting, List.length_drop]
  obtain ⟨hback, -⟩ := hbalanced.handedBack hout
  cases hback with
  | @served first others fresh waiting left granted active =>
    rw [waiting, List.length_cons] at hpending
    refine ⟨fun _ => ?_, fun hle => by omega⟩
    refine ⟨first, fresh, waiting ▸ List.mem_cons_self, fun caller hmem => ?_, granted, active⟩
    -- those who wait are listed in the order of their calls
    have hsorted : s.ungranted.Pairwise (· < ·) := List.pairwise_lt_range.filter _
    rw [waiting] at hsorted hmem
    rcases List.mem_cons.mp hmem with rfl | hother
    · exact Nat.le_refl _
    · exact ((List.pairwise_cons.mp hsorted).1 caller hother).le
  | freed nobody _ granted active =>
    rw [nobody, List.length_nil] at hpending
    exact ⟨fun hlt => by omega, fun _ => ⟨granted, active⟩⟩

/-- A drain can go on as long as a slot is held or somebody waits. -/
theorem Balanced.exists_outstanding (h : Balanced capacity u) (rest : 0 < u.active + u.pending) :
    ∃ lease, lease ∈ u.outstanding := by
  refine List.exists_mem_of_ne_nil _ ?_
  by_cases hwaiting : u.ungranted = []
  · have hnobody := h.pending_eq
    rw [hwaiting, List.length_nil] at hnobody
    refine List.ne_nil_of_length_pos ?_
    rw [← h.active_eq]
    omega
  · exact h.outstanding_ne_nil hwaiting

/-- When nobody waits, all calls have been granted. -/
theorem Balanced.granted_of_nobody (h : Balanced capacity u) (nobody : u.pending = 0) :
    u.granted.map Prod.fst = List.range u.asked := by
  have hlength : u.asked - u.granted.length = 0 := by
    rw [← nobody]
    change _ = u.leases.slots.waiters.length
    rw [h.waiters, List.length_range']
  have hle := h.granted_le
  rw [h.granted]
  congr 1
  omega

/-- **Nobody is forgotten.** Whatever has been asked of a semaphore, leases are then returned one
after the other, each while it is outstanding. As long as somebody waits, each return serves one
caller, the oldest, and no fewer slots are held; and there is a lease to be returned. Each later one
frees a slot. There can be as many returns as slots were held and callers waited, and no more; by
then no slot is held, nobody waits, and every call has been granted once. -/
theorem drained {given : Value} {slots : Semaphore Nat}
    (accepted : Semaphore.ofValue given = .ok slots) (calls : List Call) (returns : List Lease)
    (gives : ((opened slots).after calls).Gives returns) :
    let u := (opened slots).after calls
    let final := u.handBack returns
    (∀ before lease after, returns = before ++ lease :: after →
      let s := u.handBack before
      let t := s.perform (.surrender lease)
      (before.length < u.pending → ∃ oldest fresh, oldest ∈ s.ungranted ∧
        (∀ caller ∈ s.ungranted, oldest ≤ caller) ∧ t.granted = s.granted ++ [(oldest, fresh)] ∧
        t.active = s.active) ∧
      (u.pending ≤ before.length → t.granted = s.granted ∧ t.active + 1 = s.active)) ∧
    (∀ moment, moment <+: returns → 0 < (u.handBack moment).pending →
      (u.handBack moment).outstanding ≠ []) ∧
    returns.length ≤ u.active + u.pending ∧
    (returns.length < u.active + u.pending → ∃ lease, u.Gives (returns ++ [lease])) ∧
    (returns.length = u.active + u.pending → final.active = 0 ∧ final.pending = 0 ∧
      final.asked = u.asked ∧ final.granted.map Prod.fst = List.range u.asked) := by
  intro u final
  have h : Balanced slots.capacity u := balanced_after accepted calls
  -- every return uses up a waiter or a slot, which bounds their number
  obtain ⟨hfinal, hasked, -, hspent⟩ := h.handBack gives
  change final.active + final.pending + _ = _ at hspent
  refine ⟨?_, ?_, by omega, fun hless => ?_, fun hall => ?_⟩
  · rintro before lease after rfl
    exact h.handedBack_after gives
  · rintro moment ⟨rest, rfl⟩ hpending
    -- somebody who waits does so because all slots are held, so there is a lease
    obtain ⟨hbalanced, -⟩ := h.handBack (gives_append.mp gives).1
    rw [hbalanced.pending_eq] at hpending
    exact hbalanced.outstanding_ne_nil (List.ne_nil_of_length_pos hpending)
  · -- as long as something is held or somebody waits, a lease is outstanding
    have hrest : 0 < final.active + final.pending := by omega
    obtain ⟨lease, hlease⟩ := hfinal.exists_outstanding hrest
    exact ⟨lease, gives_append.mpr ⟨gives, hlease, trivial⟩⟩
  · have hnobody : final.pending = 0 := by omega
    exact ⟨by omega, hnobody, hasked, hasked ▸ hfinal.granted_of_nobody hnobody⟩

/-- Three callers share two slots that have already been passed around. The leases are returned in
another order than they were handed out. -/
theorem drained_threeCallers :
    let slots : Semaphore Nat := .idle 2 Nat.two_pos
    let u := (opened slots).after [.acquire, .tryAcquire, .acquire, .acquire, .surrender 0]
    Semaphore.ofValue (.number 2) = .ok slots ∧ u.Gives [2, 1, 3] ∧ u.active = 2 ∧ u.pending = 1 ∧
      (u.handBack [2, 1, 3]).active = 0 ∧
      (u.handBack [2, 1, 3]).granted.map Prod.fst = [0, 1, 2] := by
  intro slots u
  have accepted : Semaphore.ofValue (.number 2) = .ok slots := rfl
  have gives : u.Gives [2, 1, 3] := ⟨by decide, by decide, by decide, trivial⟩
  have hactive : u.active = 2 := by decide
  have hpending : u.pending = 1 := by decide
  have hasked : u.asked = 3 := by decide
  have hlength : [2, 1, 3].length = u.active + u.pending := by rw [hactive, hpending]; rfl
  -- as many returns as there are holders and waiters, so all is drained
  have hall := (drained accepted _ [2, 1, 3] gives).2.2.2.2 hlength
  refine ⟨accepted, gives, hactive, hpending, hall.1, ?_⟩
  rw [hall.2.2.2, hasked]
  rfl

end Usage

end BoundedJobs
