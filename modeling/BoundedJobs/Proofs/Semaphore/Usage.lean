import BoundedJobs.Semaphore.Lease
import Mathlib.Data.List.Induction
import Mathlib.Data.List.Nodup
import Mathlib.Data.List.Range

/-!
# A semaphore in use

A semaphore keeps no more than a count and a queue. What these stand for is only visible to an
observer who writes down every call of `acquire`, every grant, every lease that was taken without
waiting, and every return. `Usage` is a semaphore together with such a record, and `Usage.Balanced`
ties the two to each other:

* leases are handed out under the numbers 0, 1, 2 and so on, and the live ones are those that have
  not been returned;
* the count is the number of live leases, so it is never lowered below zero: only the return of a
  live lease lowers it;
* the calls of `acquire` are granted in their order, so those that have been granted are the first
  ones, and the queue holds the others.

Every call keeps the balance (`Balanced.perform`), however often a lease is returned. `counts_after`
reads the counts off it.
-/

namespace BoundedJobs

/-- What can be asked of a semaphore. -/
inductive Call where
  | acquire
  | tryAcquire
  | surrender (lease : Lease)
  deriving DecidableEq

/-- A semaphore with a record of its use. The calls of `acquire` are numbered in their order. -/
structure Usage where
  leases : Leases Nat
  /-- How many calls of `acquire` there have been. -/
  asked : Nat := 0
  /-- The calls of `acquire` that have been granted, each with its lease, in the order of the
  grants. -/
  granted : List (Nat × Lease) := []
  /-- The leases that were taken without waiting. -/
  taken : List Lease := []
  /-- The leases that have been returned, as often as that has happened. -/
  returned : List Lease := []

/-- A number counts slots exactly if it is a positive whole number. -/
theorem Number.positiveNat?_eq_some_iff {n : Number} {count : Nat} :
    n.positiveNat? = some count ↔ n.int? = some (count : Int) ∧ 0 < count := by
  unfold positiveNat?
  cases n.int? with
  | none => simp
  | some i =>
    by_cases hpos : 0 < i
    · simp only [if_pos hpos, Option.some.injEq]
      omega
    · simp only [if_neg hpos, reduceCtorEq, Option.some.injEq, false_iff]
      omega

namespace Semaphore

variable {α : Type} {slots : Semaphore α}

/-- **A semaphore can have any positive number of slots, and no other.** All of them are free. -/
theorem ofValue_eq_ok_iff {given : Value} :
    ofValue given = .ok slots ↔ ∃ n : Number, given = .number n ∧
      n.int? = some (slots.capacity : Int) ∧ slots = idle slots.capacity slots.positive := by
  constructor
  · intro h
    unfold ofValue at h
    split at h
    · next n =>
      split at h
      · next count hcount =>
        obtain ⟨hint, hpos⟩ := Number.positiveNat?_eq_some_iff.mp hcount
        rw [dif_pos hpos] at h
        obtain rfl := Except.ok.inj h
        exact ⟨n, rfl, hint, rfl⟩
      · exact absurd h (by simp)
    · exact absurd h (by simp)
  · rintro ⟨n, rfl, hint, hslots⟩
    have hcount := Number.positiveNat?_eq_some_iff.mpr ⟨hint, slots.positive⟩
    unfold ofValue
    simp only [hcount]
    rw [dif_pos slots.positive, ← hslots]

/-- A caller gets a slot at once when one is free and nobody waits. -/
theorem isOpen_iff : slots.isOpen = true ↔ slots.held < slots.capacity ∧ slots.waiters = [] := by
  unfold isOpen
  rw [Bool.and_eq_true, decide_eq_true_eq, List.isEmpty_iff]

theorem tryAcquire?_of_open (h : slots.isOpen = true) :
    slots.tryAcquire? = some { slots with held := slots.held + 1 } := if_pos h

theorem tryAcquire?_of_closed (h : slots.isOpen = false) : slots.tryAcquire? = none :=
  if_neg (by rw [h]; simp)

theorem giveBack_of_idle (h : slots.waiters = []) :
    slots.giveBack = ({ slots with held := slots.held - 1 }, none) := by
  unfold giveBack
  split
  · next hw => exact absurd (h.symm.trans hw) (by simp)
  · rfl

theorem giveBack_of_waiting {next : α} {others : List α} (h : slots.waiters = next :: others) :
    slots.giveBack = ({ slots with waiters := others }, some next) := by
  unfold giveBack
  rw [h]

end Semaphore

namespace Usage

variable {u : Usage} {capacity : Nat}

/-! ## Calls -/

/-- A semaphore of which nothing has been asked. -/
def opened (slots : Semaphore Nat) : Usage := { leases := { slots } }

/-- The leases that have been handed out: to calls of `acquire`, at once or when a slot was passed
on, and to calls of `tryAcquire`. -/
def handedOut (u : Usage) : List Lease := u.granted.map Prod.snd ++ u.taken

/-- The leases that have been handed out and not returned. -/
def outstanding (u : Usage) : List Lease := u.handedOut.filter (· ∉ u.returned)

/-- The calls of `acquire` that have not been granted. -/
def ungranted (u : Usage) : List Nat :=
  (List.range u.asked).filter (· ∉ u.granted.map Prod.fst)

/-- Slots currently held. -/
def active (u : Usage) : Nat := u.leases.slots.active

/-- Callers waiting for a slot. -/
def pending (u : Usage) : Nat := u.leases.slots.pending

/-- A call is made. A lease can be returned once it has been handed out, and as often as one
likes. -/
def perform (u : Usage) : Call → Usage
  | .acquire =>
    let (leases, lease?) := u.leases.acquire u.asked
    { u with
      leases
      asked := u.asked + 1
      granted := u.granted ++ (lease?.map (u.asked, ·)).toList }
  | .tryAcquire =>
    let (leases, lease?) := u.leases.tryAcquire
    { u with leases, taken := u.taken ++ lease?.toList }
  | .surrender lease =>
    if lease ∈ u.handedOut then
      let (leases, grant?) := u.leases.surrender lease
      { u with leases, granted := u.granted ++ grant?.toList, returned := u.returned ++ [lease] }
    else u

/-- Calls are made one after another. -/
def after (u : Usage) (calls : List Call) : Usage := calls.foldl perform u

@[simp] theorem after_nil (u : Usage) : u.after [] = u := rfl

theorem after_append (u : Usage) (first second : List Call) :
    u.after (first ++ second) = (u.after first).after second := List.foldl_append

theorem after_concat (u : Usage) (calls : List Call) (call : Call) :
    u.after (calls ++ [call]) = (u.after calls).perform call := after_append u calls [call]

/-- **What a call does.** A slot is granted or taken while one is free and nobody waits. The return
of a live lease frees its slot or passes it on to the first waiter; a lease that is live no more, or
has never been handed out, moves nothing. -/
inductive Performed (u : Usage) : Call → Usage → Prop
  | granted (isOpen : u.leases.slots.isOpen = true) :
      Performed u .acquire
        { u with
          leases := (u.leases.issue { u.leases.slots with held := u.leases.slots.held + 1 }).1
          asked := u.asked + 1
          granted := u.granted ++ [(u.asked, u.leases.issued)] }
  | queued (isClosed : u.leases.slots.isOpen = false) :
      Performed u .acquire
        { u with
          leases :=
            { u.leases with
              slots := { u.leases.slots with waiters := u.leases.slots.waiters ++ [u.asked] } }
          asked := u.asked + 1 }
  | taken (isOpen : u.leases.slots.isOpen = true) :
      Performed u .tryAcquire
        { u with
          leases := (u.leases.issue { u.leases.slots with held := u.leases.slots.held + 1 }).1
          taken := u.taken ++ [u.leases.issued] }
  | refused (isClosed : u.leases.slots.isOpen = false) : Performed u .tryAcquire u
  | freed {lease : Lease} (out : lease ∈ u.handedOut) (live : lease ∈ u.leases.live)
      (waiters : u.leases.slots.waiters = []) :
      Performed u (.surrender lease)
        { u with
          leases :=
            { u.leases with
              slots := { u.leases.slots with held := u.leases.slots.held - 1 }
              live := u.leases.live.erase lease }
          returned := u.returned ++ [lease] }
  | passedOn {lease : Lease} {next : Nat} {others : List Nat} (out : lease ∈ u.handedOut)
      (live : lease ∈ u.leases.live) (waiters : u.leases.slots.waiters = next :: others) :
      Performed u (.surrender lease)
        { u with
          leases :=
            { slots := { u.leases.slots with waiters := others }
              issued := u.leases.issued + 1
              live := u.leases.live.erase lease ++ [u.leases.issued] }
          granted := u.granted ++ [(next, u.leases.issued)]
          returned := u.returned ++ [lease] }
  | repeated {lease : Lease} (out : lease ∈ u.handedOut) (gone : lease ∉ u.leases.live) :
      Performed u (.surrender lease) { u with returned := u.returned ++ [lease] }
  | unknown {lease : Lease} (out : lease ∉ u.handedOut) : Performed u (.surrender lease) u

theorem performed (u : Usage) (call : Call) : Performed u call (u.perform call) := by
  -- one case for every way through the code: open or closed, live or not, waiters or none
  cases call with
  | acquire =>
    unfold perform Leases.acquire Semaphore.acquire
    cases isOpen : u.leases.slots.isOpen with
    | true =>
      rw [Semaphore.tryAcquire?_of_open isOpen]
      exact .granted isOpen
    | false =>
      rw [Semaphore.tryAcquire?_of_closed isOpen]
      simp only [Option.map_none, Option.toList_none, List.append_nil]
      exact .queued isOpen
  | tryAcquire =>
    unfold perform Leases.tryAcquire
    cases isOpen : u.leases.slots.isOpen with
    | true =>
      rw [Semaphore.tryAcquire?_of_open isOpen]
      exact .taken isOpen
    | false =>
      rw [Semaphore.tryAcquire?_of_closed isOpen]
      simp only [Option.toList_none, List.append_nil]
      exact .refused isOpen
  | surrender lease =>
    unfold perform
    simp only
    by_cases out : lease ∈ u.handedOut
    · rw [if_pos out]
      unfold Leases.surrender
      by_cases live : lease ∈ u.leases.live
      · rw [if_pos live]
        cases waiters : u.leases.slots.waiters with
        | nil =>
          rw [Semaphore.giveBack_of_idle waiters]
          simp only [Option.toList_none, List.append_nil]
          exact .freed out live waiters
        | cons next others =>
          rw [Semaphore.giveBack_of_waiting waiters]
          exact .passedOn out live waiters
      · rw [if_neg live]
        simp only [Option.toList_none, List.append_nil]
        exact .repeated out live
    · rw [if_neg out]
      exact .unknown out

/-! ## The balance -/

/-- What the count and the queue of a semaphore stand for. -/
structure Balanced (capacity : Nat) (u : Usage) : Prop where
  /-- Leases are numbered in the order in which they are handed out. -/
  handedOut : u.handedOut.Perm (List.range u.leases.issued)
  returned : ∀ lease ∈ u.returned, lease < u.leases.issued
  /-- The live leases are those that have not been returned. -/
  live : u.leases.live = (List.range u.leases.issued).filter (· ∉ u.returned)
  held : u.leases.slots.held = u.leases.live.length
  granted_le : u.granted.length ≤ u.asked
  /-- The calls that have been granted are the first ones, in their order. -/
  granted : u.granted.map Prod.fst = List.range u.granted.length
  /-- All others wait, in their order. -/
  waiters : u.leases.slots.waiters
    = List.range' u.granted.length (u.asked - u.granted.length)
  held_le : u.leases.slots.held ≤ capacity
  /-- Nobody waits while a slot is free. -/
  busy : u.leases.slots.waiters ≠ [] → u.leases.slots.held = capacity
  capacity_eq : u.leases.slots.capacity = capacity

theorem Balanced.opened (slots : Semaphore Nat) (held : slots.held = 0)
    (waiters : slots.waiters = []) : Balanced slots.capacity (Usage.opened slots) where
  handedOut := List.Perm.refl _
  returned := fun lease h => absurd h List.not_mem_nil
  live := rfl
  held := held
  granted_le := Nat.le_refl 0
  granted := rfl
  waiters := waiters
  held_le := by
    change slots.held ≤ slots.capacity
    omega
  busy := fun h => absurd waiters h
  capacity_eq := rfl

/-- A lease that has just been handed out is live. -/
theorem filter_range_succ {issued : Nat} {returned : List Lease}
    (h : ∀ lease ∈ returned, lease < issued) :
    (List.range (issued + 1)).filter (· ∉ returned)
      = (List.range issued).filter (· ∉ returned) ++ [issued] := by
  have hnew : [issued].filter (· ∉ returned) = [issued] :=
    List.filter_cons_of_pos (decide_eq_true fun hmem => Nat.lt_irrefl _ (h issued hmem))
  rw [List.range_succ, List.filter_append, hnew]

/-- A lease that is returned is live no more, and a second return changes nothing. -/
theorem filter_range_returned (issued : Nat) (returned : List Lease) (lease : Lease) :
    (List.range issued).filter (· ∉ returned ++ [lease])
      = ((List.range issued).filter (· ∉ returned)).erase lease := by
  rw [(List.nodup_range.filter _).erase_eq_filter, List.filter_filter]
  refine List.filter_congr fun other _ => ?_
  by_cases h : other = lease <;> simp [h]

/-- A free slot is taken: a lease is handed out for it. -/
theorem Balanced.take (h : Balanced capacity u) {v : Usage}
    (isOpen : u.leases.slots.isOpen = true)
    (leases : v.leases
      = (u.leases.issue { u.leases.slots with held := u.leases.slots.held + 1 }).1)
    (handedOut : v.handedOut.Perm (u.handedOut ++ [u.leases.issued]))
    (returned : v.returned = u.returned) (granted_le : v.granted.length ≤ v.asked)
    (granted : v.granted.map Prod.fst = List.range v.granted.length)
    (all : v.asked - v.granted.length = 0) : Balanced capacity v where
  handedOut := by
    rw [leases]
    change v.handedOut.Perm (List.range (u.leases.issued + 1))
    rw [List.range_succ]
    exact handedOut.trans (h.handedOut.append_right _)
  returned := by
    intro lease hmem
    rw [leases]
    exact Nat.lt_succ_of_lt (h.returned lease (returned ▸ hmem))
  live := by
    rw [leases, returned]
    change u.leases.live ++ [u.leases.issued] = (List.range (u.leases.issued + 1)).filter _
    rw [filter_range_succ h.returned, h.live]
  held := by
    rw [leases]
    change u.leases.slots.held + 1 = (u.leases.live ++ [u.leases.issued]).length
    rw [List.length_append, h.held]
    rfl
  granted_le := granted_le
  granted := granted
  waiters := by
    -- an open semaphore has no waiters, and nobody is ungranted
    rw [leases, all]
    change u.leases.slots.waiters = []
    exact (Semaphore.isOpen_iff.mp isOpen).2
  held_le := by
    rw [leases]
    change u.leases.slots.held + 1 ≤ capacity
    rw [← h.capacity_eq]
    exact (Semaphore.isOpen_iff.mp isOpen).1
  busy := by
    rw [leases]
    exact fun hne => absurd (Semaphore.isOpen_iff.mp isOpen).2 hne
  capacity_eq := by
    rw [leases]
    exact h.capacity_eq

/-- While nobody waits, all calls have been granted. -/
theorem Balanced.length_granted (h : Balanced capacity u)
    (isOpen : u.leases.slots.isOpen = true) : u.granted.length = u.asked := by
  have hlength := congrArg List.length h.waiters
  rw [(Semaphore.isOpen_iff.mp isOpen).2, List.length_range', List.length_nil] at hlength
  have := h.granted_le
  omega

/-- A caller that gets no slot at once is the last of those that wait, and all slots are held. -/
theorem Balanced.wait (h : Balanced capacity u) (isClosed : u.leases.slots.isOpen = false) :
    Balanced capacity
      { u with
        leases :=
          { u.leases with
            slots :=
              { u.leases.slots with waiters := u.leases.slots.waiters ++ [u.asked] } }
        asked := u.asked + 1 } where
  handedOut := h.handedOut
  returned := h.returned
  live := h.live
  held := h.held
  granted_le := Nat.le_succ_of_le h.granted_le
  granted := h.granted
  waiters := by
    have hle := h.granted_le
    change u.leases.slots.waiters ++ [u.asked] = _
    -- the waiters are the calls that have not been granted, and this call is one more
    rw [h.waiters,
      show u.asked + 1 - u.granted.length = (u.asked - u.granted.length) + 1 by omega,
      List.range'_1_concat, Nat.add_sub_cancel' hle]
  held_le := h.held_le
  busy := by
    intro _
    change u.leases.slots.held = capacity
    by_cases hw : u.leases.slots.waiters = []
    · -- nobody waited, so the semaphore was closed because no slot was free
      have hfull : ¬ u.leases.slots.held < u.leases.slots.capacity := by
        intro hlt
        rw [Semaphore.isOpen_iff.mpr ⟨hlt, hw⟩] at isClosed
        exact Bool.noConfusion isClosed
      have hle := h.held_le
      have hcapacity := h.capacity_eq
      omega
    · exact h.busy hw
  capacity_eq := h.capacity_eq

/-- The return of a live lease makes its slot free when nobody waits. -/
theorem Balanced.free (h : Balanced capacity u) {lease : Lease} (mem : lease ∈ u.leases.live)
    (waiters : u.leases.slots.waiters = []) :
    Balanced capacity
      { u with
        leases :=
          { u.leases with
            slots := { u.leases.slots with held := u.leases.slots.held - 1 }
            live := u.leases.live.erase lease }
        returned := u.returned ++ [lease] } where
  handedOut := h.handedOut
  returned := by
    intro other hmem
    rcases List.mem_append.mp hmem with hold | hnew
    · exact h.returned other hold
    · rw [List.mem_singleton.mp hnew]
      -- a live lease is one of those that were issued
      rw [h.live] at mem
      exact List.mem_range.mp (List.mem_filter.mp mem).1
  live := by
    change u.leases.live.erase lease = (List.range u.leases.issued).filter _
    rw [filter_range_returned, h.live]
  held := by
    change u.leases.slots.held - 1 = (u.leases.live.erase lease).length
    rw [List.length_erase_of_mem mem, h.held]
  granted_le := h.granted_le
  granted := h.granted
  waiters := h.waiters
  held_le := by
    have := h.held_le
    change u.leases.slots.held - 1 ≤ capacity
    omega
  busy := fun hne => absurd waiters hne
  capacity_eq := h.capacity_eq

/-- The return of a live lease passes its slot to the first caller that waits, who gets a lease of
its own. -/
theorem Balanced.passOn (h : Balanced capacity u) {lease next : Lease} {others : List Nat}
    (mem : lease ∈ u.leases.live) (waiters : u.leases.slots.waiters = next :: others) :
    Balanced capacity
      { u with
        leases :=
          { slots := { u.leases.slots with waiters := others }
            issued := u.leases.issued + 1
            live := u.leases.live.erase lease ++ [u.leases.issued] }
        granted := u.granted ++ [(next, u.leases.issued)]
        returned := u.returned ++ [lease] } := by
  have hlt : lease < u.leases.issued := by
    rw [h.live] at mem
    exact List.mem_range.mp (List.mem_filter.mp mem).1
  have hreturned : ∀ other ∈ u.returned ++ [lease], other < u.leases.issued := by
    intro other hmem
    rcases List.mem_append.mp hmem with hold | hnew
    · exact h.returned other hold
    · rw [List.mem_singleton.mp hnew]
      exact hlt
  -- the first that waits is the first call that has not been granted
  have hle := h.granted_le
  have hwaiters := h.waiters
  rw [waiters] at hwaiters
  have hpos : u.granted.length < u.asked := by
    have hlength := congrArg List.length hwaiters
    rw [List.length_cons, List.length_range'] at hlength
    omega
  rw [show u.asked - u.granted.length = (u.asked - (u.granted.length + 1)) + 1 by omega,
    List.range'_succ] at hwaiters
  obtain ⟨hnext, hothers⟩ := List.cons.inj hwaiters
  have hlength : (u.granted ++ [(next, u.leases.issued)]).length = u.granted.length + 1 :=
    List.length_append
  -- the fields in their order: a new lease for the caller, and one live lease in place of the other
  refine ⟨?_, ?_, ?_, ?_, ?_, ?_, ?_, h.held_le, ?_, h.capacity_eq⟩
  · change ((u.granted ++ [(next, u.leases.issued)]).map Prod.snd ++ u.taken).Perm
      (List.range (u.leases.issued + 1))
    rw [List.map_append, List.append_assoc, List.range_succ]
    refine (List.perm_append_comm.append_left _).trans ?_
    rw [← List.append_assoc]
    exact h.handedOut.append_right _
  · exact fun other hmem => Nat.lt_succ_of_lt (hreturned other hmem)
  · change u.leases.live.erase lease ++ [u.leases.issued]
      = (List.range (u.leases.issued + 1)).filter _
    rw [filter_range_succ hreturned, filter_range_returned, h.live]
  · -- one lease is live no more, and another one is
    have hcount := List.length_pos_of_mem mem
    change u.leases.slots.held = (u.leases.live.erase lease ++ [u.leases.issued]).length
    rw [List.length_append, List.length_erase_of_mem mem, h.held, List.length_singleton]
    omega
  · change (u.granted ++ [(next, u.leases.issued)]).length ≤ u.asked
    rw [hlength]
    exact hpos
  · change (u.granted ++ [(next, u.leases.issued)]).map Prod.fst = List.range _
    rw [hlength, List.map_append, h.granted, hnext, List.range_succ]
    rfl
  · change others = List.range' _ (u.asked - _)
    rw [hlength]
    exact hothers
  · intro _
    exact h.busy (by rw [waiters]; simp)

/-- A lease that has been returned before changes nothing but the record. -/
theorem Balanced.repeated (h : Balanced capacity u) {lease : Lease} (out : lease ∈ u.handedOut)
    (gone : lease ∉ u.leases.live) :
    Balanced capacity { u with returned := u.returned ++ [lease] } where
  handedOut := h.handedOut
  returned := by
    intro other hmem
    rcases List.mem_append.mp hmem with hold | hnew
    · exact h.returned other hold
    · rw [List.mem_singleton.mp hnew]
      exact List.mem_range.mp (h.handedOut.mem_iff.mp out)
  live := by
    change u.leases.live = (List.range u.leases.issued).filter _
    -- what is live has not been returned, so one more return takes nothing from it
    rw [filter_range_returned, ← h.live, List.erase_of_not_mem gone]
  held := h.held
  granted_le := h.granted_le
  granted := h.granted
  waiters := h.waiters
  held_le := h.held_le
  busy := h.busy
  capacity_eq := h.capacity_eq

/-- **Every call keeps the balance.** -/
theorem Balanced.perform (h : Balanced capacity u) (call : Call) :
    Balanced capacity (u.perform call) := by
  -- every way through the code has a lemma of its own above
  have hperformed := u.performed call
  generalize u.perform call = v at hperformed
  cases hperformed with
  | granted isOpen =>
    -- an open semaphore has granted every call so far
    have hgranted := h.length_granted isOpen
    have hlength : (u.granted ++ [(u.asked, u.leases.issued)]).length = u.asked + 1 := by
      rw [List.length_append, hgranted]
      rfl
    refine h.take isOpen rfl ?_ rfl hlength.le ?_ ?_
    · -- the new lease stands behind the leases of the calls granted before
      change ((u.granted ++ [(u.asked, u.leases.issued)]).map Prod.snd ++ u.taken).Perm _
      rw [List.map_append, List.append_assoc]
      exact (List.perm_append_comm.append_left _).trans (.of_eq (List.append_assoc _ _ _).symm)
    · change (u.granted ++ [(u.asked, u.leases.issued)]).map Prod.fst = _
      rw [hlength, List.map_append, h.granted, hgranted]
      exact List.range_succ.symm
    · change u.asked + 1 - (u.granted ++ [(u.asked, u.leases.issued)]).length = 0
      rw [hlength]
      exact Nat.sub_self _
  | queued isClosed => exact h.wait isClosed
  | taken isOpen =>
    have hgranted := h.length_granted isOpen
    refine h.take isOpen rfl ?_ rfl h.granted_le h.granted (by simp only; omega)
    change (u.granted.map Prod.snd ++ (u.taken ++ [u.leases.issued])).Perm _
    rw [← List.append_assoc]
    exact List.Perm.refl _
  | refused => exact h
  | freed _ live waiters => exact h.free live waiters
  | passedOn _ live waiters => exact h.passOn live waiters
  | repeated out gone => exact h.repeated out gone
  | unknown => exact h

theorem balanced_after {given : Value} {slots : Semaphore Nat}
    (accepted : Semaphore.ofValue given = .ok slots) (calls : List Call) :
    Balanced slots.capacity ((opened slots).after calls) := by
  obtain ⟨-, -, -, hidle⟩ := Semaphore.ofValue_eq_ok_iff.mp accepted
  induction calls using List.reverseRecOn with
  | nil => exact Balanced.opened slots (by rw [hidle]; rfl) (by rw [hidle]; rfl)
  | append_singleton calls call ih =>
    rw [after_concat]
    exact ih.perform call

/-! ## The counts -/

theorem Balanced.active_eq (h : Balanced capacity u) : u.active = u.outstanding.length := by
  have hperm : u.outstanding.Perm u.leases.live := by
    rw [h.live]
    exact h.handedOut.filter _
  exact h.held.trans hperm.length_eq.symm

/-- Those that have not been granted are the waiters. -/
theorem Balanced.ungranted_eq (h : Balanced capacity u) :
    u.ungranted = u.leases.slots.waiters := by
  -- grants come in the order of the calls, so those that wait are the last ones
  have hsplit : List.range u.asked
      = List.range u.granted.length
        ++ List.range' u.granted.length (u.asked - u.granted.length) := by
    have happend : List.range' 0 u.granted.length
        ++ List.range' (0 + u.granted.length) (u.asked - u.granted.length)
        = List.range' 0 (u.granted.length + (u.asked - u.granted.length)) := List.range'_append_1
    rw [Nat.zero_add, Nat.add_sub_cancel' h.granted_le] at happend
    rw [List.range_eq_range', List.range_eq_range', happend]
  have hfront : (List.range u.granted.length).filter (· ∉ List.range u.granted.length) = [] := by
    rw [List.filter_eq_nil_iff]
    intro i hi
    simpa using hi
  have hback : (List.range' u.granted.length (u.asked - u.granted.length)).filter
      (· ∉ List.range u.granted.length)
      = List.range' u.granted.length (u.asked - u.granted.length) := by
    rw [List.filter_eq_self]
    intro i hi
    simpa using (List.mem_range'_1.mp hi).1
  unfold ungranted
  rw [h.granted, hsplit, List.filter_append, h.waiters, hfront, hback, List.nil_append]

theorem Balanced.pending_eq (h : Balanced capacity u) : u.pending = u.ungranted.length := by
  rw [h.ungranted_eq]
  rfl

/-- **The counts of a semaphore are right at every moment.** It has a positive number of slots, and
whatever has been asked of it, with every lease returned as often as one likes: no more slots are
held than there are; the held ones are those of the leases that have been handed out and not
returned, which are all different; those who wait are the calls of `acquire` that have not been
granted; no call is granted twice; and nobody waits while a slot is free. -/
theorem counts_after {given : Value} {slots : Semaphore Nat}
    (accepted : Semaphore.ofValue given = .ok slots) (calls : List Call) :
    let u := (opened slots).after calls
    (∃ n : Number, given = .number n ∧ n.int? = some (slots.capacity : Int)) ∧
      u.active ≤ slots.capacity ∧
      u.active = u.outstanding.length ∧ u.handedOut.Nodup ∧
      u.pending = u.ungranted.length ∧
      (u.granted.map Prod.fst).Nodup ∧
      (0 < u.pending → u.active = slots.capacity) := by
  intro u
  -- everything is read off the invariant
  have h : Balanced slots.capacity u := balanced_after accepted calls
  obtain ⟨n, hgiven, hint, -⟩ := Semaphore.ofValue_eq_ok_iff.mp accepted
  refine ⟨⟨n, hgiven, hint⟩, h.held_le, h.active_eq, ?_, h.pending_eq, ?_, ?_⟩
  · exact h.handedOut.nodup_iff.mpr List.nodup_range
  · rw [h.granted]
    exact List.nodup_range
  · exact fun hpos => h.busy (List.ne_nil_of_length_pos hpos)

/-- Two callers share one slot. The first returns its lease twice, and only the first return passes
the slot on. -/
theorem counts_after_returnedTwice :
    let slots : Semaphore Nat := .idle 1 Nat.one_pos
    let u := (opened slots).after [.acquire, .acquire, .surrender 0, .surrender 0]
    Semaphore.ofValue (.number 1) = .ok slots ∧ u.outstanding = [1] ∧ u.ungranted = [] ∧
      u.active = 1 ∧ u.pending = 0 := by
  have accepted : Semaphore.ofValue (.number 1) = .ok (.idle 1 Nat.one_pos : Semaphore Nat) := rfl
  obtain ⟨-, -, active, -, pending, -⟩ :=
    counts_after accepted [.acquire, .acquire, .surrender 0, .surrender 0]
  exact ⟨accepted, rfl, rfl, active, pending⟩

end Usage

end BoundedJobs
