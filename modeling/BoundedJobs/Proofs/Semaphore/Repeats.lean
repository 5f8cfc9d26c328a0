import BoundedJobs.Proofs.Semaphore.Usage

/-!
# Repeated returns

A lease that has been returned may be returned again, at any time and as often as one likes. Nobody
can tell: without these calls, every other call is answered as it is with them. The slot of the
lease may have passed through several hands by then, so two runs are compared call by call. They
agree in everything except for how often leases stand in the record of returns.

* `Usage.Answer`, `Usage.answer` — what is seen of a call: whom it serves, the lease that it takes,
  and the counts after it;
* `Usage.transcript` — the calls with their answers, and which of them are repeated returns;
* `Usage.withoutRepeats` — the calls that are left when these are dropped;
* `Usage.Agrees` — the relation between the two runs. `Agrees.perform` says that it is kept by a
  call that both make, and `Balanced.agrees_of_repeat` by a repeated return that only one makes;
* `Usage.transcript_withoutRepeats` — the two transcripts.
-/

namespace BoundedJobs

namespace Usage

variable {u v w : Usage} {capacity : Nat} {lease : Lease} {call : Call}

/-! ## What is seen of a call -/

/-- What is seen of a call. -/
structure Answer where
  /-- The calls of `acquire` that it grants, each with its lease. -/
  granted : List (Nat × Lease)
  /-- The lease that it takes without waiting. -/
  taken : List Lease
  active : Nat
  pending : Nat
  deriving DecidableEq

def answer (u : Usage) (call : Call) : Answer where
  granted := (u.perform call).granted.drop u.granted.length
  taken := (u.perform call).taken.drop u.taken.length
  active := (u.perform call).active
  pending := (u.perform call).pending

/-- Whether a call returns a lease that has been returned before. -/
def repeats (u : Usage) : Call → Bool
  | .surrender lease => lease ∈ u.returned
  | _ => false

/-- A call with what is seen of it. -/
structure Entry where
  call : Call
  isRepeat : Bool
  answer : Answer
  deriving DecidableEq

/-- The entry of a call that is made next. -/
def entry (u : Usage) (call : Call) : Entry := ⟨call, u.repeats call, u.answer call⟩

/-- Calls that are made one after another, each with what is seen of it. -/
def transcript (u : Usage) : List Call → List Entry
  | [] => []
  | call :: calls => u.entry call :: (u.perform call).transcript calls

/-- The calls that are no repeated returns. -/
def withoutRepeats (u : Usage) (calls : List Call) : List Call :=
  ((u.transcript calls).filter (!·.isRepeat)).map Entry.call

theorem withoutRepeats_of_repeat (h : u.repeats call = true) (calls : List Call) :
    u.withoutRepeats (call :: calls) = (u.perform call).withoutRepeats calls := by
  unfold withoutRepeats
  rw [transcript, List.filter_cons_of_neg]
  change ¬ (!u.repeats call) = true
  rw [h]
  exact Bool.false_ne_true

theorem withoutRepeats_of_new (h : u.repeats call = false) (calls : List Call) :
    u.withoutRepeats (call :: calls) = call :: (u.perform call).withoutRepeats calls := by
  unfold withoutRepeats
  rw [transcript, List.filter_cons_of_pos, List.map_cons]
  · rfl
  · change (!u.repeats call) = true
    rw [h]
    rfl

/-! ## Two runs -/

/-- **Two usages of a semaphore that nobody can tell apart**: the same leases have been returned,
but not as often. -/
structure Agrees (u v : Usage) : Prop where
  leases : v.leases = u.leases
  asked : v.asked = u.asked
  granted : v.granted = u.granted
  taken : v.taken = u.taken
  returned : ∀ lease, lease ∈ v.returned ↔ lease ∈ u.returned

theorem Agrees.refl (u : Usage) : u.Agrees u := ⟨rfl, rfl, rfl, rfl, fun _ => Iff.rfl⟩

theorem Agrees.trans (h : u.Agrees v) (h' : v.Agrees w) : u.Agrees w where
  leases := h'.leases.trans h.leases
  asked := h'.asked.trans h.asked
  granted := h'.granted.trans h.granted
  taken := h'.taken.trans h.taken
  returned lease := (h'.returned lease).trans (h.returned lease)

theorem Agrees.symm (h : u.Agrees v) : v.Agrees u where
  leases := h.leases.symm
  asked := h.asked.symm
  granted := h.granted.symm
  taken := h.taken.symm
  returned lease := (h.returned lease).symm

/-- A call that both make. -/
theorem Agrees.perform (h : u.Agrees v) (call : Call) :
    (u.perform call).Agrees (v.perform call) := by
  obtain ⟨leases, asked, granted, taken, returned⟩ := u
  obtain ⟨leases', asked', granted', taken', returned'⟩ := v
  obtain ⟨rfl, rfl, rfl, rfl, hreturned⟩ := h
  cases call with
  | acquire | tryAcquire => exact ⟨rfl, rfl, rfl, rfl, hreturned⟩
  | surrender lease =>
    unfold Usage.perform
    -- the leases that have been handed out do not depend on the returns
    change Agrees (if lease ∈ granted'.map Prod.snd ++ taken' then _ else _)
      (if lease ∈ granted'.map Prod.snd ++ taken' then _ else _)
    split
    · refine ⟨rfl, rfl, rfl, rfl, fun other => ?_⟩
      change other ∈ returned' ++ [lease] ↔ other ∈ returned ++ [lease]
      rw [List.mem_append, List.mem_append, hreturned other]
    · exact ⟨rfl, rfl, rfl, rfl, hreturned⟩

theorem Agrees.repeats_eq (h : u.Agrees v) (call : Call) : v.repeats call = u.repeats call := by
  cases call with
  | acquire | tryAcquire => rfl
  | surrender lease => exact decide_eq_decide.mpr (h.returned lease)

theorem Agrees.entry_eq (h : u.Agrees v) (call : Call) : v.entry call = u.entry call := by
  have hnext := h.perform call
  unfold entry answer active pending
  rw [h.repeats_eq, hnext.granted, hnext.taken, hnext.leases, h.granted, h.taken]

/-- **A repeated return moves nothing**, wherever the slot of the lease has gone. -/
theorem Balanced.agrees_of_repeat (h : Balanced capacity u) (repeated : u.repeats call = true) :
    u.Agrees (u.perform call) := by
  cases call with
  | acquire | tryAcquire => cases repeated
  | surrender lease =>
    have hmem : lease ∈ u.returned := of_decide_eq_true repeated
    -- a lease that was returned is not live, even if its slot is held by another
    have hover : lease ∉ u.leases.live := by
      rw [h.live]
      intro hlive
      exact of_decide_eq_true (List.mem_filter.mp hlive).2 hmem
    have hperformed := u.performed (.surrender lease)
    generalize u.perform (.surrender lease) = v at hperformed
    cases hperformed with
    | freed _ live | passedOn _ live => exact absurd live hover
    | repeated =>
      refine ⟨rfl, rfl, rfl, rfl, fun other => ?_⟩
      change other ∈ u.returned ++ [lease] ↔ _
      rw [List.mem_append, List.mem_singleton]
      exact ⟨fun hor => hor.elim id fun heq => heq ▸ hmem, .inl⟩
    | unknown => exact .refl u

theorem Agrees.outstanding_eq (h : u.Agrees v) : v.outstanding = u.outstanding := by
  unfold outstanding handedOut
  rw [h.granted, h.taken]
  exact List.filter_congr fun lease _ => decide_eq_decide.mpr (not_congr (h.returned lease))

/-- **The two runs.** By induction on the calls, one run making all of them and the other the ones
that are no repeated returns. -/
theorem Balanced.agrees_withoutRepeats (h : Balanced capacity u) (agrees : u.Agrees v)
    (calls : List Call) :
    v.transcript (u.withoutRepeats calls) = (u.transcript calls).filter (!·.isRepeat) ∧
      (u.after calls).Agrees (v.after (u.withoutRepeats calls)) := by
  induction calls generalizing u v with
  | nil => exact ⟨rfl, agrees⟩
  | cons call calls ih =>
    cases hrepeats : u.repeats call with
    -- the call is made in one run only and leaves it as it was
    | true =>
      rw [withoutRepeats_of_repeat hrepeats, transcript, List.filter_cons_of_neg]
      · exact ih (h.perform call) ((h.agrees_of_repeat hrepeats).symm.trans agrees)
      · change ¬ (!u.repeats call) = true
        rw [hrepeats]
        exact Bool.false_ne_true
    | false =>
      obtain ⟨htranscript, hafter⟩ := ih (h.perform call) (agrees.perform call)
      rw [withoutRepeats_of_new hrepeats, transcript, transcript, List.filter_cons_of_pos,
        htranscript, agrees.entry_eq]
      · exact ⟨rfl, hafter⟩
      · change (!u.repeats call) = true
        rw [hrepeats]
        rfl

/-- **Repeated returns are invisible.** Whatever is asked of a semaphore, with every lease returned
as often as one likes: if the repeated returns are dropped, what is seen of all other calls is the
same as before, the callers that they serve, the leases that they take and the counts after them.
And whenever a lease is returned again, no slot changes hands: all leases that were outstanding are,
and the same callers wait. -/
theorem transcript_withoutRepeats {given : Value} {slots : Semaphore Nat}
    (accepted : Semaphore.ofValue given = .ok slots) (calls : List Call) :
    (opened slots).transcript ((opened slots).withoutRepeats calls)
        = ((opened slots).transcript calls).filter (!·.isRepeat) ∧
      ∀ lease ∈ ((opened slots).after calls).returned,
        let u := (opened slots).after calls
        let v := u.perform (.surrender lease)
        v.leases = u.leases ∧ v.outstanding = u.outstanding ∧ v.granted = u.granted := by
  refine ⟨((balanced_after accepted []).agrees_withoutRepeats (.refl _) calls).1, ?_⟩
  intro lease hmem
  have hagrees : Agrees _ (perform _ (.surrender lease)) :=
    (balanced_after accepted calls).agrees_of_repeat (decide_eq_true hmem)
  exact ⟨hagrees.leases, hagrees.outstanding_eq, hagrees.granted⟩

/-- The only slot passes through two hands while its first lease is returned three times. One more
return of it leaves the slot with the last that has taken it. -/
theorem transcript_withoutRepeats_passedOn :
    let slots : Semaphore Nat := .idle 1 Nat.one_pos
    let calls : List Call :=
      [.acquire, .acquire, .surrender 0, .surrender 0, .tryAcquire, .surrender 1, .surrender 0,
        .tryAcquire]
    let u := (opened slots).after calls
    Semaphore.ofValue (.number 1) = .ok slots ∧
      (opened slots).withoutRepeats calls
        = [.acquire, .acquire, .surrender 0, .tryAcquire, .surrender 1, .tryAcquire] ∧
      (opened slots).transcript
          [.acquire, .acquire, .surrender 0, .tryAcquire, .surrender 1, .tryAcquire]
        = ((opened slots).transcript calls).filter (!·.isRepeat) ∧
      0 ∈ u.returned ∧ (u.perform (.surrender 0)).outstanding = [2] := by
  intro slots calls u
  have accepted : Semaphore.ofValue (.number 1) = .ok slots := rfl
  obtain ⟨htranscript, hrepeat⟩ := transcript_withoutRepeats accepted calls
  have hcalls : (opened slots).withoutRepeats calls
      = [.acquire, .acquire, .surrender 0, .tryAcquire, .surrender 1, .tryAcquire] := by decide
  have hreturned : 0 ∈ u.returned := by decide
  have houtstanding : u.outstanding = [2] := by decide
  rw [hcalls] at htranscript
  -- the slot is with the third in line, whatever the first does with its lease
  exact ⟨accepted, hcalls, htranscript, hreturned, (hrepeat 0 hreturned).2.1.trans houtstanding⟩

end Usage

end BoundedJobs
