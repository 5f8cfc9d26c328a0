import BoundedJobs.Semaphore.Basic

/-!
# Leases

Whoever gets a slot of a semaphore gets a lease for it, numbered in the order in which leases are
handed out. Returning a lease gives its slot back, once: a lease that has been returned before
changes nothing, even when its slot has meanwhile passed on to somebody else.

* `Leases.acquire`, `Leases.tryAcquire` — ask for a slot;
* `Leases.surrender` — return a lease; when somebody waits, that caller gets a lease of its own.
-/

namespace BoundedJobs

/-- The number of a lease. -/
abbrev Lease := Nat

/-- A semaphore together with the leases that were handed out and not yet returned. -/
structure Leases (α : Type) where
  slots : Semaphore α
  issued : Nat := 0
  live : List Lease := []

namespace Leases

variable {α : Type}

/-- The state in which one more lease has been handed out, and that lease. -/
def issue (s : Leases α) (slots : Semaphore α) : Leases α × Lease :=
  ({ slots, issued := s.issued + 1, live := s.live ++ [s.issued] }, s.issued)

/-- Take a slot without waiting. -/
def tryAcquire (s : Leases α) : Leases α × Option Lease :=
  match s.slots.tryAcquire? with
  | some slots => let (next, lease) := s.issue slots; (next, some lease)
  | none => (s, none)

/-- Ask for a slot; without a lease the caller waits. -/
def acquire (s : Leases α) (caller : α) : Leases α × Option Lease :=
  match s.slots.acquire caller with
  | (slots, true) => let (next, lease) := s.issue slots; (next, some lease)
  | (slots, false) => ({ s with slots }, none)

/-- Return a lease. A lease that is not live changes nothing; otherwise its slot passes to the first
waiter, who gets a lease of its own, or becomes free. -/
def surrender (s : Leases α) (lease : Lease) : Leases α × Option (α × Lease) :=
  if lease ∈ s.live then
    let rest := { s with live := s.live.erase lease }
    match s.slots.giveBack with
    | (slots, some caller) => let (next, fresh) := rest.issue slots; (next, some (caller, fresh))
    | (slots, none) => ({ rest with slots }, none)
  else (s, none)

end Leases

end BoundedJobs
