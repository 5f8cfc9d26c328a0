import BoundedJobs.Value.Text

/-!
# Counting semaphores

A semaphore has a fixed number of slots. Who asks while a slot is free and nobody waits gets it at
once; everybody else waits in a queue. A slot that is given back passes straight on to the first
waiter, so the number of held slots falls only when nobody waits.

* `Semaphore.acquire` — ask for a slot, and wait if need be;
* `Semaphore.tryAcquire?` — take a slot without waiting, never past a waiter;
* `Semaphore.giveBack` — give one held slot back;
* `Semaphore.ofValue` — a semaphore whose number of slots is given from outside.
-/

namespace BoundedJobs

/-- Slots of a fixed number, with the queue of those who wait for one. -/
structure Semaphore (α : Type) where
  capacity : Nat
  positive : 0 < capacity
  held : Nat := 0
  waiters : List α := []

namespace Semaphore

variable {α : Type}

/-- A semaphore with all its slots free. -/
def idle (capacity : Nat) (positive : 0 < capacity) : Semaphore α := { capacity, positive }

/-- Slots currently held. -/
def active (s : Semaphore α) : Nat := s.held

/-- Callers waiting for a slot. -/
def pending (s : Semaphore α) : Nat := s.waiters.length

/-- Whether a caller would get a slot at once. -/
def isOpen (s : Semaphore α) : Bool := s.held < s.capacity && s.waiters.isEmpty

/-- Take a slot without waiting. -/
def tryAcquire? (s : Semaphore α) : Option (Semaphore α) :=
  if s.isOpen then some { s with held := s.held + 1 } else none

/-- Ask for a slot: the caller gets one at once, or waits behind all others. The second component
says whether it got one. -/
def acquire (s : Semaphore α) (caller : α) : Semaphore α × Bool :=
  match s.tryAcquire? with
  | some taken => (taken, true)
  | none => ({ s with waiters := s.waiters ++ [caller] }, false)

/-- Give one held slot back: it passes to the first waiter, or becomes free. -/
def giveBack (s : Semaphore α) : Semaphore α × Option α :=
  match s.waiters with
  | next :: others => ({ s with waiters := others }, some next)
  | [] => ({ s with held := s.held - 1 }, none)

/-- The refusal of a number of slots. -/
def unusable (capacity : Value) : Fault :=
  match capacity.spelled with
  | .ok text =>
    { kind := .config, message := "Semaphore capacity must be a positive integer, got " ++ text }
  | .error fault => fault

/-- A semaphore with all its slots free, whose number must be a positive whole number. -/
def ofValue (capacity : Value) : Except Fault (Semaphore α) :=
  match capacity with
  | .number n =>
    match n.positiveNat? with
    | some slots =>
      if positive : 0 < slots then .ok (idle slots positive) else .error (unusable capacity)
    | none => .error (unusable capacity)
  | _ => .error (unusable capacity)

end Semaphore

end BoundedJobs
