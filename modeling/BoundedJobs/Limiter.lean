import BoundedJobs.Capacity.Detection
import BoundedJobs.Semaphore.Basic

/-!
# Limiters

A limiter is a semaphore that all runs of a process share, together with where its number of slots
comes from.

* `Limiter.ofCapacity` — a limiter for a cap, which must be a positive whole number;
* `Limiter.create` — a limiter for an explicit cap, or else for the one that is detected. Its size
  is logged.
-/

namespace BoundedJobs

/-- Slots that all runs share, and where their number comes from. -/
structure Limiter (α : Type) where
  slots : Semaphore α
  source : Capacity.Source

namespace Limiter

variable {α : Type}

/-- A limiter for a cap given from outside. -/
def ofValue (maxParallel : Value) (source : Capacity.Source) : Except Fault (Limiter α) :=
  return { slots := ← Semaphore.ofValue maxParallel, source }

/-- A limiter for a detected cap. -/
def ofCapacity (capacity : Capacity) : Except Fault (Limiter α) :=
  ofValue capacity.maxParallel capacity.source

/-- The number of slots. -/
def capacity (l : Limiter α) : Number := Number.ofNat l.slots.capacity

/-- The line about a new limiter. -/
def sizeLine (s : Surroundings) (l : Limiter α) : Except Fault (Option String) :=
  Log.line? s.clock s.level .info ("Max parallel jobs = " ++ l.capacity.text)
    (.object [("source", .text l.source.name)])

/-- The limiter that some work has come to, with the line about it. -/
def announced (s : Surroundings) (before : List String) (probeCalls : Nat)
    (limiter : Except Fault (Limiter α)) : Attempt (Limiter α) :=
  match limiter with
  | .error fault => { lines := before, probeCalls, result := .error fault }
  | .ok limiter =>
    match sizeLine s limiter with
    | .error fault => { lines := before, probeCalls, result := .error fault }
    | .ok line => { lines := before ++ line.toList, probeCalls, result := .ok limiter }

/-- A limiter for an explicit cap, or for the detected one when none is given. -/
def create (s : Surroundings) (explicit : Option Value) (probe : Option Capacity.ProbeAnswer) :
    Attempt (Limiter α) :=
  match explicit with
  | some cap => announced s [] 0 (ofValue cap .override)
  | none =>
    let detection := Capacity.detect s probe
    announced s detection.lines detection.probeCalls (detection.result.bind ofCapacity)

end Limiter

end BoundedJobs
