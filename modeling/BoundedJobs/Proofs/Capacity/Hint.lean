import BoundedJobs.Proofs.Capacity.Sizing

/-!
# Hints of any size

A probe hands over a CPU count, and nobody promises that it is a whole number. The CPU count of the
machine is rounded down to one before it is used; the count of a hint is only compared with it, and
a lesser one becomes the cap as it is. Comparing keeps away everything that is not between zero and
the machine: zero, negative numbers, infinities and what is no number. It does not keep away a
fraction, and a semaphore cannot have a fraction of a slot.

So a hint leads to a usable cap unless it is a fraction below the CPU count of the machine:

* `Capacity.Spoils` — such a hint;
* `Capacity.resolve_of_number` — the cap is the hint or the machine's count;
* `Semaphore.ofValue_of_fraction` — what a semaphore says to it;
* `Limiter.create_of_hint` — what becomes of the cap and of the limiter.
-/

namespace BoundedJobs

variable {α : Type} {q : Rat}

/-! ## Numbers of slots -/

theorem Number.lt_finite_iff {p q : Rat} : lt (finite p) (finite q) = true ↔ p < q :=
  decide_eq_true_iff

namespace Semaphore

/-- A semaphore refuses a fraction. -/
theorem ofValue_of_fraction (h : q.den ≠ 1) :
    (ofValue (.number (.finite q)) : Except Fault (Semaphore α))
      = .error (unusable (.number (.finite q))) := by
  have hnone : (Number.finite q).positiveNat? = none := by
    have hint : (Number.finite q).int? = none := if_neg h
    unfold Number.positiveNat?
    rw [hint]
  unfold ofValue
  dsimp only
  rw [hnone]

end Semaphore

/-! ## The cap -/

namespace Capacity

variable {text : Option String} {s : Surroundings} {hint : Value} {n : Number}

/-- **A hint that spoils the cap**: a fraction between zero and the CPU count of the machine. -/
def Spoils (n : Number) (machine : Int) : Prop :=
  ∃ r : Rat, n = .finite r ∧ 0 < r ∧ r < machine ∧ r.den ≠ 1

/-- The cap is the hint if that lies between zero and the machine, and else the machine's count. -/
theorem resolve_of_number (hq : Number.Represented q) (h : text.bind wanted? = none) (n : Number) :
    (∃ r : Rat, n = .finite r ∧ 0 < r ∧ r < (max 1 q.floor : Int) ∧
      resolve text (.number (.finite q)) (.number n) = .ok ⟨.number n, .docker⟩) ∨
    ((∀ r : Rat, n = .finite r → ¬ (0 < r ∧ r < (max 1 q.floor : Int))) ∧
      resolve text (.number (.finite q)) (.number n)
        = .ok ⟨.number (.finite ((max 1 q.floor : Int) : Rat)), .cpu⟩) := by
  have hresolve : resolve text (.number (.finite q)) (.number n)
      = if (Number.lt 0 n && Number.lt n (machineCount (.finite q))) = true then
          .ok ⟨.number n, .docker⟩
        else .ok ⟨.number (machineCount (.finite q)), .cpu⟩ := by
    unfold resolve
    rw [bind_override?, h]
    rfl
  rw [hresolve, machineCount_eq hq]
  cases n with
  | finite r =>
    have hlowers : (Number.lt 0 (.finite r)
        && Number.lt (.finite r) (.finite ((max 1 q.floor : Int) : Rat))) = true ↔
          0 < r ∧ r < (max 1 q.floor : Int) := by
      have hzero : (0 : Number) = .finite 0 := rfl
      rw [hzero, Bool.and_eq_true, Number.lt_finite_iff, Number.lt_finite_iff]
    by_cases hbetween : 0 < r ∧ r < (max 1 q.floor : Int)
    · rw [if_pos (hlowers.mpr hbetween)]
      exact Or.inl ⟨r, rfl, hbetween.1, hbetween.2, rfl⟩
    · rw [if_neg fun h => hbetween (hlowers.mp h)]
      refine Or.inr ⟨?_, rfl⟩
      intro r' hr'
      obtain rfl := Number.finite.inj hr'
      exact hbetween
  | infinity negative =>
    -- one infinity is not above zero, the other one not below the machine
    refine Or.inr ⟨nofun, ?_⟩
    cases negative <;> rfl
  | nan => exact Or.inr ⟨nofun, rfl⟩

end Capacity

/-! ## The limiter -/

theorem Limiter.ofCapacity_of_fraction (h : q.den ≠ 1) (source : Capacity.Source) :
    (ofCapacity ⟨.number (.finite q), source⟩ : Except Fault (Limiter α))
      = .error (Semaphore.unusable (.number (.finite q))) := by
  unfold ofCapacity ofValue
  rw [Semaphore.ofValue_of_fraction h]
  rfl

/-- The line about a limiter can only fail for the clock. -/
theorem Limiter.eq_invalid_of_announced {s : Surroundings} {before : List String} {probeCalls : Nat}
    {limiter : Limiter α} {fault : Fault}
    (h : (announced s before probeCalls (.ok limiter)).result = .error fault) :
    fault = Timestamp.invalid := by
  unfold announced at h
  dsimp only at h
  cases hline : sizeLine s limiter with
  | ok line =>
    rw [hline] at h
    cases h
  | error other =>
    rw [hline] at h
    obtain rfl := Except.error.inj h
    exact Log.eq_invalid_of_line? rfl rfl hline

/-- **A cap that can be used.** It is a positive whole number, a semaphore can have so many slots,
and the limiter that is made with it has them; only a clock that shows no date can be in its way. -/
structure Limiter.Serves (s : Surroundings) (cap : Capacity) (count : Nat)
    (creation : Attempt (Limiter α)) : Prop where
  positive : 0 < count
  whole : cap.maxParallel = .number (.finite ((count : Int) : Rat))
  slots : ∃ slots : Semaphore α, Semaphore.ofValue cap.maxParallel = .ok slots ∧
    slots.capacity = count
  limiter : Timestamp.InRange s.clock → ∃ limiter, creation.result = .ok limiter ∧
    limiter.slots.capacity = count ∧ limiter.source = cap.source
  accepted : ∀ fault, creation.result = .error fault → fault.kind ≠ .config

theorem Limiter.serves_of_whole (s : Surroundings) {count : Nat} (hpos : 0 < count)
    (source : Capacity.Source) (before : List String) (probeCalls : Nat) :
    Serves s ⟨.number (.finite ((count : Int) : Rat)), source⟩ count
      (announced s before probeCalls
        (ofCapacity (α := α) ⟨.number (.finite ((count : Int) : Rat)), source⟩)) := by
  rw [ofCapacity_of_whole hpos]
  exact
    { positive := hpos
      whole := rfl
      slots := ⟨_, Semaphore.ofValue_of_whole hpos, rfl⟩
      limiter := fun hclock => ⟨_, result_announced hclock _ _ _, rfl, rfl⟩
      accepted := fun fault hfault => by
        rw [eq_invalid_of_announced hfault]
        decide }

/-- **A hint of any size.** There is always a cap. Unless the hint is a fraction below the CPU count
of the machine, and nothing overrides it, the cap can be used, and without an override it is at most
the CPU count of the machine. Such a fraction becomes the cap, and then there is no limiter. -/
theorem Limiter.create_of_hint {s : Surroundings} {text : Option String} {hint : Value} {n : Number}
    (htext : Capacity.overrideText s = .ok text) (hcpu : s.cpuCount = .number (.finite q))
    (hq : Number.Represented q) (hreported : Capacity.reportedBy hint = .number n) :
    let machine := max 1 q.floor
    let spoiled := text.bind Capacity.override? = none ∧ Capacity.Spoils n machine
    let creation : Attempt (Limiter α) := create s none (some (.ok hint))
    ∃ cap, Capacity.resolve text s.cpuCount (.number n) = .ok cap ∧
      (Capacity.detect s (some (.ok hint))).result = .ok cap ∧
      (¬ spoiled → ∃ count, Serves s cap count creation ∧
        (text.bind Capacity.override? = none → (count : Int) ≤ machine)) ∧
      (spoiled → cap = ⟨.number n, .docker⟩ ∧ ∃ fault : Fault,
        (Semaphore.ofValue cap.maxParallel : Except Fault (Semaphore α)) = .error fault ∧
        creation.result = .error fault ∧ fault.kind = .config ∧
        fault.message = "Semaphore capacity must be a positive integer, got " ++ n.text) := by
  -- a hint with a number to show is no value that refuses to be looked at
  have hshown : hint ≠ .revoked := by
    rintro rfl
    cases hreported
  have hcreate : (create s none (some (.ok hint)) : Attempt (Limiter α))
      = announced s (Capacity.detect s (some (.ok hint))).lines
          (Capacity.detect s (some (.ok hint))).probeCalls
          ((Capacity.detect s (some (.ok hint))).result.bind ofCapacity) := rfl
  dsimp only
  rw [hcreate, Capacity.bind_override?, hcpu]
  cases hwanted : text.bind Capacity.wanted? with
  | some count =>
    -- an override is whole, and the hint is not even asked for
    obtain ⟨_, -, hgiven⟩ := Option.bind_eq_some_iff.mp hwanted
    obtain ⟨hpos, hbound⟩ := Capacity.bounds_of_wanted? hgiven
    have hcount : Number.ofNat count = .finite ((count : Int) : Rat) :=
      Number.ofNat_of_le hbound.le
    rw [Capacity.detect_of_override htext hwanted, Capacity.resolve_of_override hwanted, hcount]
    refine ⟨_, rfl, rfl, fun _ => ⟨count, serves_of_whole s hpos .override _ _, nofun⟩, ?_⟩
    rintro ⟨hnone, -⟩
    cases hnone
  | none =>
    rw [Capacity.detect_of_hint htext hwanted hshown, hreported, hcpu]
    dsimp only
    rcases Capacity.resolve_of_number hq hwanted n with ⟨r, rfl, hlow, hhigh, hres⟩ | ⟨hout, hres⟩
    · -- the hint is taken, whole or not
      rw [hres]
      refine ⟨_, rfl, rfl, ?_, ?_⟩
      · intro unspoiled
        -- below the count of the machine only a fraction spoils the cap
        have hden : r.den = 1 := by
          by_contra hden
          exact unspoiled ⟨rfl, r, rfl, hlow, hhigh, hden⟩
        obtain ⟨i, rfl⟩ : ∃ i : Int, r = i := ⟨r.num, ((Rat.den_eq_one_iff r).mp hden).symm⟩
        obtain ⟨count, rfl⟩ := Int.eq_ofNat_of_zero_le (Rat.intCast_pos.mp hlow).le
        exact ⟨count, serves_of_whole s (Int.natCast_pos.mp (Rat.intCast_pos.mp hlow)) .docker _ _,
          fun _ => (Rat.intCast_lt_intCast.mp hhigh).le⟩
      · rintro ⟨-, r', hr', -, -, hden⟩
        obtain rfl := Number.finite.inj hr'
        -- the cap is a fraction, which no semaphore takes
        refine ⟨rfl, _, Semaphore.ofValue_of_fraction hden, ?_, rfl, rfl⟩
        change (announced s [] 1 (ofCapacity ⟨.number (.finite r), .docker⟩)).result = _
        rw [ofCapacity_of_fraction hden]
        rfl
    · -- the machine's count is taken
      rw [hres]
      have hpos := Capacity.machine_pos q
      obtain ⟨count, hcount⟩ := Int.eq_ofNat_of_zero_le hpos.le
      rw [hcount] at hpos ⊢
      refine ⟨_, rfl, rfl, fun _ => ⟨count, serves_of_whole s (Int.natCast_pos.mp hpos) .cpu _ _,
        fun _ => le_rfl⟩, ?_⟩
      rintro ⟨-, r, hr, hlow, hhigh, -⟩
      exact absurd ⟨hlow, hcount ▸ hhigh⟩ (hout r hr)

/-- A hint that is no number at all, on a machine with eight CPUs. -/
theorem Limiter.create_of_hint_noNumber :
    let s : Surroundings := { clock := 0 }
    let hint := Value.object [("ncpu", .number .nan)]
    Capacity.overrideText s = .ok none ∧ s.cpuCount = .number (.finite 8) ∧
      Number.Represented 8 ∧ Capacity.reportedBy hint = .number .nan ∧
      ∃ limiter : Limiter Nat, (create s none (some (.ok hint))).result = .ok limiter ∧
        1 ≤ limiter.slots.capacity ∧ limiter.slots.capacity ≤ 8 := by
  intro s hint
  have htext : Capacity.overrideText s = .ok none := rfl
  have hcpu : s.cpuCount = .number (.finite 8) := rfl
  have height : Number.Represented 8 := ⟨8, 0, by decide, by decide, by decide, by norm_num⟩
  have hreported : Capacity.reportedBy hint = .number .nan := rfl
  -- the only hints that are refused are fractions, and this is none
  obtain ⟨cap, -, -, hserves, -⟩ := create_of_hint (α := Nat) htext hcpu height hreported
  obtain ⟨count, serves, hle⟩ := hserves fun ⟨_, _, hnan, _⟩ => nomatch hnan
  obtain ⟨limiter, hresult, hslots, -⟩ := serves.limiter (by decide)
  have hmachine : (count : Int) ≤ 8 := hle rfl
  exact ⟨htext, hcpu, height, hreported, limiter, hresult, hslots ▸ serves.positive,
    by omega⟩

/-- **Two and a half CPUs.** On a machine with eight CPUs such a hint becomes the cap. No semaphore
can have so many slots, and the limiter is refused as if its caller had set it up wrongly. -/
theorem Limiter.refused_of_twoAndAHalf :
    let s : Surroundings := { clock := 0 }
    let hint := Value.object [("ncpu", .number (.finite (mkRat 5 2)))]
    Capacity.resolve none s.cpuCount (Capacity.reportedBy hint)
        = .ok ⟨.number (.finite (mkRat 5 2)), .docker⟩ ∧
      (∀ slots : Semaphore Nat, Semaphore.ofValue (.number (.finite (mkRat 5 2))) ≠ .ok slots) ∧
      ∃ fault, (create (α := Nat) s none (some (.ok hint))).result = .error fault ∧
        fault.kind = .config := by
  intro s hint
  have hden : (mkRat 5 2).den ≠ 1 := by decide
  refine ⟨rfl, fun slots h => ?_, Semaphore.unusable (.number (.finite (mkRat 5 2))), ?_, rfl⟩
  · rw [Semaphore.ofValue_of_fraction hden] at h
    cases h
  · change (announced s [] 1 (ofCapacity ⟨.number (.finite (mkRat 5 2)), .docker⟩)).result = _
    rw [ofCapacity_of_fraction hden]
    rfl

end BoundedJobs
