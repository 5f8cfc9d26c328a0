import BoundedJobs.Proofs.Overflow
import BoundedJobs.Proofs.Runner.Alarms

/-!
# The clock of a runner that is left to its alarms

An alarm is set some time ahead, and when it goes off the clock moves on to its time and never back.
So as long as nobody else sets the clock, a runner keeps pace: its clock goes forward, and whenever
it is looked at it shows a number that a rounding leaves. The times in a report then lie between the
start and the end of the run, however far the clock may go.

* `State.Punctual`, `State.Rounded` — time only passes when an alarm goes off, and the clock and all
  alarms are at rounded numbers. No move changes that (`Rounded.tick`, `Rounded.fire`), since new
  alarms are set at sums only (`SetsAhead`);
* `State.Paced` — moves along which the clock goes forward, at rounded numbers;
* `State.exists_paced` — a runner that is left to its alarms makes such moves;
* `Crew.times_of_paced` — what the report of a run shows after them.
-/

namespace BoundedJobs

namespace Number

variable {a b n : Number}

theorem Exact.max (ha : a.Exact) (hb : b.Exact) : (a.max b).Exact := by
  unfold Number.max
  split
  · exact fun i hi => by cases hi
  · split
    · exact hb
    · exact ha

/-- A sum is rounded. -/
theorem exact_add (a b : Number) : (a + b).Exact := by
  cases a with
  | finite p =>
    cases b with
    | finite q => exact exact_nearest (p + q)
    | infinity | nan => exact fun i hi => by cases hi
  | infinity up =>
    cases b with
    | finite | nan => exact fun i hi => by cases hi
    | infinity down => cases up <;> cases down <;> exact fun i hi => by cases hi
  | nan => cases b <;> exact fun i hi => by cases hi

/-- Whole milliseconds in the range of dates have few digits. -/
theorem exact_of_inRange (h : Timestamp.InRange n) : n.Exact := by
  intro i hi
  obtain rfl := eq_of_int? hi
  obtain ⟨j, hj, heq⟩ := isReading_of_inRange h
  have hwhole := whole_of_natAbs_le_bound hj
  rw [show ofInt j = finite (j : Rat) from hwhole] at heq
  exact Rat.intCast_inj.mp (finite.inj heq) ▸ hwhole

theorem ne_nan_of_le (h : le a b = true) : a ≠ nan ∧ b ≠ nan := by
  constructor <;> rintro rfl
  · cases b <;> cases h
  · cases a <;> cases h

theorem max_ne_nan (ha : a ≠ nan) (hb : b ≠ nan) : a.max b ≠ nan := (ne_nan_of_le (le_max ha hb)).2

end Number

namespace State

variable {s t u : State} {place number : Nat} {capacity begun admitted : Nat} {m : Move}
  {moves first second : List Move}

/-! ## Alarms that are set -/

/-- Whatever alarms `t` has and `s` has not are set some time ahead. -/
def SetsAhead (s t : State) : Prop :=
  ∀ timer ∈ t.timers, timer ∈ s.timers ∨ ∃ now delay : Number, timer.due = now + delay

theorem SetsAhead.of_subset (h : t.timers ⊆ s.timers) : SetsAhead s t := fun _ hmem => .inl (h hmem)

theorem SetsAhead.of_eq (h : t.timers = s.timers) : SetsAhead s t :=
  .of_subset (h ▸ List.Subset.refl _)

theorem SetsAhead.trans (h : SetsAhead s t) (h' : SetsAhead t u) : SetsAhead s u := by
  intro timer hmem
  rcases h' timer hmem with hold | hnew
  · exact h timer hold
  · exact .inr hnew

theorem addTimer_setsAhead (s : State) (delay : Number) (alarm : Alarm) :
    SetsAhead s (s.addTimer delay alarm) := by
  intro timer hmem
  rcases List.mem_append.mp hmem with hold | hnew
  · exact .inl hold
  · exact .inr ⟨s.clock, delay, congrArg Timer.due (List.mem_singleton.mp hnew)⟩

theorem arm_setsAhead (s : State) (number : Nat) (body : Body) :
    SetsAhead s (s.arm number body) := by
  cases body with
  | timed | command => exact addTimer_setsAhead s _ _
  | immediate | prompt | manual => exact .of_eq rfl

theorem Opening.setsAhead {job : Job} {phase : Phase} (h : Opening s number job t phase) :
    SetsAhead s t := by
  cases h with
  | barred beside => exact .of_eq beside.timers
  | running _ beside => exact (SetsAhead.of_eq beside.timers).trans (arm_setsAhead _ _ _)
  | settled _ beside => exact .of_eq beside.timers
  | thrown _ beside time noted => exact .of_eq (noted.timers.trans beside.timers)

/-- **Work** sets alarms some time ahead only. -/
theorem Ticked.setsAhead (h : Ticked s t) : SetsAhead s t := by
  cases h with
  | quiet => exact .of_eq rfl
  | started _ _ _ opening => exact opening.setsAhead
  | bounced _ _ _ bounced =>
    exact .of_eq ((passOn_keeps _).2.2.2.1.trans bounced.beside.timers)
  | finished _ _ _ noted => exact .of_eq noted.timers
  | released =>
    exact .of_eq ((reportBack_keeps _ _ _).2.2.1.trans (passOn_keeps _).2.2.2.1)
  | concluded => exact .of_eq (conclude_keeps _ _).2.1

theorem childReports_setsAhead (s : State) (number : Nat) (report : ChildReport) :
    SetsAhead s (s.childReports number report) := by
  unfold childReports
  split
  · exact .of_eq rfl
  · split
    · exact .of_eq (settleJob_keeps s number _).2.1
    · exact .of_eq rfl

theorem abortJob_setsAhead (s : State) (number : Nat) : SetsAhead s (s.abortJob number) := by
  unfold abortJob
  simp only [settle_eq_place]
  split
  · exact .of_eq rfl
  · split
    · unfold kill
      dsimp only
      split
      · exact .of_eq rfl
      · exact addTimer_setsAhead _ _ _
    · split <;> exact .of_eq rfl
    · exact .of_eq rfl

theorem foldl_abortJob_setsAhead (numbers : List Nat) (s : State) :
    SetsAhead s (numbers.foldl abortJob s) := by
  induction numbers generalizing s with
  | nil => exact .of_eq rfl
  | cons number numbers ih => exact (abortJob_setsAhead s number).trans (ih (s.abortJob number))

theorem abort_setsAhead (s : State) (run : Nat) : SetsAhead s (s.abort run) := by
  unfold State.abort
  split
  · split
    · exact foldl_abortJob_setsAhead _ _
    · exact .of_eq rfl
  · exact .of_eq rfl

/-- **An alarm** that goes off sets others some time ahead only. -/
theorem fire_setsAhead (s : State) (place : Nat) : SetsAhead s (s.fire place) := by
  unfold fire
  split
  · exact .of_eq rfl
  · next timer _ =>
    have hgone : SetsAhead s (s.struck timer place) := .of_subset List.eraseIdx_subset
    refine hgone.trans ?_
    cases timer.alarm with
    | settle job ending => exact .of_eq (settleJob_keeps _ job ending).2.1
    | child job report => exact childReports_setsAhead _ job report
    | abort run => exact abort_setsAhead _ run

/-! ## Rounded numbers -/

/-- The clock shows a rounded number, and time only passes when an alarm goes off. -/
structure Punctual (s : State) : Prop where
  exact : s.clock.Exact
  unlagged : s.lags = []

theorem Punctual.congr (h : s.Punctual) (time : SameTime s t) : t.Punctual :=
  ⟨time.clock.symm ▸ h.exact, time.lags.trans h.unlagged⟩

/-- The clock and all alarms are at rounded numbers. -/
structure Rounded (s : State) : Prop where
  now : s.Punctual
  alarms : ∀ timer ∈ s.timers, timer.due.Exact

theorem Rounded.set (h : s.Rounded) (now : t.Punctual) (ahead : SetsAhead s t) : t.Rounded where
  now := now
  alarms := by
    intro timer hmem
    rcases ahead timer hmem with hold | ⟨now, delay, hdue⟩
    · exact h.alarms timer hold
    · exact hdue ▸ Number.exact_add now delay

theorem Rounded.tick (h : s.Rounded) (line : InLine capacity 0 s begun admitted) :
    s.tick.Rounded :=
  h.set (h.now.congr (line.ticked.sameTime h.now.unlagged)) line.ticked.setsAhead

theorem Rounded.fire {timer : Timer} (h : s.Rounded) (timer_eq : s.timers[place]? = some timer) :
    (s.fire place).Rounded := by
  have hstruck : (s.struck timer place).Punctual :=
    ⟨h.now.exact.max (h.alarms timer (List.mem_of_getElem? timer_eq)), h.now.unlagged⟩
  exact h.set (hstruck.congr (fire_time timer_eq)) (fire_setsAhead s place)

/-! ## Moves in pace -/

/-- **Moves in pace**: the clock goes forward, and it shows rounded numbers. -/
def Paced (s : State) : List Move → Prop
  | [] => s.clock ≠ .nan ∧ s.Punctual
  | m :: moves => s.Punctual ∧ Number.le s.clock (s.move m).clock = true ∧ (s.move m).Paced moves

theorem Paced.now (h : s.Paced moves) : s.Punctual := by
  cases moves with
  | nil => exact h.2
  | cons m moves => exact h.1

theorem Paced.append (h : s.Paced first) (h' : (s.after first).Paced second) :
    s.Paced (first ++ second) := by
  induction first generalizing s with
  | nil => exact h'
  | cons m first ih => exact ⟨h.1, h.2.1, ih h.2.2 h'⟩

/-- Both parts of moves in pace are in pace. -/
theorem Paced.of_append (h : s.Paced (first ++ second)) :
    s.Paced first ∧ (s.after first).Paced second := by
  induction first generalizing s with
  | nil =>
    refine ⟨⟨?_, h.now⟩, h⟩
    cases second with
    | nil => exact h.1
    | cons m second => exact (Number.ne_nan_of_le h.2.1).1
  | cons m first ih =>
    obtain ⟨hfirst, hsecond⟩ := ih h.2.2
    exact ⟨⟨h.1, h.2.1, hfirst⟩, hsecond⟩

/-- The clock goes forward over any number of moves. -/
theorem Paced.le (h : s.Paced moves) : Number.le s.clock (s.after moves).clock = true := by
  induction moves generalizing s with
  | nil => exact Number.le_refl h.1
  | cons m moves ih => exact Number.le_trans h.2.1 (ih h.2.2)

/-- At every moment the clock is between its beginning and its end. -/
theorem Paced.between (h : s.Paced moves) {moment : List Move} (hmoment : moment <+: moves) :
    (s.after moment).Clocked (Number.Between s.clock (s.after moves).clock) := by
  obtain ⟨rest, rfl⟩ := hmoment
  obtain ⟨hfirst, hsecond⟩ := h.of_append
  refine clocked_of_unlagged hsecond.now.unlagged ⟨hfirst.le, ?_⟩
  exact after_append s moment rest ▸ hsecond.le

/-- A move that does not set the clock back, to a state in pace. -/
theorem paced_single (rounded : s.Rounded) (forward : Number.le s.clock (s.move m).clock = true)
    (rounded' : (s.move m).Rounded) : s.Paced [m] :=
  ⟨rounded.now, forward, (Number.ne_nan_of_le forward).2, rounded'.now⟩

/-- Time stands still while work is done. -/
theorem InLine.paced_ticks (line : InLine capacity 0 s begun admitted) (rounded : s.Rounded)
    (hclock : s.clock ≠ .nan) (n : Nat) :
    s.Paced (List.replicate n .tick) ∧ (s.after (List.replicate n .tick)).Rounded := by
  induction n generalizing s begun admitted with
  | zero => exact ⟨⟨hclock, rounded.now⟩, rounded⟩
  | succ n ih =>
    obtain ⟨begun', admitted', hnext⟩ := line.tick
    have hsame := (line.ticked.sameTime rounded.now.unlagged).clock
    obtain ⟨hpaced, hrounded⟩ := ih hnext (rounded.tick line) (hsame.symm ▸ hclock)
    refine ⟨⟨rounded.now, ?_, hpaced⟩, hrounded⟩
    change Number.le s.clock s.tick.clock = true
    rw [hsame]
    exact Number.le_refl hclock

/-- **The moves between alarms** are in pace. By induction on the alarms that go off. -/
theorem exists_paced_fireWithin (line : InLine capacity 0 s begun admitted) (rounded : s.Rounded)
    (hclock : s.clock ≠ .nan) (stop : State → Bool) (fuel : Nat) :
    ∃ moves, State.fireWithin (fun due => due != .nan) stop fuel s = s.after moves ∧
      s.Paced moves := by
  induction fuel generalizing s begun admitted with
  | zero => exact ⟨[], rfl, hclock, rounded.now⟩
  | succ fuel ih =>
    unfold State.fireWithin
    split
    · exact ⟨[], rfl, hclock, rounded.now⟩
    · rcases nextTimer?_cases (fun due => due != .nan) s.timers with
        ⟨hnone, -⟩ | ⟨place, timer, hsome, htimer, hdue⟩
      · rw [hnone]
        exact ⟨[], rfl, hclock, rounded.now⟩
      · rw [hsome]
        have hdue' : timer.due ≠ .nan := bne_iff_ne.mp hdue
        have hfired : (s.fire place).clock = s.clock.max timer.due := fire_clock htimer
        have hforward : Number.le s.clock (s.fire place).clock = true :=
          hfired ▸ Number.le_max hclock hdue'
        -- the alarm goes off, and the work that follows is done
        obtain ⟨n, hn⟩ := respond_eq_after s (.fire place)
        obtain ⟨admitted', hreceived⟩ := line.receive (.fire place)
        have hfire : s.Paced [.arrive (.fire place)] :=
          paced_single rounded hforward (rounded.fire htimer)
        obtain ⟨hticks, hrounded⟩ := hreceived.paced_ticks (rounded.fire htimer)
          (hfired ▸ Number.max_ne_nan hclock hdue') n
        -- and the rest is in pace from there
        obtain ⟨begun', admitted'', hline⟩ := line.exists_respond (.fire place)
        have hresponded := (line.respond_fire_time rounded.now.unlagged htimer).clock
        obtain ⟨moves, hmoves, hpaced⟩ := ih hline (hn ▸ hrounded)
          (hresponded ▸ Number.max_ne_nan hclock hdue')
        refine ⟨.arrive (.fire place) :: List.replicate n .tick ++ moves, ?_, ?_⟩
        · rw [after_append, ← hn]
          exact hmoves
        · exact (hfire.append hticks).append (hn ▸ hpaced)

/-- **A runner that is left to its alarms keeps pace**, from the submission of a run on. -/
theorem exists_paced {origin : State} (regular : origin.Regular capacity) (rounded : origin.Rounded)
    (hclock : origin.clock ≠ .nan) (request : Request) (stop : State → Bool) :
    let first := origin.receive (.settle request)
    ∃ later, (origin.respond (.settle request)).runUntil stop = first.after later ∧
      first.Paced later := by
  intro first
  have hsame := submit_time rounded.now.unlagged request
  have htimers : first.timers = origin.timers := (submit_queued origin request).1
  have hfirst : first.Rounded := ⟨rounded.now.congr hsame, htimers.symm ▸ rounded.alarms⟩
  obtain ⟨begun, admitted, hline⟩ := (regular.move (.arrive (.settle request))).inLine
  -- first the work that the submission has left is done, and then alarm after alarm fires
  obtain ⟨n, hn⟩ := drainWithin_eq_after first.effort first
  obtain ⟨hticks, hrounded⟩ :=
    InLine.paced_ticks (s := first) hline hfirst (hsame.clock.symm ▸ hclock) n
  obtain ⟨begun', admitted', hdrained⟩ :=
    InLine.after (s := first) hline (List.replicate n .tick)
  have hdrained_time := InLine.time_ticks (s := first) hline hfirst.now.unlagged n
  obtain ⟨moves, hmoves, hpaced⟩ := exists_paced_fireWithin hdrained hrounded
    (hdrained_time.clock.symm ▸ hsame.clock.symm ▸ hclock) stop
    (first.after (List.replicate n .tick)).alarms
  refine ⟨List.replicate n .tick ++ moves, ?_, hticks.append hpaced⟩
  rw [after_append, ← hmoves]
  exact congrArg (State.runUntil · stop) hn

end State

namespace Crew

open State

/-- **The times in a report** after moves in pace: it starts with the submission, and its outcomes
show differences of numbers between its start and its end. -/
theorem times_of_paced {origin : State} {capacity : Nat} (regular : origin.Regular capacity)
    (unlagged : origin.lags = []) (request : Request) (later : List Move) {report : Report} :
    let first := origin.receive (.settle request)
    let c := ofRequest origin request
    first.Paced later → c.answer? (first.after later) = some (.ok report) →
      report.startedAt = origin.clock ∧ report.finishedAt.Exact ∧
      report.durationMs = report.finishedAt - report.startedAt ∧
      ∀ outcome ∈ report.tasks,
        outcome.waitedMs.IsSpanOf (Number.Between report.startedAt report.finishedAt) ∧
        outcome.durationMs.IsSpanOf (Number.Between report.startedAt report.finishedAt) := by
  intro first c paced hanswer
  -- the moves up to the one that makes the report are all that it knows of
  obtain ⟨before, run, ⟨rest, hlater⟩, hresolved, hreport⟩ :=
    exists_resolved regular request later hanswer
  have hfinished := congrArg Report.finishedAt hreport
  rw [← hlater, List.append_assoc] at paced
  obtain ⟨hbefore, hticked⟩ := paced.of_append
  rw [look_of_unlagged hticked.now.unlagged] at hfinished
  have hopened := submit_time unlagged request
  obtain ⟨begun, admitted, hline⟩ :=
    (regular.after (.arrive (.settle request) :: before)).inLine
  have hstill : SameTime (first.after before) (first.after (before ++ [.tick])) := by
    rw [after_concat]
    exact hline.ticked.sameTime hticked.now.unlagged
  have hbetween : ∀ moment, moment <+: before → (first.after moment).Clocked
      (Number.Between origin.clock (first.after before).clock) :=
    fun moment hmoment => hopened.clock ▸ hbefore.between hmoment
  have hshows := shows_of_regular (Number.Between origin.clock (first.after before).clock)
    regular request (before ++ [.tick])
    (clocked_of_unlagged unlagged (hopened.clock ▸ (hbetween [] List.nil_prefix).now))
    fun moment hmoment => by
      rcases List.prefix_concat_iff.mp hmoment with rfl | hearlier
      · exact (hbetween before List.prefix_rfl).congr hstill
      · exact hbetween moment hearlier
  rw [look_of_unlagged unlagged] at hshows
  have hreported := (tracked_of_regular regular request (before ++ [.tick])).2.answered _ hresolved
  obtain ⟨hstarted, -, hduration⟩ := hshows.report report hresolved
  refine ⟨hstarted, hfinished ▸ hticked.now.exact, hduration, fun outcome hmem => ?_⟩
  rw [hstarted, hfinished]
  exact hshows.outcome hreported hmem

end Crew

end BoundedJobs
