import BoundedJobs.Proofs.Runner.Alike
import BoundedJobs.Proofs.Runner.Moves
import Mathlib.Data.List.Infix

/-!
# Observers have no say in a run

Hooks are called and log lines are written in the middle of the work of a runner, while a slot is
held. None of this has an influence on the work: `unmoved_by_observers`.

A timeline is a list of *incidents*: the moves of a runner, and among them changes of the hooks of a
run. In one move each of the two hooks of a run is called at most once, so a hook that acts
differently at every call is one that has been changed since the last. Two timelines are compared by
what is left of them without observers (`unobserved`): neither hooks nor changes of the level, but
everything else in its order.

* `State.through` — a runner after a timeline;
* `State.milestones` — which bodies began and ended, in which order and at which times;
* `State.entrances` — what is told, log lines and calls of hooks apart;
* `Alike.through` — a timeline and what is left of it without observers take the same course.
-/

namespace BoundedJobs

/-! ## Timelines -/

/-- What can happen to a runner whose observers may change. -/
inductive Incident where
  /-- The runner makes a move. -/
  | move (m : Move)
  /-- From now on the hooks of a run act differently. -/
  | rehook (run : Nat) (hooks : Hooks)

/-- What is left of an incident without observers. -/
def Incident.unobserved? : Incident → Option Incident
  | move (.arrive (.setLevel _)) => none
  | move (.arrive stimulus) => some (.move (.arrive stimulus.unhooked))
  | move .tick => some (.move .tick)
  | rehook .. => none

/-- What is left of a timeline without observers. -/
def unobserved (incidents : List Incident) : List Incident :=
  incidents.filterMap Incident.unobserved?

/-- Two timelines that only differ in observers have the same moments. -/
theorem exists_prefix_of_unobserved {incidents incidents' early' : List Incident}
    (same : unobserved incidents = unobserved incidents') (h : early' <+: incidents') :
    ∃ early, early <+: incidents ∧ unobserved early = unobserved early' := by
  have hprefix : unobserved early' <+: unobserved incidents :=
    calc unobserved early'
        <+: unobserved incidents' := h.filterMap Incident.unobserved?
      _ = unobserved incidents := same.symm
  obtain ⟨early, hearly, heq⟩ := List.prefix_filterMap_iff.mp hprefix
  exact ⟨early, hearly, heq.symm⟩

/-! ## What becomes of bodies -/

/-- What can be seen of a body from outside. -/
inductive Mark where
  | begins
  | ends
  deriving DecidableEq

/-- What has been seen of the body of a job by the time the job is in a phase. While the clock shows
a date, a job leaves the phase `granted` by entering its body. -/
def Phase.marks : Phase → List Mark
  | waiting | granted => []
  | running _ => [.begins]
  | settled .. | leaving _ | finished _ => [.begins, .ends]

/-- The event itself, if it is neither a log line nor the call of a hook. -/
def Event.entrance? : Event → Option Event
  | entered job label place aborted => some (entered job label place aborted)
  | called job label waited => some (called job label waited)
  | logged _ | started .. | ended .. => none

namespace State

variable {s t u s' t' : State} {capacity begun admitted number : Nat} {job : Job}

def undergo (s : State) : Incident → State
  | .move m => s.move m
  | .rehook run hooks => s.modifyRun run fun r => { r with hooks }

/-- A runner after a timeline. -/
def through (s : State) (incidents : List Incident) : State := incidents.foldl undergo s

/-- Without changes of hooks, a timeline is a sequence of moves. -/
theorem through_map_move (s : State) (moves : List Move) :
    s.through (moves.map .move) = s.after moves := List.foldl_map

def marks (s : State) (number : Nat) : List Mark :=
  ((s.jobs[number]?).map (·.phase.marks)).getD []

/-- What is seen of bodies between two states: the number of the job, what happens to its body, and
the time. -/
def seen (s t : State) : List (Nat × Mark × Number) :=
  (List.range t.jobs.length).flatMap fun number =>
    ((t.marks number).drop (s.marks number).length).map fun mark => (number, mark, t.clock)

/-- What is seen of bodies in the course of a timeline. -/
def milestones (s : State) : List Incident → List (Nat × Mark × Number)
  | [] => []
  | incident :: incidents =>
    s.seen (s.undergo incident) ++ (s.undergo incident).milestones incidents

theorem seen_congr (jobs : s.jobs = t.jobs) (jobs' : s'.jobs = t'.jobs)
    (clock : s'.clock = t'.clock) : s.seen s' = t.seen t' := by
  unfold seen marks
  rw [jobs, jobs', clock]

theorem seen_eq_nil (jobs : t.jobs = s.jobs) : s.seen t = [] := by
  unfold seen marks
  rw [jobs, List.flatMap_eq_nil_iff]
  intro number _
  rw [List.drop_length, List.map_nil]

/-! ## What is told -/

/-- What has been told, log lines and calls of hooks apart. -/
def entrances (s : State) : List Event := s.events.filterMap Event.entrance?

/-- What is told about a job that starts, log lines and calls of hooks apart. -/
def entrance (s : State) (number : Nat) (job : Job) : List Event :=
  (s.greeting number job ++ [s.entry number job]).filterMap Event.entrance?

/-- What the next tick tells, log lines and calls of hooks apart. -/
def nextEntrance (s : State) : List Event :=
  match s.queue with
  | .start number :: _ => ((s.jobs[number]?).map (s.entrance number)).getD []
  | _ => []

theorem entrances_congr (h : t.story = s.story) : t.entrances = s.entrances :=
  filterMap_events_congr (fun _ => rfl) h

theorem Beside.entrances {told : List Event} (h : Beside s t told) :
    t.entrances = s.entrances ++ told.filterMap Event.entrance? := h.filterMap fun _ => rfl

theorem Noted.entrances {times : Times} {ending : Ending} {result : Result}
    (h : Noted s number job times ending t result) (dated : s.Dated) :
    t.entrances = s.entrances := by
  cases h with
  | call => rfl
  | outcome _ beside =>
    rw [beside.entrances]
    unfold farewell
    rw [Hook.filterMap_told rfl, List.append_nil]
    rfl
  | crashed _ _ _ _ refused =>
    rcases refused with refused | refused <;> exact absurd refused (dated.look.not_refuses _)

theorem Opening.entrances {phase : Phase} (h : Opening s number job t phase) (dated : s.Dated) :
    t.entrances = s.entrances ++ s.entrance number job := by
  cases h with
  | barred _ _ _ bars => exact absurd bars (dated.not_bars job)
  | running _ beside => exact (entrances_congr (arm_story _ _ _)).trans beside.entrances
  | settled _ beside => exact beside.entrances
  | thrown _ beside time noted =>
    exact (noted.entrances ((dated.looked job).congr time)).trans beside.entrances

theorem entrance_popped (s : State) (number : Nat) (job : Job) :
    s.popped.entrance number job = s.entrance number job := by
  unfold entrance greeting
  rw [look_popped]
  rfl

theorem InLine.entrances_tick (line : InLine capacity 0 s begun admitted) (dated : s.Dated) :
    s.tick.entrances = s.entrances ++ s.nextEntrance := by
  have hticked := line.ticked
  have hdated : s.popped.Dated := dated.congr ⟨rfl, rfl⟩
  unfold nextEntrance
  generalize s.tick = t at hticked
  cases hticked with
  | quiet queue =>
    rw [queue]
    exact (List.append_nil _).symm
  -- the entrance is read off the job at the front of the queue, before it starts
  | started queue job_eq _ opening =>
    rw [queue]
    dsimp only
    rw [job_eq, Option.map_some, Option.getD_some, ← entrance_popped]
    exact opening.entrances (s := s.popped) hdated
  -- a call that throws at once has been entered all the same
  | bounced queue job_eq _ bounced =>
    rw [queue]
    dsimp only
    rw [job_eq, Option.map_some, Option.getD_some, ← entrance_popped]
    exact (entrances_congr (passOn_keeps _).2.2.1).trans (bounced.beside.entrances (s := s.popped))
  -- none of the other pieces of work enters a body
  | finished queue _ _ noted =>
    rw [queue]
    exact (noted.entrances (s := s.popped) hdated).trans (List.append_nil _).symm
  | released queue =>
    rw [queue]
    refine Eq.trans (entrances_congr ?_) (List.append_nil _).symm
    exact (reportBack_keeps _ _ _).2.1.trans (passOn_keeps _).2.2.1
  | concluded queue =>
    rw [queue]
    exact (entrances_congr (conclude_keeps _ _).1).trans (List.append_nil _).symm

theorem Alike.nextEntrance (h : Alike s t) : s.nextEntrance = t.nextEntrance := by
  have hentrance : s.entrance = t.entrance := by
    funext number job
    have hentry : s.entry number job = t.entry number job := by
      unfold entry
      rw [h.isAborted]
    -- a task is greeted by its hook, and a direct call by its event
    have hgreeting : (s.greeting number job).filterMap Event.entrance?
        = (t.greeting number job).filterMap Event.entrance? := by
      unfold greeting
      cases job.run? with
      | some run => exact (Hook.filterMap_told rfl _).trans (Hook.filterMap_told rfl _).symm
      | none =>
        dsimp only
        rw [h.look.clock]
    unfold entrance
    rw [List.filterMap_append, List.filterMap_append, hgreeting, hentry]
  unfold State.nextEntrance
  rw [h.queue, h.jobs, hentrance]

/-! ## One incident -/

theorem InLine.undergo (h : InLine capacity 0 s begun admitted) (incident : Incident) :
    ∃ begun' admitted', InLine capacity 0 (s.undergo incident) begun' admitted' := by
  cases incident with
  | move m =>
    cases m with
    | arrive stimulus => exact ⟨begun, h.receive stimulus⟩
    | tick => exact h.tick
  | rehook run hooks => exact ⟨begun, admitted, h.congr ⟨rfl, rfl, rfl⟩⟩

/-- Only observers notice an incident of which nothing is left without them. -/
theorem Alike.ignore (h : Alike s t) {incident : Incident}
    (observed : incident.unobserved? = none) :
    Alike (s.undergo incident) t ∧ (s.undergo incident).entrances = s.entrances := by
  cases incident with
  | move m =>
    cases m with
    | arrive stimulus =>
      cases stimulus with
      | setLevel level => exact ⟨{ h with }, rfl⟩
      | settle | call | finish | abort | report | setClock | setLags | fire =>
        exact absurd observed (by simp [Incident.unobserved?])
    | tick => exact absurd observed (by simp [Incident.unobserved?])
  | rehook run hooks => exact ⟨(Alike.rehook s run hooks).trans h, rfl⟩

/-- What is left of an incident without observers does to alike states what the incident does. -/
theorem Alike.undergo (h : Alike s t) (line : InLine capacity 0 s begun admitted)
    (dated : s.Dated) (told : s.entrances = t.entrances) {incident other : Incident}
    (left : incident.unobserved? = some other) :
    Alike (s.undergo incident) (t.undergo other) ∧
      (s.undergo incident).entrances = (t.undergo other).entrances := by
  -- what arrives enters no body: this is done by work
  have harrive : ∀ stimulus : Stimulus,
      Alike (s.undergo (.move (.arrive stimulus))) (t.undergo (.move (.arrive stimulus.unhooked))) ∧
        (s.undergo (.move (.arrive stimulus))).entrances
          = (t.undergo (.move (.arrive stimulus.unhooked))).entrances := by
    intro stimulus
    refine ⟨h.receive stimulus, ?_⟩
    change (s.receive stimulus).entrances = (t.receive stimulus.unhooked).entrances
    rw [entrances_congr (receive_story s _), entrances_congr (receive_story t _), told]
  cases incident with
  | move m =>
    cases m with
    | arrive stimulus =>
      cases stimulus with
      | setLevel level => exact absurd left (by simp [Incident.unobserved?])
      | settle | call | finish | abort | report | setClock | setLags | fire =>
        obtain rfl := Option.some.inj left
        exact harrive _
    | tick =>
      obtain rfl := Option.some.inj left
      refine ⟨h.tick dated, ?_⟩
      change s.tick.entrances = t.tick.entrances
      rw [line.entrances_tick dated, (line.congr h.symm.sameLine).entrances_tick (h.dated dated),
        told, h.nextEntrance]
  -- setting the level or the hooks is what an observer does, and is left out
  | rehook run hooks => exact absurd left (by simp [Incident.unobserved?])

/-! ## All incidents -/

/-- Two timelines take the same course from two states on. -/
structure SameCourse (s t : State) (incidents incidents' : List Incident) : Prop where
  alike : Alike (s.through incidents) (t.through incidents')
  told : (s.through incidents).entrances = (t.through incidents').entrances
  milestones : s.milestones incidents = t.milestones incidents'

/-- **A timeline and what is left of it without observers take the same course**, while the clock
of one of them shows a date. -/
theorem Alike.through (h : Alike s t) (line : InLine capacity 0 s begun admitted)
    (told : s.entrances = t.entrances) (incidents : List Incident)
    (dated : ∀ early, early <+: incidents →
      (s.through early).Dated ∨ (t.through (unobserved early)).Dated) :
    SameCourse s t incidents (unobserved incidents) := by
  induction incidents generalizing s t begun admitted with
  | nil => exact ⟨h, told, rfl⟩
  | cons incident incidents ih =>
    have hnow : s.Dated := (dated [] List.nil_prefix).elim id h.symm.dated
    obtain ⟨begun', admitted', hline⟩ := line.undergo incident
    have hlater : ∀ early, early <+: incidents →
        ((s.undergo incident).through early).Dated ∨
          (t.through (unobserved (incident :: early))).Dated := by
      intro early hearly
      exact dated (incident :: early) ((List.prefix_cons_inj incident).mpr hearly)
    cases hleft : incident.unobserved? with
    | none =>
      -- the other timeline stands still, and nothing is seen of a body
      obtain ⟨halike, hkept⟩ := h.ignore hleft
      have hskip (others : List Incident) : unobserved (incident :: others) = unobserved others :=
        List.filterMap_cons_none hleft
      simp only [hskip] at hlater
      have hcourse := ih halike hline (hkept.trans told) hlater
      have hseen : s.seen (s.undergo incident) = [] := seen_eq_nil (halike.jobs.trans h.jobs.symm)
      rw [hskip]
      refine ⟨hcourse.alike, hcourse.told, ?_⟩
      calc s.milestones (incident :: incidents)
          = s.seen (s.undergo incident) ++ (s.undergo incident).milestones incidents := rfl
        _ = (s.undergo incident).milestones incidents := by rw [hseen, List.nil_append]
        _ = t.milestones (unobserved incidents) := hcourse.milestones
    | some other =>
      obtain ⟨halike, htold⟩ := h.undergo line hnow told hleft
      have hstep (others : List Incident) :
          unobserved (incident :: others) = other :: unobserved others :=
        List.filterMap_cons_some hleft
      simp only [hstep] at hlater
      have hcourse := ih halike hline htold hlater
      have hseen : s.seen (s.undergo incident) = t.seen (t.undergo other) :=
        seen_congr h.jobs halike.jobs halike.clock
      rw [hstep]
      refine ⟨hcourse.alike, hcourse.told, ?_⟩
      calc s.milestones (incident :: incidents)
          = s.seen (s.undergo incident) ++ (s.undergo incident).milestones incidents := rfl
        _ = t.seen (t.undergo other) ++ (t.undergo other).milestones (unobserved incidents) := by
          rw [hseen, hcourse.milestones]

/-- **Observers have no say in a run.** Two timelines that only differ in the hooks of their runs
and in the log levels that are set, from the first moment on or anywhere in between, go through the
same moments, while the clock shows a date. Bodies begin and end in the same order and at the same
times. At every moment the same work is to be done, as many slots are held and as many jobs wait,
all runs have the same answers, and the same has been told, log lines and calls of hooks apart. -/
theorem unmoved_by_observers (positive : 0 < capacity) (clock : Number) (level level' : Log.Level)
    (shell : Shell) {incidents incidents' : List Incident}
    (same : unobserved incidents = unobserved incidents')
    (dated : ∀ early, early <+: incidents →
      ((fresh positive clock level shell).through early).Dated) :
    let s := fresh positive clock level shell
    let t := fresh positive clock level' shell
    s.milestones incidents = t.milestones incidents' ∧
      (∀ early, early <+: incidents →
        ∃ early', early' <+: incidents' ∧ unobserved early = unobserved early') ∧
      (∀ early', early' <+: incidents' →
        ∃ early, early <+: incidents ∧ unobserved early = unobserved early') ∧
      ∀ early early', early <+: incidents → early' <+: incidents' →
        unobserved early = unobserved early' →
          Alike (s.through early) (t.through early') ∧
            (s.through early).queue = (t.through early').queue ∧
            (s.through early).active = (t.through early').active ∧
            (s.through early).pending = (t.through early').pending ∧
            (s.through early).runs.map (·.answer) = (t.through early').runs.map (·.answer) ∧
            (s.through early).entrances = (t.through early').entrances := by
  intro s t
  have hline (level : Log.Level) : InLine capacity 0 (fresh positive clock level shell) 0 0 :=
    InLine.idle positive clock level shell
  have hfresh : Alike s t := { Alike.refl s with }
  -- both timelines are compared with what is left of them, on the second runner
  have hfirst : ∀ early, early <+: incidents → SameCourse s t early (unobserved early) := by
    intro early hearly
    refine hfresh.through (hline level) rfl early ?_
    intro moment hmoment
    exact Or.inl (dated moment (hmoment.trans hearly))
  have hsecond : ∀ early', early' <+: incidents' → SameCourse t t early' (unobserved early') := by
    intro early' hearly'
    refine (Alike.refl t).through (hline level') rfl early' ?_
    intro moment hmoment
    right
    -- what is left of the second timeline is dated since the first one is
    obtain ⟨early, hearly, heq⟩ := exists_prefix_of_unobserved same (hmoment.trans hearly')
    rw [← heq]
    exact (hfirst early hearly).alike.dated (dated early hearly)
  have hboth : ∀ early early', early <+: incidents → early' <+: incidents' →
      unobserved early = unobserved early' → SameCourse s t early early' := by
    intro early early' hearly hearly' heq
    have h := hfirst early hearly
    have h' := hsecond early' hearly'
    rw [heq] at h
    exact ⟨h.alike.trans h'.alike.symm, h.told.trans h'.told.symm,
      h.milestones.trans h'.milestones.symm⟩
  refine ⟨(hboth _ _ (List.prefix_refl _) (List.prefix_refl _) same).milestones, ?_, ?_, ?_⟩
  · intro early hearly
    obtain ⟨early', hearly', heq⟩ := exists_prefix_of_unobserved same.symm hearly
    exact ⟨early', hearly', heq.symm⟩
  · intro early' hearly'
    exact exists_prefix_of_unobserved same hearly'
  · intro early early' hearly hearly' heq
    obtain ⟨halike, htold, -⟩ := hboth early early' hearly hearly' heq
    exact ⟨halike, halike.queue, congrArg Semaphore.active halike.slots,
      congrArg Semaphore.pending halike.slots, halike.answers, htold⟩

/-- Two tasks on one slot, whose hooks throw. -/
def watchedRun : Request :=
  { label := "run"
    hooks := { onStart := some { throws := fun _ => some (.text "no") }
               onEnd := some { throws := fun _ => some .revoked } }
    tasks :=
      [{ name := some "a", body := .timed 5 (.thrown (.text "a")) none },
       { name := none, body := .prompt (.returned .absent) }] }

/-- The level changes twice, and between the tasks the hooks change as well. -/
def watched : List Incident :=
  .move (.arrive (.settle watchedRun)) :: .move .tick :: .move (.arrive (.setLevel .silent))
    :: .move (.arrive (.fire 0)) :: .move .tick
    :: .rehook 0 { onEnd := some { throws := fun _ => none } }
    :: .move (.arrive (.setLevel .warn)) :: List.replicate 5 (.move .tick)

/-- The same without hooks, and nobody touches the level. -/
def unwatched : List Incident :=
  .move (.arrive (.settle { watchedRun with hooks := {} })) :: .move .tick
    :: .move (.arrive (.fire 0)) :: List.replicate 6 (.move .tick)

theorem unmoved_by_observers_watched :
    let s := fresh Nat.one_pos 0 .debug []
    let t := fresh Nat.one_pos 0 .silent []
    unobserved watched = unobserved unwatched ∧
      (∀ early, early <+: watched → (s.through early).Dated) ∧
      (s.through watched).events.length = 7 ∧ (t.through unwatched).events.length = 2 ∧
      t.milestones unwatched = [(0, .begins, 0), (0, .ends, 5), (1, .begins, 5), (1, .ends, 5)] ∧
      (s.through watched).runs.map (·.answer) = (t.through unwatched).runs.map (·.answer) := by
  intro s t
  have same : unobserved watched = unobserved unwatched := rfl
  have dated : ∀ early, early <+: watched → (s.through early).Dated := by
    have hall : ∀ early ∈ watched.inits, (s.through early).Dated := by decide +kernel
    intro early hearly
    exact hall early ((List.mem_inits ..).mpr hearly)
  -- one side is computed, and the other follows from the theorem
  have milestones : s.milestones watched
      = [(0, .begins, 0), (0, .ends, 5), (1, .begins, 5), (1, .ends, 5)] := by
    decide +kernel
  obtain ⟨hmilestones, -, -, hmoments⟩ :=
    unmoved_by_observers Nat.one_pos 0 .debug .silent [] same dated
  obtain ⟨-, -, -, -, hanswers, -⟩ :=
    hmoments watched unwatched (List.prefix_refl _) (List.prefix_refl _) same
  exact ⟨same, dated, by decide +kernel, by decide +kernel, hmilestones.symm.trans milestones,
    hanswers⟩

end State

end BoundedJobs
