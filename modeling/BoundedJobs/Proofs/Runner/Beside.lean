import BoundedJobs.Proofs.Log
import BoundedJobs.Runner.Stimulus

/-!
# Things beside the jobs, and the end of a body

Every piece of work of a runner comes to the same thing: something is told to observers, and one
job is *placed* in its next phase, with the work that belongs to that phase put behind all other
work. This file has the words for that and says it of the end of a body.

* `State.place` — a job moves on to a phase, and its work goes into the queue;
* `State.look_clock`, `State.look_jobs` and so on — a look at the clock changes nothing else;
* `State.Beside` — two states that differ in nothing that decides about jobs, slots and runs, and
  `State.SameLine`, which leaves the runs open;
* `State.Noted` — the end of a body is noted (`wrapUp_eq`): the run keeps the message of a failure
  and the end hook is told.

A line that cannot be written is the only thing that ends a task without an outcome. `State.Refuses`
says when that is: a line of a level that is shown is due while the clock shows no moment.
-/

namespace BoundedJobs

/-- The piece of work that a job in a phase has in the queue, if it has one. -/
def Phase.work? (number : Nat) : Phase → Option Work
  | granted => some (.start number)
  | settled .. => some (.finish number)
  | leaving _ => some (.release number)
  | _ => none

/-- Whether a body is still in progress after it has been entered, unless its run is aborted. -/
def Body.lasts : Body → Bool
  | immediate _ | prompt _ => false
  | _ => true

/-- Whether a body can settle with an ending. A body that is told to end can settle with any, and
that of a command ends as its child does. -/
def Body.Allows (body : Body) (ending : Ending) : Prop :=
  match body with
  | immediate own | prompt own => ending = own.effective
  | timed _ own onAbort =>
    ending = own.effective ∨ ∃ early, onAbort = some early ∧ ending = early.effective
  | manual _ | command .. => True

theorem Body.allows_early {body : Body} {early : Ending} (h : body.abortEnding? = some early) :
    body.Allows early.effective := by
  cases body with
  | timed delay own onAbort => exact Or.inr ⟨early, h, rfl⟩
  | manual onAbort => trivial
  | immediate | prompt | command => exact absurd h (by simp [Body.abortEnding?])

/-- Whether an event is no more than a log line. -/
def Event.isLine : Event → Bool
  | logged _ => true
  | _ => false

/-- What is told to a hook, if there is one. -/
def Hook.told (hook : Option Hook) (event : Event) : List Event :=
  if hook.isSome then [event] else []

/-- Whether a hook throws when it is told of the task at a place. -/
def Hook.throwsAt (hook : Option Hook) (place : Nat) : Bool :=
  hook.any fun hook => (hook.throws place).isSome

theorem Hook.filterMap_told {α : Type} {f : Event → Option α} {event : Event} (h : f event = none)
    (hook : Option Hook) : (Hook.told hook event).filterMap f = [] := by
  unfold Hook.told
  split
  · rw [List.filterMap_cons_none h]
    rfl
  · rfl

namespace State

variable {s t u : State}

/-- A job moves on to a phase, and the work that belongs to the phase goes behind all other. -/
def place (s : State) (number : Nat) (phase : Phase) : State :=
  { s.setPhase number phase with queue := s.queue ++ (phase.work? number).toList }

/-- What observers have been told, log lines apart. -/
def story (s : State) : List Event := s.events.filter (!·.isLine)

theorem story_emit (s : State) (event : Event) :
    (s.emit event).story = s.story ++ if event.isLine then [] else [event] := by
  unfold story emit
  rw [List.filter_append]
  cases h : event.isLine <;> simp [h]

/-- What is read off the events, log lines apart, is read off the story. -/
theorem filterMap_events {α : Type} {f : Event → Option α} (h : ∀ line, f (.logged line) = none)
    (s : State) : s.events.filterMap f = s.story.filterMap f := by
  unfold story
  -- a line at the head is left out on the right, and gives nothing on the left
  induction s.events with
  | nil => rfl
  | cons event events ih =>
    cases event with
    | logged line => exact (List.filterMap_cons_none (h line)).trans ih
    | started | ended | entered | called =>
      rw [List.filter_cons_of_pos rfl, List.filterMap_cons, List.filterMap_cons, ih]

theorem filterMap_events_congr {α : Type} {f : Event → Option α}
    (h : ∀ line, f (.logged line) = none) (story : t.story = s.story) :
    t.events.filterMap f = s.events.filterMap f := by
  rw [filterMap_events h, filterMap_events h, story]

/-! ## Looks at the clock -/

section Look

variable (s : State)

theorem look_of_unlagged {s : State} (unlagged : s.lags = []) : s.look = s := by
  unfold look
  rw [unlagged]

/-- A look at the clock changes no more than the clock and what is left of the lags. -/
theorem look_eq : s.look = { s with clock := s.look.clock, lags := s.look.lags } := by
  unfold look
  split <;> rfl

@[simp] theorem look_jobs : s.look.jobs = s.jobs := by rw [look_eq]

@[simp] theorem look_queue : s.look.queue = s.queue := by rw [look_eq]

@[simp] theorem look_slots : s.look.slots = s.slots := by rw [look_eq]

@[simp] theorem look_runs : s.look.runs = s.runs := by rw [look_eq]

@[simp] theorem look_level : s.look.level = s.level := by rw [look_eq]

@[simp] theorem look_shell : s.look.shell = s.shell := by rw [look_eq]

@[simp] theorem look_timers : s.look.timers = s.timers := by rw [look_eq]

@[simp] theorem look_handles : s.look.handles = s.handles := by rw [look_eq]

@[simp] theorem look_events : s.look.events = s.events := by rw [look_eq]

@[simp] theorem look_spawned : s.look.spawned = s.spawned := by rw [look_eq]

@[simp] theorem look_signalled : s.look.signalled = s.signalled := by rw [look_eq]

@[simp] theorem look_reports : s.look.reports = s.reports := by rw [look_eq]

@[simp] theorem look_story : s.look.story = s.story := by
  unfold story
  rw [look_events]

/-- Several looks, one after the other. -/
def looks (s : State) : Nat → State
  | 0 => s
  | count + 1 => s.look.looks count

@[simp] theorem looks_zero : s.looks 0 = s := rfl

@[simp] theorem looks_succ (count : Nat) : s.looks (count + 1) = s.look.looks count := rfl

theorem looks_of_unlagged {s : State} (unlagged : s.lags = []) (count : Nat) :
    s.looks count = s := by
  induction count with
  | zero => rfl
  | succ count ih => rw [looks_succ, look_of_unlagged unlagged, ih]

theorem looks_eq (count : Nat) :
    s.looks count = { s with clock := (s.looks count).clock, lags := (s.looks count).lags } := by
  induction count generalizing s with
  | zero => rfl
  | succ count ih => rw [looks_succ, ih s.look, look_eq]

end Look

/-! ## Things beside the jobs -/

/-- `t` is `s` after things beside its jobs, slots and runs: log lines may have been written,
children asked for, and observers have been told `told`. Any time may have passed. -/
structure Beside (s t : State) (told : List Event) : Prop where
  jobs : t.jobs = s.jobs
  queue : t.queue = s.queue
  slots : t.slots = s.slots
  runs : t.runs = s.runs
  level : t.level = s.level
  timers : t.timers = s.timers
  handles : t.handles = s.handles
  story : t.story = s.story ++ told

/-- The jobs, the queue and the slots of `t` are those of `s`. -/
structure SameLine (s t : State) : Prop where
  jobs : t.jobs = s.jobs
  queue : t.queue = s.queue
  slots : t.slots = s.slots

theorem SameLine.trans (h : SameLine s t) (h' : SameLine t u) : SameLine s u :=
  ⟨h'.jobs.trans h.jobs, h'.queue.trans h.queue, h'.slots.trans h.slots⟩

theorem Beside.sameLine {told : List Event} (h : Beside s t told) : SameLine s t :=
  ⟨h.jobs, h.queue, h.slots⟩

theorem Beside.refl (s : State) : Beside s s [] :=
  ⟨rfl, rfl, rfl, rfl, rfl, rfl, rfl, (List.append_nil _).symm⟩

theorem Beside.trans {first second : List Event} (h : Beside s t first) (h' : Beside t u second) :
    Beside s u (first ++ second) where
  jobs := h'.jobs.trans h.jobs
  queue := h'.queue.trans h.queue
  slots := h'.slots.trans h.slots
  runs := h'.runs.trans h.runs
  level := h'.level.trans h.level
  timers := h'.timers.trans h.timers
  handles := h'.handles.trans h.handles
  story := by rw [h'.story, h.story, List.append_assoc]

theorem Beside.trans_quiet {told : List Event} (h : Beside s t told) (h' : Beside t u []) :
    Beside s u told := by
  have := h.trans h'
  rwa [List.append_nil] at this

/-- A look at the clock is beside the jobs. -/
theorem look_beside (s : State) : Beside s s.look [] where
  jobs := look_jobs s
  queue := look_queue s
  slots := look_slots s
  runs := look_runs s
  level := look_level s
  timers := look_timers s
  handles := look_handles s
  story := by rw [look_story, List.append_nil]

theorem Beside.emit (s : State) {event : Event} (h : event.isLine = false) :
    Beside s (s.emit event) [event] where
  jobs := rfl
  queue := rfl
  slots := rfl
  runs := rfl
  level := rfl
  timers := rfl
  handles := rfl
  story := by rw [story_emit, h]; rfl

theorem Beside.filterMap {α : Type} {f : Event → Option α} {told : List Event}
    (h : Beside s t told) (hf : ∀ line, f (.logged line) = none) :
    t.events.filterMap f = s.events.filterMap f ++ told.filterMap f := by
  rw [filterMap_events hf, filterMap_events hf, h.story, List.filterMap_append]

/-- A line of a level is written and the clock shows no moment, so the line cannot be made. -/
def Refuses (s : State) (level : Log.Level) : Prop :=
  s.level.shows level = true ∧ Timestamp.text s.clock = .error Timestamp.invalid

theorem Beside.refuses {told : List Event} (h : Beside s t told) (clock : t.clock = s.clock)
    {level : Log.Level} : t.Refuses level ↔ s.Refuses level := by
  unfold Refuses
  rw [h.level, clock]

/-- `t` shows the same moment as `s`, and will show the same moments. -/
structure SameTime (s t : State) : Prop where
  clock : t.clock = s.clock
  lags : t.lags = s.lags

theorem SameTime.refl (s : State) : SameTime s s := ⟨rfl, rfl⟩

theorem SameTime.trans (h : SameTime s t) (h' : SameTime t u) : SameTime s u :=
  ⟨h'.clock.trans h.clock, h'.lags.trans h.lags⟩

theorem SameTime.looks (h : SameTime s t) (count : Nat) :
    SameTime (s.looks count) (t.looks count) := by
  induction count generalizing s t with
  | zero => exact h
  | succ count ih =>
    refine ih ?_
    unfold State.look
    rw [h.lags]
    split
    · exact h
    · exact ⟨congrArg (· + _) h.clock, rfl⟩

theorem SameTime.look (h : SameTime s t) : SameTime s.look t.look := h.looks 1

theorem logged_beside (s : State) (level : Log.Level) (message : String) (data : Value) :
    Beside s (s.logged level message data).1 [] := by
  unfold logged
  split
  · exact Beside.refl s
  · exact Beside.refl s
  · refine ⟨rfl, rfl, rfl, rfl, rfl, rfl, rfl, ?_⟩
    rw [story_emit]
    rfl

theorem logged_sameTime (s : State) (level : Log.Level) (message : String) (data : Value) :
    SameTime s (s.logged level message data).1 := by
  unfold logged
  split <;> exact ⟨rfl, rfl⟩

theorem logged_refused {level : Log.Level} {message : String} {data : Value} {fault : Fault}
    (plain : Log.IsPlain data) (h : (s.logged level message data).2 = some fault) :
    s.Refuses level := by
  unfold logged at h
  split at h
  · next refused => exact Log.line?_eq_error plain refused
  · exact absurd h (by simp)
  · exact absurd h (by simp)

theorem tellHook_beside (s : State) (hookName : String) (hook : Option Hook) (place : Nat)
    (event : Event) (h : event.isLine = false) :
    Beside s (s.tellHook hookName hook place event).1 (Hook.told hook event) := by
  unfold tellHook
  cases hook with
  | none => exact Beside.refl s
  | some hook =>
    change Beside s _ [event]
    simp only
    cases hook.throws place with
    | none => exact Beside.emit s h
    | some thrown => exact (Beside.emit s h).trans_quiet (logged_beside _ _ _ _)

theorem tellHook_sameTime (s : State) (hookName : String) (hook : Option Hook) (place : Nat)
    (event : Event) : SameTime s (s.tellHook hookName hook place event).1 := by
  unfold tellHook
  cases hook with
  | none => exact .refl s
  | some hook =>
    dsimp only
    split
    · exact ⟨rfl, rfl⟩
    · have hlogged := fun data => logged_sameTime (s.emit event) .warn
        (hookName ++ " callback threw") data
      exact ⟨(hlogged _).clock, (hlogged _).lags⟩

/-- A hook only stands in the way of its task when it throws and the warning cannot be written. -/
theorem tellHook_refused {hookName : String} {hook : Option Hook} {place : Nat} {event : Event}
    {fault : Fault} (h : (s.tellHook hookName hook place event).2 = some fault) :
    Hook.throwsAt hook place = true ∧ s.Refuses .warn := by
  unfold tellHook at h
  cases hook with
  | none => exact absurd h (by simp)
  | some hook =>
    cases throws : hook.throws place with
    | none => simp only [throws] at h; exact absurd h (by simp)
    | some thrown =>
      simp only [throws] at h
      refine ⟨by simp [Hook.throwsAt, throws], ?_⟩
      exact logged_refused (s := s.emit event) (Log.isPlain_errorData _) h

/-! ## The end of a body -/

/-- The run of a task keeps the message of its failure, if it has failed. -/
def noteMessage (s : State) (run : Nat) (ending : Ending) : State :=
  s.modifyRun run fun r => { r with failures := r.failures ++ ending.failure?.toList }

theorem noteMessage_eq_self {ending : Ending} (h : ending.failure? = none) (run : Nat) :
    s.noteMessage run ending = s := by
  -- appending no message changes no run
  have hid : (fun r : Run => { r with failures := r.failures ++ ending.failure?.toList }) = id := by
    funext r
    simp [h]
  unfold noteMessage modifyRun
  rw [hid, List.modify_id]

theorem Beside.noteMessage {told : List Event} (h : Beside s t told) {run : Nat} {ending : Ending} :
    Beside (s.noteMessage run ending) (t.noteMessage run ending) told where
  jobs := h.jobs
  queue := h.queue
  slots := h.slots
  runs := by
    unfold State.noteMessage modifyRun
    rw [h.runs]
  level := h.level
  timers := h.timers
  handles := h.handles
  story := h.story

theorem noteFailure_beside (s : State) (run : Nat) (job : Job) (ending : Ending) :
    Beside (s.noteMessage run ending) (s.noteFailure run job ending).1 [] := by
  unfold noteFailure
  cases h : ending.failure? with
  | none => rw [noteMessage_eq_self h]; exact Beside.refl s
  | some message =>
    have hnote : s.noteMessage run ending
        = s.modifyRun run fun r => { r with failures := r.failures ++ [message] } := by
      unfold noteMessage
      rw [h]
      rfl
    rw [hnote]
    exact logged_beside _ _ _ _

theorem noteFailure_sameTime (s : State) (run : Nat) (job : Job) (ending : Ending) :
    SameTime s (s.noteFailure run job ending).1 := by
  unfold noteFailure
  split
  · exact .refl s
  · next message _ =>
    have hnoted := logged_sameTime
      (s.modifyRun run fun r => { r with failures := r.failures ++ [message] }) .debug
      ("Parallel job \"" ++ job.name ++ "\" failed") (Log.errorData (.text message))
    exact ⟨hnoted.clock, hnoted.lags⟩

theorem noteFailure_refused {run : Nat} {job : Job} {ending : Ending} {fault : Fault}
    (h : (s.noteFailure run job ending).2 = some fault) : s.Refuses .debug := by
  unfold noteFailure at h
  split at h
  · exact absurd h (by simp)
  · exact logged_refused (s := s.modifyRun run _) (Log.isPlain_errorData _) h

/-- The end hook of a run. -/
def endHook (s : State) (run : Nat) : Option Hook := (s.runs[run]?).bind (·.hooks.onEnd)

/-- The start hook of a run. -/
def startHook (s : State) (run : Nat) : Option Hook := (s.runs[run]?).bind (·.hooks.onStart)

/-- What the end hook is told about the outcome of a task. -/
def farewell (s : State) (number run : Nat) (job : Job) (outcome : Outcome) : List Event :=
  Hook.told (s.endHook run) (.ended number job.label job.name outcome)

/-- `t` is `s` after the end of a job's body has been noted with a result, the phase of the job
apart. -/
inductive Noted (s : State) (number : Nat) (job : Job) (times : Times) (ending : Ending) :
    State → Result → Prop
  /-- A direct call hands back how its body ended. -/
  | call (direct : job.run? = none) : Noted s number job times ending s (.ofCall times ending)
  /-- The outcome of a task is told to the end hook of its run. -/
  | outcome {run : Nat} {t : State} (task : job.run? = some run)
      (beside : Beside (s.noteMessage run ending) t
        (s.farewell number run job (s.look.outcomeOf job times ending)))
      (time : SameTime s.look t) :
      Noted s number job times ending t (.outcome (s.look.outcomeOf job times ending))
  /-- A line about the end of a task cannot be written. -/
  | crashed {run : Nat} {t : State} {fault : Fault} {told : List Event} (task : job.run? = some run)
      (beside : Beside (s.noteMessage run ending) t told)
      (told_eq : told = [] ∨ told = s.farewell number run job (s.look.outcomeOf job times ending))
      (time : SameTime s.look t) (refused : s.look.Refuses .debug ∨ s.look.Refuses .warn) :
      Noted s number job times ending t (.crashed fault)

theorem Noted.sameLine {number : Nat} {job : Job} {times : Times} {ending : Ending}
    {result : Result} (h : Noted s number job times ending t result) : SameLine s t := by
  -- the message that a run keeps is in the data of the run
  have hnote : ∀ run, SameLine s (s.noteMessage run ending) := fun _ => ⟨rfl, rfl, rfl⟩
  cases h with
  | call => exact ⟨rfl, rfl, rfl⟩
  | outcome _ beside => exact (hnote _).trans beside.sameLine
  | crashed _ beside => exact (hnote _).trans beside.sameLine

theorem wrapUpTask_eq (s : State) {number run : Nat} {job : Job} (task : job.run? = some run)
    (times : Times) (ending : Ending) :
    ∃ t result, s.wrapUpTask number run job times ending = t.place number (.leaving result) ∧
      Noted s number job times ending t result := by
  have hnoted : Beside (s.noteMessage run ending) (s.look.noteFailure run job ending).1 [] :=
    (look_beside s).noteMessage.trans (noteFailure_beside s.look run job ending)
  have htime := noteFailure_sameTime s.look run job ending
  unfold wrapUpTask
  dsimp only
  cases hn : s.look.noteFailure run job ending with
  | mk noted refused =>
    rw [hn] at hnoted htime
    cases refused with
    | some fault =>
      -- the line about the failure is refused, so the hook is never told
      refine ⟨noted, _, rfl, Noted.crashed task hnoted (Or.inl rfl) htime (Or.inl ?_)⟩
      exact noteFailure_refused (congrArg Prod.snd hn)
    | none =>
      have htold := tellHook_beside noted "onTaskEnd" (s.endHook run) job.place
        (.ended number job.label job.name (s.look.outcomeOf job times ending)) rfl
      have hbeside := hnoted.trans htold
      have hlater := htime.trans (tellHook_sameTime noted "onTaskEnd" (s.endHook run) job.place
        (.ended number job.label job.name (s.look.outcomeOf job times ending)))
      rw [List.nil_append] at hbeside
      rw [show (s.look.runs[run]?).bind (·.hooks.onEnd) = s.endHook run by rw [look_runs]; rfl]
      dsimp only
      split
      · next told hh =>
        rw [hh] at hbeside hlater
        exact ⟨told, _, rfl, Noted.outcome task hbeside hlater⟩
      · -- the hook is told and throws, and the warning about that is refused
        next told fault hh =>
        rw [hh] at hbeside hlater
        refine ⟨told, _, rfl, Noted.crashed task hbeside (Or.inr rfl) hlater (Or.inr ?_)⟩
        have hlevel : noted.level = s.look.level := hnoted.level.trans (look_level s).symm
        obtain ⟨hshows, hinvalid⟩ := (tellHook_refused (congrArg Prod.snd hh)).2
        exact ⟨hlevel ▸ hshows, htime.clock ▸ hinvalid⟩

/-- **The end of a body.** It is noted, and the job is placed among those that are leaving. -/
theorem wrapUp_eq (s : State) (number : Nat) (job : Job) (times : Times) (ending : Ending) :
    ∃ t result, s.wrapUp number job times ending = t.place number (.leaving result) ∧
      Noted s number job times ending t result := by
  unfold wrapUp
  cases h : job.run? with
  | some run => exact wrapUpTask_eq s h times ending
  | none => exact ⟨s, _, rfl, Noted.call h⟩

end State

end BoundedJobs
