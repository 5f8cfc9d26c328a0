import BoundedJobs.Proofs.Runner.Children
import BoundedJobs.Proofs.Runner.Outline
import BoundedJobs.Proofs.Runner.Slots

/-!
# Reports and signals

What a stimulus has to do with child processes: a child reports, or a run is aborted and the
children of its commands are sent a signal.

* `State.report?` — what a job hears from its child when a stimulus arrives. Nothing else moves the
  job of a command on (`Sound.receive_command`);
* `State.abortedRun?` — the run that a stimulus aborts;
* `State.Sends` — what stimuli do about children: they ask for none, and send `SIGTERM` to those of
  the run they abort that have not been heard from (`receive_sends`).
-/

namespace BoundedJobs

/-- The phase of a command that hears from its child: a body that is running settles. -/
def Phase.hear (phase : Phase) (line : String) (report : Option ChildReport) : Phase :=
  match phase, report with
  | .running times, some report => .settled times (report.ending line).effective
  | phase, _ => phase

/-- The signal that asks the child of a job to end. -/
def Sent.toEnd (job : Nat) : Sent := { job, signal := "SIGTERM" }

namespace State

variable {s t u : State} {number : Nat} {job : Job} {line : String} {quiet : Bool}

/-! ## Ends from outside -/

/-- What sounds when a stimulus arrives. -/
def alarm? (s : State) : Stimulus → Option Alarm
  | .abort run => some (.abort run)
  | .report job report => some (.child job report)
  | .fire place => (s.timers[place]?).map (·.alarm)
  | _ => none

/-- What a job hears from its child when a stimulus arrives. -/
def report? (s : State) (number : Nat) (stimulus : Stimulus) : Option ChildReport :=
  match s.alarm? stimulus with
  | some (.child job report) => if job = number then some report else none
  | _ => none

/-- The run that a stimulus aborts: only the first abort of a run that has a signal means
anything. -/
def abortedRun? (s : State) (stimulus : Stimulus) : Option Nat :=
  match s.alarm? stimulus with
  | some (.abort run) => if s.signals[run]? = some .armed then some run else none
  | _ => none

/-- Whether a job is a command that is running. -/
def isLive (s : State) (number : Nat) : Bool :=
  (s.jobs[number]?).any fun job => job.phase.isRunning && job.body.line?.isSome

/-- The jobs whose children are sent a signal when a stimulus arrives. -/
def sentTo (s : State) (stimulus : Stimulus) : List Nat :=
  match s.abortedRun? stimulus with
  | some run => ((s.jobsOf run).map (·.1)).filter s.isLive
  | none => []

/-- Between `s` and `t` the children of some jobs have been asked to end, and no child has been
asked for. -/
structure Sends (s t : State) (sent : List Nat) : Prop where
  spawned : t.spawned = s.spawned
  signalled : t.signalled = s.signalled ++ sent.map Sent.toEnd
  shell : t.shell = s.shell

theorem Asks.sends (h : Asks s t []) : Sends s t [] :=
  ⟨h.spawned.trans (List.append_nil _), h.signalled.trans (List.append_nil _).symm, h.shell⟩

theorem Sends.trans {first second : List Nat} (h : Sends s t first) (h' : Sends t u second) :
    Sends s u (first ++ second) where
  spawned := h'.spawned.trans h.spawned
  signalled := by rw [h'.signalled, h.signalled, List.append_assoc, List.map_append]
  shell := h'.shell.trans h.shell

theorem settleJob_asks (s : State) (number : Nat) (ending : Ending) :
    Asks s (s.settleJob number ending) [] := by
  unfold settleJob
  simp only [settle_eq_place]
  split
  · exact .none rfl rfl rfl rfl
  · split <;> exact .none rfl rfl rfl rfl

theorem childReports_asks (s : State) (number : Nat) (report : ChildReport) :
    Asks s (s.childReports number report) [] := by
  unfold childReports
  split
  · exact .none rfl rfl rfl rfl
  · split
    · exact settleJob_asks s number _
    · exact .none rfl rfl rfl rfl

theorem tellBody_asks (s : State) (number : Nat) (ending : Ending) :
    Asks s (s.tellBody number ending) [] := by
  unfold tellBody
  split
  · have htold : Asks s { s with handles := s.handles.erase number } [] := .none rfl rfl rfl rfl
    exact htold.then (settleJob_asks _ _ _)
  · exact .none rfl rfl rfl rfl

theorem submitJob_asks (s : State) (job : Job) : Asks s (s.submitJob job) [] := by
  unfold submitJob
  simp only
  split <;> exact .none rfl rfl rfl rfl

theorem submit_sends (s : State) (request : Request) : Sends s (s.submit request) [] := by
  have hopened : Sends s (s.opened request) [] := by
    rw [opened_eq]
    exact ⟨rfl, (List.append_nil _).symm, rfl⟩
  rw [submit_eq]
  split
  · exact hopened.trans ⟨rfl, (List.append_nil _).symm, rfl⟩
  · refine hopened.trans ?_
    generalize s.opened request = t
    induction s.newcomers (.settle request) generalizing t with
    | nil => exact ⟨rfl, (List.append_nil _).symm, rfl⟩
    | cons job jobs ih => exact (submitJob_asks t job).sends.trans (ih (t.submitJob job))

/-! ## Aborts -/

theorem isLive_of_job (hj : s.jobs[number]? = some job) :
    s.isLive number = (job.phase.isRunning && job.body.line?.isSome) := by
  unfold isLive
  rw [hj]
  rfl

theorem isLive_congr (jobs : t.jobs = s.jobs) : t.isLive = s.isLive := by
  funext i
  unfold isLive
  rw [jobs]

/-- The abort of its run leaves the job of a command where it is, and one without a command does
not count. -/
theorem abortJob_isLive (s : State) (number : Nat) : (s.abortJob number).isLive = s.isLive := by
  unfold abortJob
  simp only [settle_eq_place]
  split
  · rfl
  · next job hj =>
    split
    · exact isLive_congr (kill_aside s number _ _).jobs
    · -- a body that answers the abort is settled by it, but it is no command
      next times body hp hb =>
      split
      · next ending he =>
        funext i
        unfold isLive
        change ((s.jobs.modify number _)[i]?).any _ = _
        by_cases heq : i = number
        · subst heq
          rw [List.getElem?_modify_eq, hj]
          have hline : job.body.line? = none := by
            cases hbody : job.body <;> first | rfl | exact absurd hbody (hb _ _)
          change (_ && job.body.line?.isSome) = (job.phase.isRunning && job.body.line?.isSome)
          rw [hline]
          exact (Bool.and_false _).trans (Bool.and_false _).symm
        · rw [List.getElem?_modify_ne _ _ (Ne.symm heq)]
      · rfl
    · rfl

theorem abortJob_sends (s : State) (number : Nat) :
    Sends s (s.abortJob number) ([number].filter s.isLive) := by
  -- what is not live is sent nothing
  have hnone : s.isLive number = false → Sends s s ([number].filter s.isLive) := by
    intro hdead
    rw [List.filter_cons_of_neg (by rw [hdead]; simp)]
    exact ⟨rfl, (List.append_nil _).symm, rfl⟩
  unfold abortJob
  simp only [settle_eq_place]
  split
  · next hnojob =>
    refine hnone ?_
    unfold isLive
    rw [hnojob]
    rfl
  · next job hj =>
    have hlive := isLive_of_job hj
    split
    · next line quiet hp hb =>
      rw [hp, hb] at hlive
      rw [List.filter_cons_of_pos (by rw [hlive]; rfl)]
      -- the signal is sent once, whether or not the child answers it at once
      unfold kill
      simp only
      split <;> exact ⟨rfl, rfl, rfl⟩
    · next times body hp hb =>
      have hdead : s.isLive number = false := by
        rw [hlive]
        cases hbody : job.body <;> first | exact Bool.and_false _ | exact absurd hbody (hb _ _)
      split
      · obtain ⟨spawned, signalled, shell⟩ := hnone hdead
        exact ⟨spawned, signalled, shell⟩
      · exact hnone hdead
    · next hp _ =>
      refine hnone ?_
      rw [hlive]
      cases hphase : job.phase with
      | running times => exact absurd hphase (hp times)
      | waiting | granted | settled | leaving | finished => rfl

theorem abortJob_runs (s : State) (number : Nat) : (s.abortJob number).runs = s.runs := by
  unfold abortJob
  simp only [settle_eq_place]
  split
  · rfl
  · split
    · unfold kill
      simp only
      split <;> rfl
    · split <;> rfl
    · rfl

theorem foldl_abortJob_runs (numbers : List Nat) (s : State) :
    (numbers.foldl abortJob s).runs = s.runs := by
  induction numbers generalizing s with
  | nil => rfl
  | cons number numbers ih => exact (ih _).trans (abortJob_runs s number)

theorem foldl_abortJob_sends (numbers : List Nat) (s : State) :
    Sends s (numbers.foldl abortJob s) (numbers.filter s.isLive) := by
  induction numbers generalizing s with
  | nil => exact ⟨rfl, (List.append_nil _).symm, rfl⟩
  | cons number numbers ih =>
    have hrest := ih (s.abortJob number)
    rw [abortJob_isLive] at hrest
    have hall := (abortJob_sends s number).trans hrest
    rw [← List.filter_append] at hall
    exact hall

/-- An abort sends a signal to the commands of the run that are running, and marks the run. -/
theorem abort_sends (s : State) (run : Nat) :
    Sends s (s.abort run)
      (if s.signals[run]? = some .armed then ((s.jobsOf run).map (·.1)).filter s.isLive
       else []) := by
  have hsignal : s.signals[run]? = (s.runs[run]?).map (·.signal) := List.getElem?_map
  unfold abort
  split
  · next r hr =>
    rw [hsignal, hr, Option.map_some]
    -- a signal that is not armed has been used, or was never given
    by_cases harmed : r.signal = .armed
    · rw [if_pos harmed, if_pos (congrArg some harmed)]
      have hmarked : Sends s (s.modifyRun run fun r => { r with signal := .aborted }) [] :=
        ⟨rfl, (List.append_nil _).symm, rfl⟩
      exact hmarked.trans (foldl_abortJob_sends _ _)
    · rw [if_neg harmed, if_neg (mt Option.some.inj harmed)]
      exact ⟨rfl, (List.append_nil _).symm, rfl⟩
  · next hr =>
    rw [hsignal, hr]
    exact ⟨rfl, (List.append_nil _).symm, rfl⟩

theorem abort_signals (s : State) (run i : Nat) :
    (s.abort run).signals[i]?
      = if i = run ∧ s.signals[run]? = some .armed then some .aborted else s.signals[i]? := by
  have hsignal : s.signals[run]? = (s.runs[run]?).map (·.signal) := List.getElem?_map
  unfold abort
  split
  · next r hr =>
    -- a signal that is not armed is either absent or has been used
    by_cases harmed : r.signal = .armed
    · rw [if_pos harmed]
      -- telling the jobs one by one leaves the runs alone
      have hruns : ∀ t : State,
          t.runs = s.runs.modify run (fun r => { r with signal := .aborted }) →
          t.signals[i]? = if i = run ∧ s.signals[run]? = some .armed then some .aborted
            else s.signals[i]? := by
        intro t ht
        unfold signals
        rw [ht]
        simp only [List.getElem?_map, List.getElem?_modify, hr, Option.map_some, harmed, and_true]
        by_cases heq : i = run
        · subst heq
          rw [if_pos rfl, hr]
          simp
        · rw [if_neg heq]
          simp [Ne.symm heq]
      exact hruns _ (foldl_abortJob_runs _ _)
    · rw [if_neg harmed, if_neg]
      rintro ⟨-, hsome⟩
      rw [hsignal, hr] at hsome
      exact harmed (Option.some.inj hsome)
  · next hr =>
    rw [if_neg]
    rintro ⟨-, hsome⟩
    rw [hsignal, hr] at hsome
    exact absurd hsome (by simp)

/-! ## Stimuli -/

/-- A stimulus is a submission, an end that a body is told, something beside the jobs, or the sound
of an alarm in a state that differs from the first in nothing that matters to children. -/
inductive Sounded (s : State) (stimulus : Stimulus) : Prop
  | submitted (request : Request) (eq : stimulus = .settle request)
  | called (label : String) (body : Body) (relayed : Bool)
      (eq : stimulus = .call label body relayed)
  | told (number : Nat) (ending : Ending) (eq : stimulus = .finish number ending)
  | beside (silent : s.alarm? stimulus = none) (jobs : (s.receive stimulus).jobs = s.jobs)
      (runs : (s.receive stimulus).runs = s.runs) (asks : Asks s (s.receive stimulus) [])
  | alarm {u : State} {alarm : Alarm} (sounds : s.alarm? stimulus = some alarm)
      (jobs : u.jobs = s.jobs) (runs : u.runs = s.runs) (asks : Asks s u [])
      (receive : s.receive stimulus = u.sound alarm)

theorem sounded (s : State) (stimulus : Stimulus) : Sounded s stimulus := by
  cases stimulus with
  | settle request => exact .submitted request rfl
  | call label body relayed => exact .called label body relayed rfl
  | finish number ending => exact .told number ending rfl
  | abort run => exact .alarm rfl rfl rfl (.none rfl rfl rfl rfl) rfl
  | report number report => exact .alarm rfl rfl rfl (.none rfl rfl rfl rfl) rfl
  | setLevel level => exact .beside rfl rfl rfl (.none rfl rfl rfl rfl)
  | setClock clock => exact .beside rfl rfl rfl (.none rfl rfl rfl rfl)
  | setLags lags => exact .beside rfl rfl rfl (.none rfl rfl rfl rfl)
  | fire place =>
    -- a timer that is gone does nothing
    cases htimer : s.timers[place]? with
    | none =>
      have hfire : s.receive (.fire place) = s := by
        change s.fire place = s
        unfold fire
        rw [htimer]
      refine .beside (congrArg (Option.map Timer.alarm) htimer) ?_ ?_ ?_ <;> rw [hfire]
      exact .none rfl rfl rfl rfl
    | some timer =>
      refine .alarm (u := { s with
          clock := s.clock.max timer.due
          timers := s.timers.eraseIdx place }) (congrArg (Option.map Timer.alarm) htimer) rfl rfl
        (.none rfl rfl rfl rfl) ?_
      change s.fire place = _
      unfold fire
      rw [htimer]

/-- An alarm that ends a body is that of a timer. -/
theorem exists_timer {stimulus : Stimulus} {number : Nat} {ending : Ending}
    (sounds : s.alarm? stimulus = some (.settle number ending)) :
    ∃ timer ∈ s.timers, timer.alarm = .settle number ending := by
  cases stimulus with
  | fire place =>
    obtain ⟨timer, htimer, halarm⟩ := Option.map_eq_some_iff.mp sounds
    exact ⟨timer, List.mem_of_getElem? htimer, halarm⟩
  | settle | call | finish | setLevel | setClock | setLags => exact absurd sounds (by simp [alarm?])
  | abort | report => exact absurd (Option.some.inj sounds) (by simp)

theorem abortedRun?_of_silent {stimulus : Stimulus} (silent : s.alarm? stimulus = none) :
    s.abortedRun? stimulus = none := by
  unfold abortedRun?
  rw [silent]

theorem sentTo_of_unaborted {stimulus : Stimulus} (unaborted : s.abortedRun? stimulus = none) :
    s.sentTo stimulus = [] := by
  unfold sentTo
  rw [unaborted]

theorem abortedRun?_of_abort {stimulus : Stimulus} {run : Nat}
    (sounds : s.alarm? stimulus = some (.abort run)) :
    s.abortedRun? stimulus = if s.signals[run]? = some .armed then some run else none := by
  unfold abortedRun?
  rw [sounds]

theorem abortedRun?_of_other {stimulus : Stimulus} {alarm : Alarm}
    (sounds : s.alarm? stimulus = some alarm) (other : ∀ run, alarm ≠ .abort run) :
    s.abortedRun? stimulus = none := by
  unfold abortedRun?
  rw [sounds]
  split
  · next heq => exact absurd (Option.some.inj heq) (other _)
  · rfl

theorem submitCall_asks (s : State) (label : String) (body : Body) (relayed : Bool) :
    Asks s (s.submitCall label body relayed) [] :=
  (look_asks s).then (submitJob_asks s.look _)

/-- **A stimulus asks for no child.** It sends `SIGTERM` to the children of the run that it aborts,
to those that have not been heard from, and to no others. -/
theorem receive_sends (s : State) (stimulus : Stimulus) :
    Sends s (s.receive stimulus) (s.sentTo stimulus) := by
  -- all stimuli but one abort no run
  have hquiet : s.abortedRun? stimulus = none → Sends s (s.receive stimulus) [] →
      Sends s (s.receive stimulus) (s.sentTo stimulus) := by
    intro hnone h
    rw [sentTo_of_unaborted hnone]
    exact h
  cases sounded s stimulus with
  | submitted request eq => subst eq; exact submit_sends s request
  | called label body relayed eq => subst eq; exact (submitCall_asks s label body relayed).sends
  | told number ending eq => subst eq; exact (tellBody_asks s number ending).sends
  | beside silent _ _ asks => exact hquiet (abortedRun?_of_silent silent) asks.sends
  | @alarm u alarm sounds jobs runs asks receive =>
    cases alarm with
    | settle number ending =>
      refine hquiet (abortedRun?_of_other sounds fun run => by simp) ?_
      rw [receive]
      exact (asks.then (settleJob_asks u number ending)).sends
    | child number report =>
      refine hquiet (abortedRun?_of_other sounds fun run => by simp) ?_
      rw [receive]
      exact (asks.then (childReports_asks u number report)).sends
    -- the alarm acts on the state without the timer, in which the same jobs are live
    | abort run =>
      have habort := asks.sends.trans (abort_sends u run)
      have hjobsOf : u.jobsOf run = s.jobsOf run := by
        unfold jobsOf
        rw [jobs]
      rw [asks.signals, hjobsOf, isLive_congr jobs] at habort
      rw [receive]
      unfold sentTo
      rw [abortedRun?_of_abort sounds]
      split at habort
      · next harmed => rw [if_pos harmed]; exact habort
      · next hnot => rw [if_neg hnot]; exact habort

/-- The children of a job are asked for by work, and not by what arrives. -/
theorem receive_children (s : State) (stimulus : Stimulus) (number : Nat) :
    (s.receive stimulus).children number = s.children number := by
  unfold children
  rw [(receive_sends s stimulus).spawned]

theorem settleJob_job {other : Nat} (ne : other ≠ number) (s : State) (ending : Ending) :
    (s.settleJob other ending).jobs[number]? = s.jobs[number]? := by
  unfold settleJob
  simp only [settle_eq_place]
  split
  · rfl
  · split
    · exact List.getElem?_modify_ne _ _ ne
    · rfl

theorem childReports_phase (hj : s.jobs[number]? = some job) (task : job.run? ≠ none)
    (body : job.body = .command line quiet) (other : Nat) (report : ChildReport) :
    (s.childReports other report).phase? number
      = some (job.phase.hear line (if other = number then some report else none)) := by
  have hold := phase?_of_job hj
  -- a report is heard by the job of its child, and only while this is running
  by_cases heq : other = number
  · subst heq
    rw [if_pos rfl]
    unfold childReports
    simp only [hj, body]
    unfold settleJob
    simp only [hj, settle_eq_place, ended_of_run? task]
    cases hp : job.phase with
    | running times => exact phase?_place hj _
    | waiting | granted | settled | leaving | finished => exact hold.trans (congrArg some hp)
  · rw [if_neg heq]
    have hnone : job.phase.hear line none = job.phase := by
      cases job.phase <;> rfl
    rw [hnone, ← hold]
    refine congrArg (Option.map Job.phase) ?_
    unfold childReports
    split
    · rfl
    · split
      · exact settleJob_job heq s _
      · rfl

theorem abortJob_job (hj : s.jobs[number]? = some job) (body : job.body = .command line quiet)
    (other : Nat) : (s.abortJob other).jobs[number]? = some job := by
  unfold abortJob
  simp only [settle_eq_place]
  split
  · exact hj
  · next old hother =>
    split
    · rw [(kill_aside s other _ _).jobs]
      exact hj
    · next times _ hp hb =>
      split
      · refine (List.getElem?_modify_ne _ _ ?_).trans hj
        -- the job that has answered the abort is no command, so it is another one
        rintro rfl
        obtain rfl := Option.some.inj (hj.symm.trans hother)
        exact hb line quiet body
      · exact hj
    · exact hj

theorem abort_job (hj : s.jobs[number]? = some job) (body : job.body = .command line quiet)
    (run : Nat) : (s.abort run).jobs[number]? = some job := by
  have hfold : ∀ (numbers : List Nat) (t : State), t.jobs[number]? = some job →
      (numbers.foldl abortJob t).jobs[number]? = some job := by
    intro numbers
    induction numbers with
    | nil => exact fun t ht => ht
    | cons other numbers ih => exact fun t ht => ih _ (abortJob_job ht body other)
  unfold abort
  split
  · split
    · exact hfold _ _ hj
    · exact hj
  · exact hj

theorem submitJob_job (hj : s.jobs[number]? = some job) (new : Job) :
    (s.submitJob new).jobs[number]? = some job := by
  obtain ⟨phase, hjobs, -⟩ := submitJob_jobs s new
  rw [hjobs, List.getElem?_append_left (List.getElem?_eq_some_iff.mp hj).1]
  exact hj

theorem submit_job (hj : s.jobs[number]? = some job) (request : Request) :
    (s.submit request).jobs[number]? = some job := by
  have hopened : (s.opened request).jobs[number]? = some job := by
    rw [opened_eq]
    exact hj
  rw [submit_eq]
  split
  · exact hopened
  · -- newcomers stand behind all others
    generalize s.opened request = t at hopened
    induction s.newcomers (.settle request) generalizing t with
    | nil => exact hopened
    | cons new jobs ih => exact ih _ (submitJob_job hopened new)

/-- **Nothing that arrives moves the job of a command on but the report of its child.** -/
theorem Sound.receive_command (h : Sound s) (hj : s.jobs[number]? = some job)
    (task : job.run? ≠ none) (body : job.body = .command line quiet) (stimulus : Stimulus) :
    (s.receive stimulus).phase? number
      = some (job.phase.hear line (s.report? number stimulus)) := by
  have hbody : s.body? number = some (.command line quiet) := by
    unfold body?
    rw [hj, ← body]
    rfl
  have hsame : s.report? number stimulus = none →
      (s.receive stimulus).jobs[number]? = some job →
      (s.receive stimulus).phase? number
        = some (job.phase.hear line (s.report? number stimulus)) := by
    intro hnone hjob
    rw [hnone, phase?_of_job hjob]
    cases job.phase <;> rfl
  cases sounded s stimulus with
  | submitted request eq => subst eq; exact hsame rfl (submit_job hj request)
  | called label own relayed eq =>
    subst eq
    exact hsame rfl (submitJob_job (s := s.look) (by rw [look_jobs]; exact hj) _)
  | told other ending eq =>
    subst eq
    refine hsame rfl ?_
    change (s.tellBody other ending).jobs[number]? = _
    unfold tellBody
    split
    · next hmem =>
      -- whoever is told to end is no command
      refine (settleJob_job ?_ _ ending).trans hj
      rintro rfl
      obtain ⟨onAbort, hmanual⟩ := h.handles other hmem
      exact absurd (hbody.symm.trans hmanual) (by simp)
    · exact hj
  | beside silent jobs =>
    refine hsame ?_ (jobs ▸ hj)
    unfold report?
    rw [silent]
  | @alarm u alarm sounds jobs runs asks receive =>
    have hju : u.jobs[number]? = some job := jobs ▸ hj
    cases alarm with
    | settle other ending =>
      refine hsame ?_ ?_
      · unfold report?
        rw [sounds]
      · rw [receive]
        refine (settleJob_job ?_ u ending).trans hju
        rintro rfl
        obtain ⟨timer, hmem, halarm⟩ := exists_timer sounds
        obtain ⟨delay, onAbort, htimed⟩ := h.timers timer hmem other ending halarm
        exact absurd (hbody.symm.trans htimed) (by simp)
    | child other report =>
      unfold report?
      rw [sounds, receive]
      exact childReports_phase hju task body other report
    | abort run =>
      refine hsame ?_ ?_
      · unfold report?
        rw [sounds]
      · rw [receive]
        exact abort_job hju body run

end State

end BoundedJobs
