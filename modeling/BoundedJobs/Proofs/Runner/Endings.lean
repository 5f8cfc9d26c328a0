import BoundedJobs.Proofs.Runner.Crew

/-!
# How bodies end

The body of a job settles as the body itself says: with its own ending at once or when its timer
fires, with the ending it has for an abort, as it is told to, or as its child does. The timers and
handles that end bodies belong to the jobs whose bodies they end, at every moment (`State.Sound`).
-/

namespace BoundedJobs

/-- What the phase of a job says about its body. -/
def Phase.Suits (phase : Phase) (body : Body) : Prop :=
  match phase with
  | running _ => body.lasts = true
  | settled _ ending => body.Allows ending
  | _ => True

namespace State

variable {s t origin : State} {number : Nat} {job : Job} {capacity begun admitted : Nat}

/-- The body of a job, if there is such a job. -/
def body? (s : State) (number : Nat) : Option Body := (s.jobs[number]?).map (·.body)

theorem suits_ended {ending : Ending} (h : job.body.Allows ending) (times : Times) :
    (job.ended times ending).Suits job.body := by
  unfold Job.ended
  split
  · exact h
  · trivial

/-- Every phase suits its body, and timers and handles are those of the bodies they end. -/
structure Sound (s : State) : Prop where
  suits : ∀ (number : Nat) (job : Job), s.jobs[number]? = some job → job.phase.Suits job.body
  timers : ∀ timer ∈ s.timers, ∀ number ending, timer.alarm = .settle number ending →
    ∃ delay onAbort, s.body? number = some (.timed delay ending onAbort)
  handles : ∀ number ∈ s.handles, ∃ onAbort, s.body? number = some (.manual onAbort)

/-- Every body is still there. -/
def Keeps (s t : State) : Prop :=
  ∀ number body, s.body? number = some body → t.body? number = some body

theorem keeps_of_unphased {more : List Job}
    (h : t.jobs.map Job.unphased = s.jobs.map Job.unphased ++ more) : Keeps s t := by
  intro number body hbody
  obtain ⟨job, hj, rfl⟩ := Option.map_eq_some_iff.mp hbody
  obtain ⟨job', hj', hsame⟩ := exists_job_after h hj
  exact Option.map_eq_some_iff.mpr ⟨job', hj', (congrArg Job.body hsame :)⟩

theorem keeps_of_jobs (h : t.jobs = s.jobs) : Keeps s t := by
  intro number body hbody
  unfold body?
  rw [h]
  exact hbody

theorem keeps_place (s : State) (number : Nat) (phase : Phase) : Keeps s (s.place number phase) :=
  keeps_of_unphased ((place_unphased s number phase).trans (List.append_nil _).symm)

/-- Bodies stay, and neither timers nor handles come in that end them. -/
theorem Sound.timers_of_keeps (h : Sound s) (keeps : Keeps s t)
    (timers : ∀ timer ∈ t.timers,
      timer ∈ s.timers ∨ ∃ job report, timer.alarm = .child job report) :
    ∀ timer ∈ t.timers, ∀ number ending, timer.alarm = .settle number ending →
      ∃ delay onAbort, t.body? number = some (.timed delay ending onAbort) := by
  intro timer hmem number ending halarm
  rcases timers timer hmem with hold | ⟨job, report, hchild⟩
  · obtain ⟨delay, onAbort, hbody⟩ := h.timers timer hold number ending halarm
    exact ⟨delay, onAbort, keeps number _ hbody⟩
  · exact absurd (halarm.symm.trans hchild) (by simp)

theorem Sound.handles_of_keeps (h : Sound s) (keeps : Keeps s t)
    (handles : ∀ number ∈ t.handles, number ∈ s.handles) :
    ∀ number ∈ t.handles, ∃ onAbort, t.body? number = some (.manual onAbort) := by
  intro number hmem
  obtain ⟨onAbort, hbody⟩ := h.handles number (handles number hmem)
  exact ⟨onAbort, keeps number _ hbody⟩

theorem Sound.congr (h : Sound s) (jobs : t.jobs = s.jobs) (timers : t.timers = s.timers)
    (handles : t.handles = s.handles) : Sound t where
  suits := by rw [jobs]; exact h.suits
  timers := h.timers_of_keeps (keeps_of_jobs jobs) fun timer hmem => Or.inl (timers ▸ hmem)
  handles := h.handles_of_keeps (keeps_of_jobs jobs) fun number hmem => handles ▸ hmem

theorem Beside.sound {told : List Event} (h : Beside s t told) (hs : Sound s) : Sound t :=
  hs.congr h.jobs h.timers h.handles

/-- A job moves on to a phase that suits its body. -/
theorem Sound.place (h : Sound s) {phase : Phase}
    (suits : ∀ job, s.jobs[number]? = some job → phase.Suits job.body) :
    Sound (s.place number phase) where
  suits := by
    intro i job hj
    rcases getElem?_modify_cases hj with ⟨rfl, old, hold, rfl⟩ | ⟨-, hj⟩
    · exact suits old hold
    · exact h.suits i job hj
  timers := h.timers_of_keeps (keeps_place s number phase) fun _ hmem => Or.inl hmem
  handles := h.handles_of_keeps (keeps_place s number phase) fun _ hmem => hmem

/-! ## Stimuli -/

/-- What makes a body settle is allowed by the body. -/
theorem Cause.allows {body : Body} {ending : Ending} (h : Cause origin number body ending)
    (sound : Sound origin) (same : ∀ own, origin.body? number = some own → own = body) :
    body.Allows ending.effective := by
  cases h with
  | @alarm timer ending mem alarm =>
    obtain ⟨delay, onAbort, hbody⟩ := sound.timers timer mem number ending alarm
    rw [← same _ hbody]
    exact Or.inl rfl
  | told mem =>
    obtain ⟨onAbort, hbody⟩ := sound.handles number mem
    rw [← same _ hbody]
    trivial
  | early early => exact Body.allows_early early
  | child command =>
    rw [command]
    trivial

theorem Nudge.sound (h : Nudge origin s t) (sound : Sound origin) (keeps : Keeps origin s)
    (hs : Sound s) : Sound t := by
  cases h with
  | aside ha =>
    refine ⟨?_, ?_, ?_⟩
    · rw [ha.jobs]
      exact hs.suits
    · exact hs.timers_of_keeps (keeps_of_jobs ha.jobs) ha.timers
    · exact hs.handles_of_keeps (keeps_of_jobs ha.jobs) ha.handles
  | @settled number job times ending job_eq running cause =>
    refine hs.place fun other hother => ?_
    obtain rfl := Option.some.inj (job_eq.symm.trans hother)
    refine suits_ended (cause.allows sound fun own hown => ?_) times
    -- the body is the one that was there when the stimulus arrived
    have hbody := keeps number own hown
    unfold body? at hbody
    rw [job_eq] at hbody
    exact (Option.some.inj hbody).symm

theorem submitJob_sound (h : Sound s) (job : Job) : Sound (s.submitJob job) := by
  have hkeeps : Keeps s (s.submitJob job) := keeps_of_unphased (submitJob_unphased s job)
  have htimers : (s.submitJob job).timers = s.timers ∧ (s.submitJob job).handles = s.handles := by
    unfold submitJob
    simp only
    split <;> exact ⟨rfl, rfl⟩
  refine ⟨?_, h.timers_of_keeps hkeeps ?_, h.handles_of_keeps hkeeps ?_⟩
  · obtain ⟨phase, hjobs, hphase⟩ := submitJob_jobs s job
    -- a job that has not begun suits any body
    have hsuits : phase.Suits job.body := by
      rcases hphase with rfl | rfl <;> trivial
    intro i other hother
    rw [hjobs] at hother
    rcases getElem?_concat_cases hother with ⟨-, hother⟩ | ⟨-, rfl⟩
    · exact h.suits i other hother
    · exact hsuits
  · exact fun timer hmem => Or.inl (htimers.1 ▸ hmem)
  · exact fun number hmem => htimers.2 ▸ hmem

theorem Sound.receive (h : Sound s) (stimulus : Stimulus) : Sound (s.receive stimulus) := by
  -- a timer that fires was made at the origin, so the bodies of the origin have to be kept too
  refine (receive_induction (P := fun t => Sound t ∧ Keeps s t) ?_ ⟨h, fun _ _ hb => hb⟩
    stimulus).1
  rintro t u step ⟨ht, hkeeps⟩
  cases step with
  | nudged nudge =>
    refine ⟨nudge.sound h hkeeps ht, fun number body hbody => ?_⟩
    exact keeps_of_unphased (nudge.unphased.trans (List.append_nil _).symm) _ _
      (hkeeps number body hbody)
  | opened | concluding => exact ⟨ht.congr rfl rfl rfl, hkeeps⟩
  | submitted =>
    refine ⟨submitJob_sound ht _, fun number body hbody => ?_⟩
    exact keeps_of_unphased (submitJob_unphased t _) _ _ (hkeeps number body hbody)

/-! ## Ticks -/

theorem Noted.sound {times : Times} {ending : Ending} {result : Result}
    (h : Noted s number job times ending t result) (hs : Sound s) : Sound t := by
  cases h with
  | call => exact hs
  | outcome _ beside => exact beside.sound (hs.congr rfl rfl rfl)
  | crashed _ beside => exact beside.sound (hs.congr rfl rfl rfl)

/-- What a body that goes on is ended by is the body's own. -/
theorem arm_sound (h : Sound s) (hj : s.jobs[number]? = some job) :
    Sound (s.arm number job.body) := by
  have hbody : s.body? number = some job.body := by
    unfold body?
    rw [hj]
    rfl
  have hkeeps : Keeps s (s.arm number job.body) := keeps_of_jobs (arm_sameLine _ _ _).jobs
  refine ⟨?_, ?_, ?_⟩
  · rw [(arm_sameLine _ _ _).jobs]
    exact h.suits
  · -- only a body with a timer of its own brings one that ends a body
    cases hb : job.body with
    | timed delay ending onAbort =>
      rw [hb] at hbody hkeeps
      intro timer hmem i other halarm
      rcases List.mem_append.mp hmem with hold | hnew
      · obtain ⟨delay', onAbort', htimed⟩ := h.timers timer hold i other halarm
        exact ⟨delay', onAbort', hkeeps i _ htimed⟩
      · rw [List.mem_singleton.mp hnew] at halarm
        obtain ⟨rfl, rfl⟩ := Alarm.settle.inj halarm
        exact ⟨delay, onAbort, hkeeps number _ hbody⟩
    | command line quiet =>
      rw [hb] at hkeeps
      refine h.timers_of_keeps hkeeps fun timer hmem => ?_
      rcases List.mem_append.mp hmem with hold | hnew
      · exact Or.inl hold
      · rw [List.mem_singleton.mp hnew]
        exact Or.inr ⟨number, _, rfl⟩
    | immediate | prompt | manual =>
      rw [hb] at hkeeps
      exact h.timers_of_keeps hkeeps fun timer hmem => Or.inl hmem
  · -- and only a body that is told to end brings a handle
    cases hb : job.body with
    | manual onAbort =>
      rw [hb] at hbody hkeeps
      intro i hmem
      rcases List.mem_append.mp hmem with hold | hnew
      · obtain ⟨onAbort', hmanual⟩ := h.handles i hold
        exact ⟨onAbort', hkeeps i _ hmanual⟩
      · rw [List.mem_singleton.mp hnew]
        exact ⟨onAbort, hkeeps number _ hbody⟩
    | immediate | prompt | timed | command =>
      rw [hb] at hkeeps
      exact h.handles_of_keeps hkeeps fun i hmem => hmem

theorem Opening.sound {phase : Phase} (h : Opening s number job t phase) (hs : Sound s)
    (hj : s.jobs[number]? = some job) : Sound t ∧ phase.Suits job.body := by
  cases h with
  | barred beside => exact ⟨beside.sound hs, trivial⟩
  | running lasts beside =>
    refine ⟨arm_sound (beside.sound hs) ?_, lasts⟩
    rw [beside.jobs]
    exact hj
  | settled allowed beside => exact ⟨beside.sound hs, suits_ended allowed _⟩
  | thrown _ beside _ noted => exact ⟨noted.sound (beside.sound hs), trivial⟩

theorem Sound.passOn (h : Sound s) : Sound s.passOn := by
  cases hw : s.slots.waiters with
  | nil =>
    rw [passOn_of_idle hw]
    exact h.congr rfl rfl rfl
  | cons next others =>
    rw [passOn_of_waiting hw]
    have hslots : Sound { s with slots := { s.slots with waiters := others } } :=
      h.congr rfl rfl rfl
    exact hslots.place fun _ _ => trivial

theorem Sound.ticked (h : Sound s) (ticked : Ticked s t) : Sound t := by
  have hpopped : Sound s.popped := h.congr rfl rfl rfl
  cases ticked with
  | quiet => exact h
  -- the phase into which a body is entered suits the ending that it waits for
  | started _ job_eq _ opening =>
    obtain ⟨hopened, hsuits⟩ := opening.sound hpopped job_eq
    refine hopened.place fun other hother => ?_
    rw [opening.sameLine.jobs] at hother
    obtain rfl := Option.some.inj (job_eq.symm.trans hother)
    exact hsuits
  | @bounced number job u value _ _ _ bounced =>
    have hplaced : Sound (u.place number
        (.finished (.ofCall (s.popped.timesOf job) (.thrown value)))) :=
      (bounced.beside.sound hpopped).place fun _ _ => trivial
    exact hplaced.passOn
  | finished _ _ _ noted => exact (noted.sound hpopped).place fun _ _ => trivial
  | @released number job result _ _ _ =>
    have hplaced : Sound (s.popped.place number (.finished result)) :=
      hpopped.place fun _ _ => trivial
    obtain ⟨jobs, -, timers, handles⟩ :=
      reportBack_keeps (s.popped.place number (.finished result)).passOn job result
    exact hplaced.passOn.congr jobs timers handles
  | @concluded number _ =>
    obtain ⟨-, timers, handles⟩ := conclude_keeps s.popped number
    exact hpopped.congr (conclude_sameLine s.popped number).jobs timers handles

/-- **Bodies end as they say**, whatever has happened to a runner. -/
theorem sound_after (positive : 0 < capacity) (clock : Number) (level : Log.Level) (shell : Shell)
    (moves : List Move) : Sound ((fresh positive clock level shell).after moves) := by
  induction moves using List.reverseRecOn with
  | nil =>
    refine ⟨fun number job hj => absurd hj (by simp [fresh, State.idle]), ?_, ?_⟩
    · exact fun timer hmem => absurd hmem List.not_mem_nil
    · exact fun number hmem => absurd hmem List.not_mem_nil
  | append_singleton moves m ih =>
    rw [after_concat]
    cases m with
    | arrive stimulus => exact ih.receive stimulus
    | tick =>
      obtain ⟨begun, admitted, h⟩ := inLine_after positive clock level shell moves
      exact ih.ticked h.ticked

end State

end BoundedJobs
