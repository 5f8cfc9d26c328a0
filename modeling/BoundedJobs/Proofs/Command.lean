import BoundedJobs.Command
import BoundedJobs.Proofs.Value

/-!
# A command ends once, by what is heard first

Once its child lives, three things can happen to a command, in any order and any number of times:
the child exits, it reports an error, and the run is aborted. The first notice of the child decides
how the task ends, and nothing that comes later changes it or sends the child a signal. An abort
that comes before sends one signal and decides nothing, unless the child answers the signal by an
exit while it is still being sent.

One kind of error is not handled: an error that withholds its message. The first error of a child is
put into the words of a `CommandError`, and one that has no words is thrown back at the child
instead. So whatever is said here about errors is said about those that do not withhold their
message.

* `Command.Withheld` — a cause that cannot be put into words, and `Command.Words`, the words for any
  other;
* `Command.exists_fault_of_cause`, `Command.exists_refusal_of_cause` — when the error of a command
  can be made;
* `Command.Happening`, `Session.undergo`, `Session.after` — what can happen, and the task after it;
* `Command.firstNotice?`, `Command.Decides` — the notice that counts, and how the task ends by it;
* `Session.over_after`, `Session.live_after` — one happening after the other, for a task that has
  ended and for one that has not;
* `Session.settles_once` — the whole.
-/

namespace BoundedJobs

namespace Command

variable {line : String} {cause : Value} {refusal : Fault}

/-! ## The error of a command -/

/-- **A cause that withholds what it says**: it refuses to be looked at, or it is an error object
whose message has no text. -/
def Withheld (cause : Value) : Prop := cause = .revoked ∨ cause.isFault = true ∧ cause.Mute

/-- The words for a cause: what an error object says, and nothing about anything else. -/
inductive Words (cause : Value) : String → Prop
  | message {text : String} (fault : cause.isFault = true)
      (said : cause.message?.bind Value.spelled = .ok text) : Words cause ("failed: " ++ text)
  | none (other : cause.isFault = false) : Words cause "failed"

/-- The message of an error object is its complaint. -/
theorem message?_eq_complaint (h : cause.isFault = true) : cause.message? = cause.complaint := by
  cases cause <;> first | rfl | cases h

theorem reason_of_fault (h : cause.isFault = true) :
    reason none none (some cause) =
      (cause.message?.bind Value.spelled).map fun text => "failed: " ++ text := by
  cases cause with
  | fault | messaged | unreadable => rfl
  | _ => cases h

theorem reason_of_other (hrevoked : cause ≠ .revoked) (h : cause.isFault = false) :
    reason none none (some cause) = .ok "failed" := by
  cases cause with
  | revoked => exact absurd rfl hrevoked
  | fault | messaged | unreadable => cases h
  | _ => rfl

theorem fault_eq (exitCode : Option Number) (signal : Option String) (cause : Option Value) :
    fault line exitCode signal cause =
      (reason exitCode signal cause).map fun told =>
        { kind := .command line exitCode signal, cause,
          message := "Command \"" ++ line ++ "\" " ++ told } := by
  unfold fault
  cases reason exitCode signal cause <;> rfl

/-- **A cause that can be put into words** is the cause of an error that names the command. -/
theorem exists_fault_of_cause (line : String) (h : ¬ Withheld cause) :
    ∃ told, Words cause told ∧ fault line none none (some cause) =
      .ok { kind := .command line none none, cause := some cause,
            message := "Command \"" ++ line ++ "\" " ++ told } := by
  obtain ⟨hrevoked, hmute⟩ := not_or.mp h
  rw [fault_eq]
  cases hfault : cause.isFault with
  | false =>
    rw [reason_of_other hrevoked hfault]
    exact ⟨"failed", .none hfault, rfl⟩
  | true =>
    have hspelled : ∃ text, cause.message?.bind Value.spelled = .ok text := by
      cases hsaid : cause.message?.bind Value.spelled with
      | ok text => exact ⟨text, rfl⟩
      | error refusal =>
        rw [message?_eq_complaint hfault] at hsaid
        exact absurd ⟨hfault, (Value.untold_of_complaint_spelled hsaid).1.1⟩ hmute
    obtain ⟨text, hsaid⟩ := hspelled
    rw [reason_of_fault hfault, hsaid]
    exact ⟨_, .message hfault hsaid, rfl⟩

/-- Of any other the error cannot be made: asking for its words raises an error of its own. -/
theorem exists_refusal_of_cause (line : String) (h : Withheld cause) :
    ∃ refusal, Value.IsRefusal refusal ∧
      fault line none none (some cause) = .error refusal := by
  rcases h with rfl | ⟨hfault, hmute⟩
  · exact ⟨Value.noAccess, Or.inl rfl, rfl⟩
  · have hsymbol : ∀ description, cause ≠ .symbol description := by
      rintro description rfl
      cases hfault
    obtain ⟨refusal, hsaid⟩ := Value.exists_complaint_spelled_eq_error_iff.mpr ⟨hmute, hsymbol⟩
    refine ⟨refusal, (Value.untold_of_complaint_spelled hsaid).2, ?_⟩
    rw [fault_eq, reason_of_fault hfault, message?_eq_complaint hfault, hsaid]
    rfl

/-- The error of a command that exits can always be made. -/
theorem exists_fault_of_exit (line : String) (exitCode : Option Number) (signal : Option String) :
    ∃ told, reason exitCode signal none = .ok told ∧ fault line exitCode signal none =
      .ok { kind := .command line exitCode signal,
            message := "Command \"" ++ line ++ "\" " ++ told } := by
  have hreason : ∃ told, reason exitCode signal none = .ok told := by
    unfold reason
    split <;> exact ⟨_, rfl⟩
  obtain ⟨told, htold⟩ := hreason
  refine ⟨told, htold, ?_⟩
  rw [fault_eq, htold]
  rfl

/-! ## What happens -/

/-- What a child says about itself. -/
inductive Notice where
  | exit (code : Option Number) (signal : Option String)
  | error (error : Value)

/-- What can happen to a task whose child lives: the child gives notice, or the task is aborted. The
signal of an abort may be answered at once by an exit. -/
inductive Happening where
  | notice (notice : Notice)
  | abort (reason : Value) (atOnce : Option (Option Number × Option String))

/-- The task after something has happened, and what was done about it. -/
def Session.undergo (s : Session) : Happening → Except Fault (Session × List Act)
  | .notice (.exit code signal) => .ok (s.exit code signal, [])
  | .notice (.error error) => s.error error
  | .abort reason atOnce => .ok (s.abort reason atOnce)

/-- The task after all that has happened, and what was done meanwhile. -/
def Session.after (s : Session) : List Happening → Except Fault (Session × List Act)
  | [] => .ok (s, [])
  | happening :: later => do
    let (next, acts) ← s.undergo happening
    let (last, more) ← next.after later
    return (last, acts ++ more)

/-- The names of the signals that were sent. -/
def signals (acts : List Act) : List String :=
  acts.filterMap fun
    | .signalled name => some name
    | _ => none

/-- **The notice that counts**: the first one. An exit that answers the signal of the abort at once
is one, and only the first abort sends a signal. -/
def firstNotice? (aborted : Bool) : List Happening → Option Notice
  | [] => none
  | .notice notice :: _ => some notice
  | .abort _ atOnce :: later =>
    (if aborted then none else atOnce.map fun answer => .exit answer.1 answer.2).or
      (firstNotice? true later)

/-- The error that a child reports. -/
def Happening.error? : Happening → Option Value
  | notice (.error error) => some error
  | _ => none

/-- The first error that a child reports, whether it counts or not. -/
def firstError? (happenings : List Happening) : Option Value :=
  happenings.findSome? Happening.error?

/-- **How a notice decides.** The exit code zero is a success. Any other exit and any error end the
task with an error that names the command; the error of the child is its cause and stands in its
message. -/
inductive Decides (line : String) : Notice → Ending → Prop
  | success (signal : Option String) : Decides line (.exit (some 0) signal) .succeeded
  | exited {code : Option Number} {signal : Option String} {told : String} (other : code ≠ some 0)
      (words : reason code signal none = .ok told) :
      Decides line (.exit code signal) (.failed
        { kind := .command line code signal, cause := none,
          message := "Command \"" ++ line ++ "\" " ++ told })
  | errored {error : Value} {told : String} (words : Words error told) :
      Decides line (.error error) (.failed
        { kind := .command line none none, cause := some error,
          message := "Command \"" ++ line ++ "\" " ++ told })

theorem decides_ofExit (line : String) (code : Option Number) (signal : Option String) :
    Decides line (.exit code signal) (.ofExit line code signal) := by
  unfold Ending.ofExit
  split
  · next hzero => exact hzero ▸ .success signal
  · next hother =>
    obtain ⟨told, htold, hfault⟩ := exists_fault_of_exit line code signal
    rw [hfault]
    exact .exited hother htold

/-- What a notice, if there is one that counts, makes of a task whose child lives. -/
def Stage.Follows (line : String) (notice? : Option Notice) (stage : Stage) : Prop :=
  match notice? with
  | none => stage = .live
  | some notice => ∃ ending, stage = .over ending ∧ Decides line notice ending

/-- Whether a task is aborted before its child gives notice: then this comes first of all. -/
def abortedFirst : List Happening → Bool
  | .abort .. :: _ => true
  | _ => false

namespace Session

variable {s t : Session} {happenings : List Happening} {happening : Happening} {acts : List Act}
  {ending : Ending}

/-! ## One happening -/

theorem after_cons (s : Session) (happening : Happening) (later : List Happening) :
    s.after (happening :: later) =
      (s.undergo happening).bind fun (next, acts) =>
        (next.after later).map fun (last, more) => (last, acts ++ more) := by
  rw [after]
  cases s.undergo happening with
  | error refusal => rfl
  | ok result => cases result.1.after later <;> rfl

theorem after_cons_eq_ok {later : List Happening}
    (h : s.after (happening :: later) = .ok (t, acts)) :
    ∃ next now more, s.undergo happening = .ok (next, now) ∧ next.after later = .ok (t, more) ∧
      acts = now ++ more := by
  rw [after_cons] at h
  -- a refused happening ends the history, so both steps have to be accepted
  cases hnow : s.undergo happening with
  | error refusal =>
    rw [hnow] at h
    cases h
  | ok result =>
    obtain ⟨next, now⟩ := result
    rw [hnow] at h
    cases hlater : next.after later with
    | error refusal =>
      change (next.after later).map _ = _ at h
      rw [hlater] at h
      cases h
    | ok result =>
      obtain ⟨last, more⟩ := result
      change (next.after later).map _ = _ at h
      rw [hlater] at h
      cases h
      exact ⟨next, now, more, rfl, hlater, rfl⟩

theorem signals_append (acts more : List Act) :
    signals (acts ++ more) = signals acts ++ signals more :=
  List.filterMap_append

/-- A child is heard with its first error, and then nobody listens for another one. -/
theorem error_eq (child : s.hasChild = true) (error : Value) :
    s.error error =
      if s.errorHeard then .ok (s, [.unheard])
      else (fault s.line none none (some error)).map fun made =>
        match s.stage with
        | .live => ({ s with errorHeard := true, stage := .over (.failed made) }, [])
        | _ => ({ s with errorHeard := true }, []) := by
  unfold Session.error
  rw [child]
  cases s.errorHeard with
  | true => rfl
  | false =>
    change (fault s.line none none (some error)).bind _ = _
    cases fault s.line none none (some error) with
    | error refusal => rfl
    | ok made => cases s.stage <;> rfl

/-- **Nothing happens any more to a task that has ended.** -/
theorem over_undergo (hover : s.stage = .over ending) (h : s.undergo happening = .ok (t, acts)) :
    t.stage = .over ending ∧ signals acts = [] := by
  unfold undergo at h
  split at h
  · next code signal =>
    cases h
    unfold Session.exit
    rw [hover]
    exact ⟨hover, rfl⟩
  · next error =>
    cases hchild : s.hasChild with
    | false =>
      unfold Session.error at h
      rw [hchild] at h
      cases h
      exact ⟨hover, rfl⟩
    -- a `CommandError` is still made for an error, and making it may throw
    | true =>
      rw [error_eq hchild] at h
      split at h
      · cases h
        exact ⟨hover, rfl⟩
      · cases hmade : fault s.line none none (some error) with
        | error refusal =>
          rw [hmade] at h
          cases h
        | ok made =>
          rw [hmade, hover] at h
          cases h
          exact ⟨rfl, rfl⟩
  · next reason atOnce =>
    unfold Session.abort at h
    rw [hover] at h
    split at h
    · cases h
      exact ⟨hover, rfl⟩
    · cases h
      exact ⟨rfl, rfl⟩

/-- **A notice ends a task whose child lives**, as it decides. -/
theorem live_notice (live : s.stage = .live) (child : s.hasChild = true)
    (unheard : s.errorHeard = false) {notice : Notice}
    (h : s.undergo (.notice notice) = .ok (t, acts)) :
    (∃ ending, t.stage = .over ending ∧ Decides s.line notice ending) ∧ signals acts = [] := by
  cases notice with
  | exit code signal =>
    cases h
    unfold Session.exit
    rw [live]
    exact ⟨⟨_, rfl, decides_ofExit s.line code signal⟩, rfl⟩
  | error error =>
    change s.error error = .ok (t, acts) at h
    rw [error_eq child, unheard, live] at h
    by_cases hwithheld : Withheld error
    · obtain ⟨refusal, -, hmade⟩ := exists_refusal_of_cause s.line hwithheld
      rw [hmade] at h
      cases h
    · obtain ⟨told, hwords, hmade⟩ := exists_fault_of_cause s.line hwithheld
      rw [hmade] at h
      cases h
      exact ⟨⟨_, rfl, .errored hwords⟩, rfl⟩

/-- **An abort ends nothing by itself.** The first one sends a signal, and the child may answer it
by an exit. -/
theorem live_abort (live : s.stage = .live) {reason : Value}
    {atOnce : Option (Option Number × Option String)}
    (h : s.undergo (.abort reason atOnce) = .ok (t, acts)) :
    (s.aborted.isSome = true ∧ t = s ∧ signals acts = []) ∨
    (s.aborted.isSome = false ∧ signals acts = ["SIGTERM"] ∧
      t.stage.Follows s.line (atOnce.map fun answer => .exit answer.1 answer.2) ∧
      (atOnce = none → t = { s with aborted := some reason })) := by
  obtain ⟨line, options, aborted, stage, hasChild, errorHeard⟩ := s
  -- while the child lives only the first abort does anything
  obtain rfl : stage = .live := live
  cases aborted with
  | some earlier =>
    cases h
    exact Or.inl ⟨rfl, rfl, rfl⟩
  | none =>
    refine Or.inr ⟨rfl, ?_⟩
    -- the child may end within the very call that sends the signal
    cases atOnce with
    | some answer =>
      cases h
      exact ⟨rfl, ⟨_, rfl, decides_ofExit line answer.1 answer.2⟩, nofun⟩
    | none =>
      cases h
      exact ⟨rfl, rfl, fun _ => rfl⟩

/-! ## All that happens -/

theorem over_after (hover : s.stage = .over ending) (h : s.after happenings = .ok (t, acts)) :
    t.stage = .over ending ∧ signals acts = [] := by
  induction happenings generalizing s acts with
  | nil =>
    cases h
    exact ⟨hover, rfl⟩
  | cons happening later ih =>
    obtain ⟨next, now, more, hnow, hlater, rfl⟩ := after_cons_eq_ok h
    obtain ⟨hnext, hsilent⟩ := over_undergo hover hnow
    obtain ⟨hlast, hquiet⟩ := ih hnext hlater
    rw [signals_append, hsilent, hquiet]
    exact ⟨hlast, rfl⟩

/-- **A task whose child lives** ends by the notice that counts. One signal is sent if the task is
aborted before, and none otherwise. -/
theorem live_after (live : s.stage = .live) (child : s.hasChild = true)
    (unheard : s.errorHeard = false) (h : s.after happenings = .ok (t, acts)) :
    t.stage.Follows s.line (firstNotice? s.aborted.isSome happenings) ∧
      signals acts =
        if s.aborted.isNone && abortedFirst happenings then ["SIGTERM"] else [] := by
  -- by induction on what happens: a notice ends the task, and an abort leaves it as live as it was
  induction happenings generalizing s acts with
  | nil =>
    cases h
    refine ⟨live, ?_⟩
    exact (if_neg (by simp [abortedFirst])).symm
  | cons happening later ih =>
    obtain ⟨next, now, more, hnow, hlater, rfl⟩ := after_cons_eq_ok h
    rw [signals_append]
    cases happening with
    | notice notice =>
      obtain ⟨⟨ending, hover, hdecides⟩, hsilent⟩ := live_notice live child unheard hnow
      -- from the notice on nothing happens to the task any more
      obtain ⟨hlast, hquiet⟩ := over_after hover hlater
      rw [hsilent, hquiet]
      exact ⟨⟨ending, hlast, hdecides⟩, (if_neg (by simp [abortedFirst])).symm⟩
    | abort reason atOnce =>
      rcases live_abort live hnow with ⟨haborted, rfl, hsilent⟩ | ⟨hfirst, hsignal, hfollows, hnext⟩
      · -- a second abort is none
        obtain ⟨hfollows, hsignals⟩ := ih live child unheard hlater
        have hnone : next.aborted.isNone = false := by
          rw [← Option.not_isSome, haborted]
          rfl
        rw [hsilent, hsignals, hnone, firstNotice?, if_pos haborted, Option.none_or]
        rw [haborted] at hfollows
        exact ⟨hfollows, rfl⟩
      · -- the first abort sends its signal, which the child may answer at once
        have hnone : s.aborted.isNone = true := by
          rw [← Option.not_isSome, hfirst]
          rfl
        rw [hsignal, firstNotice?, if_neg (Bool.eq_false_iff.mp hfirst), hnone]
        cases atOnce with
        | some answer =>
          obtain ⟨ending, hover, hdecides⟩ := hfollows
          obtain ⟨hlast, hquiet⟩ := over_after hover hlater
          rw [hquiet]
          exact ⟨⟨ending, hlast, hdecides⟩, rfl⟩
        | none =>
          obtain rfl := hnext rfl
          obtain ⟨hfollows, hsignals⟩ :=
            ih (s := { s with aborted := some reason }) live child unheard hlater
          rw [hsignals]
          exact ⟨hfollows, rfl⟩

/-! ## The listener for errors -/

/-- The first error is listened to, and it is not thrown back unless it withholds its message. -/
theorem undergo_eq_ok (child : s.hasChild = true)
    (h : s.errorHeard = true ∨ ∀ error, happening.error? = some error → ¬ Withheld error) :
    ∃ next acts, s.undergo happening = .ok (next, acts) ∧ next.hasChild = true ∧
      next.errorHeard = (s.errorHeard || happening.error?.isSome) := by
  cases happening with
  | notice notice =>
    cases notice with
    | exit code signal =>
      refine ⟨s.exit code signal, [], rfl, ?_, ?_⟩
      · unfold Session.exit
        split <;> exact child
      · have hheard : (s.exit code signal).errorHeard = s.errorHeard := by
          unfold Session.exit
          split <;> rfl
        exact hheard.trans (Bool.or_false _).symm
    | error error =>
      change ∃ next acts, s.error error = .ok (next, acts) ∧ next.hasChild = true ∧
        next.errorHeard = (s.errorHeard || true)
      rw [error_eq child, Bool.or_true]
      cases hheard : s.errorHeard with
      -- only the first error finds somebody who listens
      | true => exact ⟨s, _, rfl, child, hheard⟩
      | false =>
        have htold := h.resolve_left (hheard ▸ Bool.false_ne_true) error rfl
        obtain ⟨told, -, hmade⟩ := exists_fault_of_cause s.line htold
        rw [hmade]
        cases s.stage <;> exact ⟨_, _, rfl, child, rfl⟩
  | abort reason atOnce =>
    refine ⟨(s.abort reason atOnce).1, (s.abort reason atOnce).2, rfl, ?_⟩
    -- an abort changes neither of the two fields, whatever it finds
    obtain ⟨line, options, aborted, stage, hasChild, errorHeard⟩ := s
    obtain rfl : hasChild = true := child
    cases aborted <;> cases stage <;> cases atOnce <;>
      exact ⟨rfl, (Bool.or_false _).symm⟩

theorem undergo_eq_error (child : s.hasChild = true) (unheard : s.errorHeard = false)
    {error : Value} (reports : happening.error? = some error) (withheld : Withheld error) :
    ∃ refusal, Value.IsRefusal refusal ∧ s.undergo happening = .error refusal := by
  obtain rfl : happening = .notice (.error error) := by
    unfold Happening.error? at reports
    split at reports
    · rw [Option.some.inj reports]
    · cases reports
  obtain ⟨refusal, hrefusal, hmade⟩ := exists_refusal_of_cause s.line withheld
  refine ⟨refusal, hrefusal, ?_⟩
  change s.error error = .error refusal
  rw [error_eq child, unheard, hmade]
  rfl

/-- Nothing is thrown back at a child whose first error does not withhold its message. -/
theorem exists_after (child : s.hasChild = true)
    (h : s.errorHeard = true ∨ ∀ error, firstError? happenings = some error → ¬ Withheld error) :
    ∃ t acts, s.after happenings = .ok (t, acts) := by
  induction happenings generalizing s with
  | nil => exact ⟨s, [], rfl⟩
  | cons happening later ih =>
    unfold firstError? at h
    rw [List.findSome?_cons] at h
    have hnow : s.errorHeard = true ∨
        ∀ error, happening.error? = some error → ¬ Withheld error := by
      refine h.imp_right fun hfirst error herror => hfirst error ?_
      rw [herror]
    obtain ⟨next, acts, hnext, hchild, hheard⟩ := undergo_eq_ok child hnow
    -- what was listened to has had its error, and so the first error is never among the others
    have hlater : next.errorHeard = true ∨
        ∀ error, firstError? later = some error → ¬ Withheld error := by
      rw [hheard]
      cases herror : happening.error? with
      | some error => exact Or.inl (Bool.or_true _)
      | none =>
        rw [herror] at h
        refine h.imp_left fun hlistened => ?_
        rw [hlistened]
        rfl
    obtain ⟨last, more, hlast⟩ := ih hchild hlater
    rw [after_cons, hnext]
    change ∃ t acts', (next.after later).map _ = .ok (t, acts')
    rw [hlast]
    exact ⟨last, acts ++ more, rfl⟩

/-- The first error is thrown back if it does, whether the task has ended or not. -/
theorem after_eq_error (child : s.hasChild = true) (unheard : s.errorHeard = false)
    {error : Value} (first : firstError? happenings = some error) (withheld : Withheld error) :
    ∃ refusal, Value.IsRefusal refusal ∧ s.after happenings = .error refusal := by
  induction happenings generalizing s with
  | nil => cases first
  | cons happening later ih =>
    unfold firstError? at first
    rw [List.findSome?_cons] at first
    cases herror : happening.error? with
    -- the error is thrown back as soon as it comes
    | some other =>
      rw [herror] at first
      obtain rfl := Option.some.inj first
      obtain ⟨refusal, hrefusal, hnow⟩ := undergo_eq_error child unheard herror withheld
      rw [after_cons, hnow]
      exact ⟨refusal, hrefusal, rfl⟩
    | none =>
      rw [herror] at first
      -- until then nothing is thrown, and nobody has heard of an error
      have htold : ∀ error, happening.error? = some error → ¬ Withheld error := by
        rw [herror]
        exact nofun
      obtain ⟨next, acts, hnext, hchild, hheard⟩ := undergo_eq_ok child (Or.inr htold)
      rw [unheard, herror] at hheard
      obtain ⟨refusal, hrefusal, hlater⟩ := ih hchild hheard first
      rw [after_cons, hnext]
      change ∃ refusal, _ ∧ (next.after later).map _ = .error refusal
      rw [hlater]
      exact ⟨refusal, hrefusal, rfl⟩

/-! ## From the start -/

/-- **A task that has spawned its child** has heard nothing yet. -/
theorem start_live {options : Options} {clock : Number} {level : Log.Level}
    (child : (({ line, options } : Session).start clock level none).1.hasChild = true) :
    ({ line, options } : Session).start clock level none =
      ({ line, options, stage := .live, hasChild := true },
        (({ line, options } : Session).start clock level none).2) := by
  unfold Session.start at child ⊢
  dsimp only at child ⊢
  cases hline : Log.line? clock level .debug (startMessage line) .absent with
  | error refused =>
    rw [hline] at child
    cases child
  | ok written => rfl

/-- **A command ends once, by the first notice of its child.** Whatever happens after the child was
spawned, in whatever order and however often, the task goes on until the notice that counts and then
ends for good as this notice decides; what comes later changes nothing and sends nothing. One signal
is sent if the task is aborted before that notice, and none otherwise. This holds unless the first
error of the child withholds its message, which is thrown back at the child. -/
theorem settles_once (line : String) (options : Options) (clock : Number) (level : Log.Level)
    (child : (({ line, options } : Session).start clock level none).1.hasChild = true)
    (happenings : List Happening) :
    let started := (({ line, options } : Session).start clock level none).1
    ((∀ error, firstError? happenings = some error → ¬ Withheld error) →
      ∃ t acts, started.after happenings = .ok (t, acts) ∧
        t.stage.Follows line (firstNotice? false happenings) ∧
        signals acts = (if abortedFirst happenings then ["SIGTERM"] else []) ∧
        (firstNotice? false happenings ≠ none → ∀ later u more,
          t.after later = .ok (u, more) → u.stage = t.stage ∧ signals more = [])) ∧
    ∀ error, firstError? happenings = some error → Withheld error →
      ∃ refusal, Value.IsRefusal refusal ∧ started.after happenings = .error refusal := by
  intro started
  have hstarted : started = { line, options, stage := .live, hasChild := true } :=
    congrArg Prod.fst (start_live child)
  rw [hstarted]
  constructor
  · intro htold
    obtain ⟨t, acts, hafter⟩ :=
      exists_after (s := { line, options, stage := .live, hasChild := true }) rfl (Or.inr htold)
    obtain ⟨hfollows, hsignals⟩ := live_after rfl rfl rfl hafter
    refine ⟨t, acts, hafter, hfollows, hsignals, fun hnotice later u more hlater => ?_⟩
    -- the task has ended by now, so nothing that comes later matters
    obtain ⟨notice, hnotice⟩ := Option.ne_none_iff_exists'.mp hnotice
    change t.stage.Follows line (firstNotice? false happenings) at hfollows
    rw [hnotice] at hfollows
    obtain ⟨ending, hover, -⟩ := hfollows
    obtain ⟨hlast, hquiet⟩ := over_after hover hlater
    exact ⟨hlast.trans hover.symm, hquiet⟩
  · intro error hfirst hwithheld
    exact after_eq_error rfl rfl hfirst hwithheld

/-- An abort, then the exit code zero, then another exit and an error. -/
def interruptedThenDone : List Happening :=
  [.abort Fault.aborted.value none, .notice (.exit (some 0) none),
    .notice (.exit none (some "SIGTERM")), .notice (.error (Fault.plain "lost").value)]

theorem settles_once_interrupted :
    let started := (({ line := "make" } : Session).start 0 .info none).1
    ∃ t acts, started.after interruptedThenDone = .ok (t, acts) ∧
      t.stage = .over .succeeded ∧ signals acts = ["SIGTERM"] := by
  intro started
  obtain ⟨hsettles, -⟩ := settles_once "make" {} 0 .info rfl interruptedThenDone
  have htold : ∀ error, firstError? interruptedThenDone = some error → ¬ Withheld error := by
    rintro error herror (rfl | ⟨-, hmute⟩)
    · cases herror
    · obtain rfl := Option.some.inj herror
      cases hmute
  obtain ⟨t, acts, hafter, ⟨ending, hover, hdecides⟩, hsignals, -⟩ := hsettles htold
  refine ⟨t, acts, hafter, ?_, hsignals⟩
  cases hdecides with
  | success signal => exact hover
  | exited other words => exact absurd rfl other

/-- **Not every error is handled.** A child whose first report is an error that throws where its
message is read has given notice, but the task does not end by it: what the message throws is thrown
back at the child. -/
theorem after_unreadable :
    let started := (({ line := "make" } : Session).start 0 .info none).1
    let happenings := [Happening.notice (.error (.unreadable "no message"))]
    started.hasChild = true ∧ firstNotice? false happenings ≠ none ∧
      started.after happenings = .error (Fault.plain "no message") ∧
      ¬ ∃ t acts ending, started.after happenings = .ok (t, acts) ∧ t.stage = .over ending := by
  intro started happenings
  have hafter : started.after happenings = .error (Fault.plain "no message") := rfl
  refine ⟨rfl, nofun, hafter, ?_⟩
  rintro ⟨t, acts, ending, hok, -⟩
  rw [hafter] at hok
  cases hok

end Session

end Command

end BoundedJobs
