import BoundedJobs.Proofs.Docker.Info
import BoundedJobs.Proofs.Value
import Mathlib.Data.List.Induction

/-!
# A probe over time

A probe may be asked at any moment: before its query has started, while something is being called
for it, while the query is under way and when it is over, any number of times and for either thing.
What happens to it is a list of events: questions, returns of calls and ends of what was executed.

The query that a question waits for depends on one thing only, on how many calls have not returned
when it is asked. From outside it is the first query, always. What is executed for a query may ask
the probe, too, and its questions wait for the query of the next level, which knows nothing of the
first one. So the daemon is asked once for each level, and once in all if what is executed leaves
the probe alone.

* `Docker.interpret_eq_ok_iff`, `Docker.kind_of_interpret` — what a query comes to. A failure is
  reported by a `DockerError` that describes it, so a failure that cannot be described is not;
* `Docker.Probe.Leveled` — the queries of a probe stand for levels, `Docker.Probe.Leveled.undergo`,
  `Docker.Probe.leveled_after` — after one more event, and always;
* `Docker.Probe.questions_ask`, `Docker.Probe.question_at` — what a question waits for;
* `Docker.Probe.FromOutside`, `Docker.Probe.questions_of_fromOutside` — the questions of a probe
  that what is executed leaves alone;
* `Docker.Probe.Ends`, `Docker.Probe.result?_eq_some_iff` — the result of a query comes from its
  end;
* `Docker.Probe.shared_after` — the queries of a probe, and who gets which result;
* `Docker.Probe.info_after` — what such a result can be.
-/

namespace BoundedJobs

namespace Docker

/-! ## What a query comes to -/

section Query

variable {outcome : Except Value Text} {info : Info} {fault : Fault}

/-- **A query whose failure cannot be reported**, since it cannot be described. -/
def Unreported : Except Value Text → Prop
  | .error failure => failure.Untold
  | .ok _ => False

theorem interpret_failure (failure : Value) :
    interpret (.error failure)
      = (failure.complaint.bind Value.spelled).bind
          fun reason => .error (unavailable reason failure) := by
  change Except.bind failure.complaint (fun complaint => Except.bind complaint.spelled _) = _
  cases failure.complaint <;> rfl

/-- Only an answer that can be read gives information. -/
theorem interpret_eq_ok_iff :
    interpret outcome = .ok info ↔
      ∃ output, outcome = .ok output ∧ Info.parse output = .ok info := by
  cases outcome with
  | error failure =>
    refine iff_of_false ?_ (by simp)
    rw [interpret_failure]
    cases failure.complaint.bind Value.spelled <;> exact nofun
  | ok output =>
    unfold interpret
    cases hparse : Info.parse output <;> simp [hparse]

/-- An output that cannot be read is always reported, for it is a text. -/
theorem kind_of_output {output : Text} (h : interpret (.ok output) = .error fault) :
    fault.kind = .docker := by
  unfold interpret at h
  dsimp only at h
  split at h
  · cases h
  · -- a `DockerError` is passed on, and any other error becomes the cause of one
    obtain rfl := Except.error.inj h
    split
    · assumption
    · rfl

/-- **The error of a query.** It is a `DockerError` unless it cannot describe the failure. -/
theorem kind_of_interpret (h : interpret outcome = .error fault) :
    ¬ Unreported outcome ∧ fault.kind = .docker ∨
      Unreported outcome ∧ Value.IsRefusal fault := by
  cases outcome with
  | ok output => exact Or.inl ⟨id, kind_of_output h⟩
  | error failure =>
    rw [interpret_failure] at h
    cases hreason : failure.complaint.bind Value.spelled with
    | ok reason =>
      rw [hreason] at h
      obtain rfl := Except.error.inj h
      refine Or.inl ⟨fun untold => ?_, rfl⟩
      obtain ⟨refusal, hrefusal⟩ := Value.exists_complaint_spelled_eq_error_iff.mpr untold
      rw [hreason] at hrefusal
      cases hrefusal
    | error refusal =>
      -- nothing catches what describing the failure raises
      rw [hreason] at h
      obtain rfl := Except.error.inj h
      exact Or.inr (Value.untold_of_complaint_spelled hreason)

end Query

namespace Probe

/-! ## What happens to a probe -/

/-- Something that happens to a probe: a question, the return of the innermost call, or the end of
what was executed for a query. -/
inductive Event where
  | ask (question : Question)
  | returned
  | settle (query : Nat) (outcome : Except Value Text)

variable {p : Probe} {events : List Event} {event : Event} {question : Question} {query : Nat}
  {outcome : Except Value Text} {result : Except Fault Info}

/-- The question that an event asks. -/
def Event.question? : Event → Option Question
  | ask question => some question
  | _ => none

/-- A probe after one more event. -/
def undergo (p : Probe) : Event → Probe
  | .ask question => p.ask question
  | .returned => p.returned
  | .settle query outcome => p.settle query outcome

/-- A new probe after the given events. -/
def after (events : List Event) : Probe := events.foldl undergo {}

/-- The questions among the events. -/
def questionsOf (events : List Event) : List Question := events.filterMap Event.question?

theorem after_concat (events : List Event) (event : Event) :
    after (events ++ [event]) = (after events).undergo event :=
  List.foldl_concat ..

/-! ## Levels -/

/-- **The queries of a probe stand for levels.** The calls that have not returned are those for the
outermost queries. The query behind them is kept, or it has not been started. For every query there
is somebody who waits for it. -/
structure Leveled (p : Probe) : Prop where
  calls : p.calls = (List.range p.calls.length).reverse
  kept : p.kept = none ∧ p.queries = p.calls.length ∨
    p.kept = some p.calls.length ∧ p.calls.length < p.queries
  waited : ∀ query, query < p.queries ↔ ∃ question, (question, query) ∈ p.questions

/-- **A question waits for the query of its level.** -/
theorem questions_ask (h : p.Leveled) (question : Question) :
    (p.ask question).questions = p.questions ++ [(question, p.calls.length)] := by
  unfold ask
  obtain ⟨hkept, hqueries⟩ | ⟨hkept, -⟩ := h.kept
  · rw [hkept, hqueries]
  · rw [hkept]

theorem Leveled.ask (h : p.Leveled) (question : Question) : (p.ask question).Leveled := by
  have hquestions := questions_ask h question
  obtain ⟨hkept, hqueries⟩ | ⟨hkept, hlevel⟩ := h.kept
  · -- nothing is kept, so the question starts the query of its level
    have hask : p.ask question =
        { p with questions := (p.ask question).questions, queries := p.queries + 1,
                 calls := p.queries :: p.calls } := by
      unfold Probe.ask
      rw [hkept]
    constructor
    · rw [hask, List.length_cons, List.range_succ, List.reverse_concat, ← h.calls, hqueries]
    · rw [hask, hqueries]
      exact .inl ⟨hkept, rfl⟩
    · intro query
      rw [hquestions, hask, hqueries]
      simp only [List.mem_append, exists_or, ← h.waited, hqueries, List.mem_singleton,
        Prod.mk.injEq, exists_eq_left]
      exact Nat.lt_succ_iff_lt_or_eq
  · have hask : p.ask question = { p with questions := (p.ask question).questions } := by
      unfold Probe.ask
      rw [hkept]
    constructor
    · rw [hask]
      exact h.calls
    · rw [hask]
      exact .inr ⟨hkept, hlevel⟩
    · intro query
      rw [hquestions, hask]
      simp only [List.mem_append, exists_or, ← h.waited, List.mem_singleton, Prod.mk.injEq,
        exists_eq_left]
      exact (or_iff_left_of_imp fun heq => heq ▸ hlevel).symm

theorem Leveled.returned (h : p.Leveled) : p.returned.Leveled := by
  unfold Probe.returned
  split
  · exact h
  · next query calls hcalls =>
    -- the call that returns is that of the innermost level
    have hlength : p.calls.length = calls.length + 1 := congrArg List.length hcalls
    have hlevels := h.calls
    rw [hcalls, List.length_cons, List.range_succ, List.reverse_concat] at hlevels
    obtain ⟨hquery, hothers⟩ := List.cons.inj hlevels
    have hlevel : calls.length < p.queries := by
      obtain ⟨-, hqueries⟩ | ⟨-, hlevel⟩ := h.kept
      · exact Nat.lt_of_succ_le (hqueries.trans hlength).ge
      · exact Nat.lt_of_succ_lt (hlength.symm.trans_lt hlevel)
    exact ⟨hothers, .inr ⟨congrArg some hquery, hlevel⟩, h.waited⟩

theorem Leveled.settle (h : p.Leveled) (query : Nat) (outcome : Except Value Text) :
    (p.settle query outcome).Leveled := by
  unfold Probe.settle
  split <;> exact ⟨h.calls, h.kept, h.waited⟩

/-- **One more event.** -/
theorem Leveled.undergo (h : p.Leveled) (event : Event) : (p.undergo event).Leveled := by
  cases event with
  | ask question => exact h.ask question
  | returned => exact h.returned
  | settle query outcome => exact h.settle query outcome

/-- **Always.** -/
theorem leveled_after (events : List Event) : (after events).Leveled := by
  induction events using List.reverseRecOn with
  | nil => exact ⟨rfl, .inl ⟨rfl, rfl⟩, fun query => by simp [after]⟩
  | append_singleton events event ih => exact after_concat events event ▸ ih.undergo event

/-! ## Questions -/

theorem questions_undergo_of_ne (h : event.question? = none) :
    (p.undergo event).questions = p.questions := by
  cases event with
  | ask => cases h
  | returned =>
    change p.returned.questions = _
    unfold returned
    split <;> rfl
  | settle query outcome =>
    change (p.settle query outcome).questions = _
    unfold settle
    split <;> rfl

/-- Nothing but a question changes the questions, and a question is added to them. -/
theorem questions_concat (events : List Event) (event : Event) :
    (after (events ++ [event])).questions = (after events).questions ++
      event.question?.toList.map (·, (after events).calls.length) := by
  rw [after_concat]
  cases hquestion : event.question? with
  | none => rw [questions_undergo_of_ne hquestion]; exact (List.append_nil _).symm
  | some question =>
    cases event with
    | ask =>
      cases hquestion
      exact questions_ask (leveled_after events) question
    | returned | settle => cases hquestion

theorem questions_prefix (events more : List Event) :
    (after events).questions <+: (after (events ++ more)).questions := by
  induction more using List.reverseRecOn with
  | nil => exact (List.append_nil events).symm ▸ List.prefix_rfl
  | append_singleton more event ih =>
    rw [← List.append_assoc, questions_concat]
    exact ih.trans (List.prefix_append _ _)

/-- The questions are those among the events. -/
theorem map_fst_questions (events : List Event) :
    (after events).questions.map (·.1) = questionsOf events := by
  induction events using List.reverseRecOn with
  | nil => rfl
  | append_singleton events event ih =>
    unfold questionsOf at ih ⊢
    rw [questions_concat, List.map_append, ih, List.filterMap_append]
    cases event <;> rfl

/-- **What a question waits for** is the query of the level from which it is asked. -/
theorem question_at (before later : List Event) (question : Question) :
    (after (before ++ .ask question :: later)).questions[(questionsOf before).length]?
      = some (question, (after before).calls.length) := by
  have hlength : (questionsOf before).length = (after before).questions.length := by
    rw [← map_fst_questions, List.length_map]
  have hasked := questions_prefix (before ++ [.ask question]) later
  rw [questions_concat, List.append_assoc] at hasked
  rw [hlength]
  obtain ⟨others, hothers⟩ := hasked
  rw [List.singleton_append] at hothers
  rw [← hothers, List.append_assoc, List.getElem?_append_right (le_refl _), Nat.sub_self]
  rfl

/-- **What is executed leaves the probe alone**: whenever a question is asked, all calls have
returned. -/
inductive FromOutside : List Event → Prop
  | nil : FromOutside []
  | concat {events : List Event} {event : Event} (others : FromOutside events)
      (outside : event.question? = none ∨ (after events).calls = []) :
      FromOutside (events ++ [event])

/-- Then all questions wait for the first query. -/
theorem questions_of_fromOutside (h : FromOutside events) :
    (after events).questions = (questionsOf events).map (·, 0) := by
  induction h with
  | nil => rfl
  | @concat events event _ outside ih =>
    unfold questionsOf at ih ⊢
    rw [questions_concat, ih, List.filterMap_append, List.map_append]
    obtain hnone | hcalls := outside
    · rw [hnone, List.filterMap_cons_none hnone]
      rfl
    · rw [hcalls]
      cases event <;> rfl

/-- So there is one query, if anybody asks. -/
theorem queries_of_fromOutside (h : FromOutside events) :
    (after events).queries = if questionsOf events = [] then 0 else 1 := by
  have hwaited := (leveled_after events).waited
  rw [questions_of_fromOutside h] at hwaited
  cases hasked : questionsOf events with
  | nil =>
    rw [hasked] at hwaited
    exact Nat.eq_zero_of_not_pos fun hpos => by simpa using (hwaited 0).mp hpos
  | cons question others =>
    rw [hasked] at hwaited
    rw [if_neg (List.cons_ne_nil _ _)]
    refine Nat.le_antisymm (Nat.not_lt.mp fun hmore => ?_) ((hwaited 0).mpr ⟨question, by simp⟩)
    obtain ⟨_, hmem⟩ := (hwaited 1).mp hmore
    simp at hmem

/-! ## Results -/

/-- **How a query ends**: it waits for the end of what was executed, and this end comes. -/
def Ends (events : List Event) (query : Nat) (outcome : Except Value Text) : Prop :=
  ∃ before later, events = before ++ .settle query outcome :: later ∧ (after before).Awaits query

/-- A result stays. -/
theorem result?_undergo (h : p.result? query = some result) (event : Event) :
    (p.undergo event).result? query = some result := by
  cases event with
  | ask question =>
    change (p.ask question).result? query = _
    unfold ask
    split <;> exact h
  | returned =>
    change p.returned.result? query = _
    unfold returned
    split <;> exact h
  | settle other outcome =>
    change (p.settle other outcome).result? query = _
    unfold settle
    split
    · change (p.results ++ _).lookup query = _
      rw [List.lookup_append]
      exact congrArg (Option.or · _) h
    · exact h

theorem result?_append (h : (after events).result? query = some result) (more : List Event) :
    (after (events ++ more)).result? query = some result := by
  induction more using List.reverseRecOn with
  | nil => rwa [List.append_nil]
  | append_singleton more event ih =>
    rw [← List.append_assoc, after_concat]
    exact result?_undergo ih event

/-- A query that waits for the end gets its result from it. -/
theorem result?_settle (h : p.Awaits query) (outcome : Except Value Text) :
    (p.settle query outcome).result? query = some (interpret outcome) := by
  unfold settle
  rw [if_pos h]
  change (p.results ++ _).lookup query = _
  rw [List.lookup_append]
  have hnone : p.results.lookup query = none := h.2.2
  rw [hnone, Option.none_or, List.lookup_cons_self]

/-- A result that was not there before came with the end of its query. -/
theorem exists_of_result?_undergo (hnone : p.result? query = none)
    (hsome : (p.undergo event).result? query = some result) :
    ∃ outcome, event = .settle query outcome ∧ p.Awaits query ∧ interpret outcome = result := by
  cases event with
  | ask question =>
    change (p.ask question).result? query = _ at hsome
    unfold ask at hsome
    split at hsome <;> cases hnone.symm.trans hsome
  | returned =>
    change p.returned.result? query = _ at hsome
    unfold returned at hsome
    split at hsome <;> cases hnone.symm.trans hsome
  | settle other outcome =>
    change (p.settle other outcome).result? query = _ at hsome
    by_cases hother : p.Awaits other
    · by_cases heq : query = other
      · subst heq
        refine ⟨outcome, rfl, hother, ?_⟩
        rw [result?_settle hother] at hsome
        exact Option.some.inj hsome
      · -- the end of another query is no end of this one
        unfold settle at hsome
        rw [if_pos hother] at hsome
        change (p.results ++ _).lookup query = _ at hsome
        have hlookup : p.results.lookup query = none := hnone
        rw [List.lookup_append, hlookup, Option.none_or, List.lookup_cons,
          beq_false_of_ne heq] at hsome
        cases hsome
    · unfold settle at hsome
      rw [if_neg hother] at hsome
      cases hnone.symm.trans hsome

/-- **The result of a query** comes from its end. -/
theorem result?_eq_some_iff :
    (after events).result? query = some result ↔
      ∃ outcome, Ends events query outcome ∧ interpret outcome = result := by
  constructor
  · intro h
    induction events using List.reverseRecOn with
    | nil => cases h
    | append_singleton events event ih =>
      -- the first end of a query counts, and later events leave its result
      cases hbefore : (after events).result? query with
      | some earlier =>
        rw [result?_append hbefore] at h
        obtain ⟨outcome, ⟨before, later, rfl, hawaits⟩, hresult⟩ := ih (hbefore.trans h)
        refine ⟨outcome, ⟨before, later ++ [event], ?_, hawaits⟩, hresult⟩
        rw [List.append_assoc, List.cons_append]
      | none =>
        rw [after_concat] at h
        obtain ⟨outcome, rfl, hawaits, hresult⟩ := exists_of_result?_undergo hbefore h
        exact ⟨outcome, ⟨events, [], rfl, hawaits⟩, hresult⟩
  · rintro ⟨outcome, ⟨before, later, rfl, hawaits⟩, rfl⟩
    have hended : (after (before ++ [.settle query outcome])).result? query
        = some (interpret outcome) := by
      rw [after_concat]
      exact result?_settle hawaits outcome
    rw [List.append_cons]
    exact result?_append hended later

/-! ## Replies -/

/-- **A question with its reply**, given the result of the query. The information is the result
itself, good or bad; whether there is any is always answered. -/
inductive Replies (result : Except Fault Info) : Question → Option Reply → Prop where
  | info : Replies result .info (some (.info result))
  | available {there : Bool} (iff : there = true ↔ ∃ info, result = .ok info) :
      Replies result .available (some (.available there))

theorem replies_reply (result : Except Fault Info) (question : Question) :
    Replies result question (some (question.reply result)) := by
  cases question with
  | info => exact .info
  | available =>
    refine .available ?_
    cases result <;> simp [Except.toBool]

theorem replies_getElem? {i : Nat} (h : p.questions[i]? = some (question, query)) :
    p.replies[i]? = some ((p.result? query).map question.reply) := by
  unfold replies
  rw [List.getElem?_map, h]
  rfl

/-- Later events leave the questions and what they wait for alone. -/
theorem questions_getElem?_append {i : Nat}
    (h : (after events).questions[i]? = some (question, query)) (more : List Event) :
    (after (events ++ more)).questions[i]? = some (question, query) := by
  obtain ⟨others, hothers⟩ := questions_prefix events more
  obtain ⟨hlt, -⟩ := List.getElem?_eq_some_iff.mp h
  rw [← hothers, List.getElem?_append_left hlt, h]

/-- **Who gets which result.** For all events: a question waits for the query of the level from
which it is asked, and a query is started for nobody else. If what is executed leaves the probe
alone, this is one query for everyone, and no query as long as nobody has asked. Until a query ends
nobody who waits for it has a reply. Once it has ended everybody who waits for it has one, and all
of them tell the same result, whether it is good or bad. That stays so for good, whatever happens to
the probe later. -/
theorem shared_after (events more : List Event) :
    (∀ before question later, events = before ++ .ask question :: later →
      (after events).questions[(questionsOf before).length]?
        = some (question, (after before).calls.length)) ∧
    (∀ query, query < (after events).queries ↔
      ∃ question, (question, query) ∈ (after events).questions) ∧
    (FromOutside events → (after events).questions = (questionsOf events).map (·, 0) ∧
      (after events).queries = if questionsOf events = [] then 0 else 1) ∧
    ∀ (i : Nat) question query, (after events).questions[i]? = some (question, query) →
      ((∀ outcome, ¬ Ends events query outcome) → (after events).replies[i]? = some none) ∧
      ∀ outcome, Ends events query outcome →
        ∃ reply, Replies (interpret outcome) question reply ∧
          (after events).replies[i]? = some reply ∧
          (after (events ++ more)).replies[i]? = some reply := by
  refine ⟨?level, (leveled_after events).waited, fun houtside =>
    ⟨questions_of_fromOutside houtside, queries_of_fromOutside houtside⟩, ?reply⟩
  case level =>
    rintro before question later rfl
    exact question_at before later question
  case reply =>
    intro i question query hasked
    constructor
    · -- a reply would come from a result, and a result from an end
      intro hopen
      rw [replies_getElem? hasked]
      cases hresult : (after events).result? query with
      | none => rfl
      | some result =>
        obtain ⟨outcome, hended, -⟩ := result?_eq_some_iff.mp hresult
        exact absurd hended (hopen outcome)
    · -- the question keeps its place and its query, and the query keeps its result
      intro outcome hended
      have hresult := result?_eq_some_iff.mpr ⟨outcome, hended, rfl⟩
      refine ⟨_, replies_reply (interpret outcome) question, ?_, ?_⟩
      · rw [replies_getElem? hasked, hresult, Option.map_some]
      · rw [replies_getElem? (questions_getElem?_append hasked more), result?_append hresult more,
          Option.map_some]

/-- A failure is remembered like an answer. -/
theorem shared_after_failure :
    let events := [.ask .available, .returned, .ask .info, .settle 0 (.error (.text "down"))]
    let more := [.settle 0 (.ok (.ofString "{}")), .ask .available]
    FromOutside (events ++ more) ∧ Ends events 0 (.error (.text "down")) ∧
      (after (events ++ more)).queries = 1 ∧
      ∃ reply, Replies (interpret (.error (.text "down"))) .available reply ∧
        (after events).replies[0]? = some reply ∧
        (after (events ++ more)).replies[0]? = some reply := by
  intro events more
  have houtside : FromOutside (events ++ more) :=
    (((((FromOutside.nil.concat (.inr rfl)).concat (.inl rfl)).concat (.inr rfl)).concat
      (.inl rfl)).concat (.inl rfl)).concat (.inr rfl)
  have hended : Ends events 0 (.error (.text "down")) :=
    ⟨[.ask .available, .returned, .ask .info], [], rfl, by decide⟩
  have hqueries := ((shared_after (events ++ more) []).2.2.1 houtside).2
  have hreplies := (shared_after events more).2.2.2 0 .available 0 rfl
  exact ⟨houtside, hended, hqueries, hreplies.2 _ hended⟩

/-- **A question from within.** What is executed for the first question asks for the information,
too, before its call has returned. So something is executed twice, and the two questions are told
different things. -/
theorem shared_after_within :
    let output := .ofString "\x7b\"NCPU\":4\x7d"
    let events := [.ask .info, .ask .info, .returned, .returned, .settle 1 (.ok output),
      .settle 0 (.error (.text "down"))]
    (after events).queries = 2 ∧
      ∃ fault info, (after events).replies =
        [some (.info (.error fault)), some (.info (.ok info))] := by
  intro output events
  let info : Info := { operatingSystem := .ofString "", labels := [], ncpu := 4, memTotal := 0 }
  have hread : Json.read? output = some (.object [(.ofString "NCPU", .number (.finite 4))]) := rfl
  have hparse : Info.parse output = .ok info :=
    Info.parse_eq_ok_iff.mpr ⟨_, hread, .inl ⟨rfl, rfl⟩, .inl ⟨.inl rfl, rfl⟩, ⟨4, rfl, rfl⟩,
      .inl ⟨rfl, rfl⟩⟩
  have hanswer : interpret (.ok output) = .ok info :=
    interpret_eq_ok_iff.mpr ⟨output, rfl, hparse⟩
  refine ⟨rfl, unavailable "down" (.text "down"), info, ?_⟩
  -- the inner question started a query of its own and waits for that
  change [some (Reply.info (interpret (.error (.text "down")))),
    some (Reply.info (interpret (.ok output)))] = _
  rw [hanswer]
  rfl

/-- **What asking for the information comes to.** Once a query has ended it comes to the same for
everyone who waits for it. It is the information in the output of the query exactly if that is an
object with the fields asked for; the CPU count and the size of the memory are then numbers of their
own. Otherwise it is a `DockerError`, unless the query failed with something that cannot be
described: then it is the error that describing it raised, which is no `DockerError`. -/
theorem info_after (h : Ends events query outcome) :
    ∃ result : Except Fault Info,
      (∀ i : Nat, (after events).questions[i]? = some (.info, query) →
        (after events).replies[i]? = some (some (.info result))) ∧
      (∀ info, result = .ok info ↔ ∃ output members, outcome = .ok output ∧
        Json.read? output = some (.object members) ∧
        Info.Shows (Value.ofJson (.object members)) info) ∧
      (∀ info, result = .ok info → Number.Whole info.ncpu ∧ Number.Whole info.memTotal) ∧
      ∀ fault, result = .error fault →
        ¬ Unreported outcome ∧ fault.kind = .docker ∨
          Unreported outcome ∧ Value.IsRefusal fault := by
  refine ⟨interpret outcome, ?_, ?_, ?_, fun fault hfault => kind_of_interpret hfault⟩
  · intro i hasked
    rw [replies_getElem? hasked, result?_eq_some_iff.mpr ⟨outcome, h, rfl⟩]
    rfl
  · intro info
    rw [interpret_eq_ok_iff]
    simp only [Info.parse_eq_ok_iff, exists_and_left]
  · intro info hinfo
    obtain ⟨output, -, hparse⟩ := interpret_eq_ok_iff.mp hinfo
    exact ⟨Info.whole_ncpu hparse, Info.whole_memTotal hparse⟩

/-- A symbol refuses to be a part of a text, and still it is described. -/
theorem info_after_symbol :
    let outcome := .error (.symbol "down")
    let events := [.ask .info, .returned, .settle 0 outcome]
    Ends events 0 outcome ∧ ¬ Unreported outcome ∧
      ∃ fault, (after events).replies[0]? = some (some (.info (.error fault))) ∧
        fault.kind = .docker := by
  intro outcome events
  have hended : Ends events 0 outcome := ⟨[.ask .info, .returned], [], rfl, by decide⟩
  have hreported : ¬ Unreported outcome := fun untold => untold.2 "down" rfl
  obtain ⟨result, hreply, hinfo, -, hfault⟩ := info_after hended
  cases result with
  | ok info =>
    obtain ⟨_, _, houtput, -⟩ := (hinfo info).mp rfl
    -- nothing was executed, so there is no output to be read
    exact absurd houtput nofun
  | error fault =>
    rcases hfault fault rfl with ⟨-, hkind⟩ | ⟨hun, -⟩
    · exact ⟨hended, hreported, fault, hreply 0 rfl, hkind⟩
    · exact absurd hun hreported

/-- **A failure without a text.** It is an object that inherits nothing. -/
theorem info_after_bare :
    (after [.ask .info, .returned, .settle 0 (.error (.bare []))]).replies
        = [some (.info (.error Value.noText))] ∧
      Value.noText.kind ≠ .docker :=
  ⟨rfl, by decide⟩

end Probe

end Docker

end BoundedJobs
