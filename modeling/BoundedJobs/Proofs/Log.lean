import BoundedJobs.Log

/-!
# When a log line cannot be written

The lines of the library carry no data, or one text as the error they are about. Such data can
always be written, so the only thing that keeps a line from being made is a clock that shows no
moment: `Log.line?_eq_error`. Any line whose data JSON does not refuse is written while the clock
shows a date (`Log.exists_line?`), and if it is not, the clock is what is wrong
(`Log.eq_invalid_of_line?`).
-/

namespace BoundedJobs

/-- A clock shows a date when it is no farther from 1970 than the range of dates allows. -/
def Timestamp.InRange (clock : Number) : Prop :=
  Number.le (.ofInt (-bound)) clock = true ∧ Number.le clock (.ofInt bound) = true

instance (clock : Number) : Decidable (Timestamp.InRange clock) :=
  inferInstanceAs (Decidable (_ ∧ _))

theorem Timestamp.exists_text {clock : Number} (h : InRange clock) :
    ∃ moment, Timestamp.text clock = .ok moment :=
  ⟨_, if_pos (by rw [h.1, h.2]; rfl)⟩

theorem Timestamp.text_ne_error {clock : Number} (h : InRange clock) (fault : Fault) :
    Timestamp.text clock ≠ .error fault := by
  unfold Timestamp.text
  rw [if_pos (by rw [h.1, h.2]; rfl)]
  simp

theorem Timestamp.text_eq_error {clock : Number} {fault : Fault}
    (h : Timestamp.text clock = .error fault) :
    Timestamp.text clock = .error Timestamp.invalid := by
  unfold Timestamp.text at h ⊢
  split at h
  · exact absurd h (by simp)
  · next hc => rw [if_neg hc]

namespace Log

/-- The data of the library's own lines: none, or the text of an error. -/
def IsPlain (data : Value) : Prop := data = .absent ∨ ∃ text, data = errorData (.text text)

theorem isPlain_absent : IsPlain .absent := Or.inl rfl

theorem isPlain_errorData (text : String) : IsPlain (errorData (.text text)) := Or.inr ⟨text, rfl⟩

theorem format_eq_error {clock : Number} {level : Level} {message : String} {data : Value}
    {fault : Fault} (plain : IsPlain data) (h : format clock level message data = .error fault) :
    Timestamp.text clock = .error Timestamp.invalid := by
  unfold format at h
  cases ht : Timestamp.text clock with
  | error other => exact ht ▸ Timestamp.text_eq_error ht
  | ok moment =>
    rw [ht] at h
    -- the moment is shown, and neither kind of plain data can be refused
    rcases plain with rfl | ⟨text, rfl⟩
    · exact absurd h (by simp [bind, Except.bind, Value.shownFields, pure, Except.pure])
    · exact absurd h (by
        simp [bind, Except.bind, errorData, Value.shownFields, Value.dump, Value.dumpFields, pure,
          Except.pure])

/-- **A line that cannot be written.** It is at a level that is shown, and the clock shows no
moment. -/
theorem line?_eq_error {clock : Number} {threshold level : Level} {message : String} {data : Value}
    {fault : Fault} (plain : IsPlain data)
    (h : line? clock threshold level message data = .error fault) :
    threshold.shows level = true ∧ Timestamp.text clock = .error Timestamp.invalid := by
  unfold line? at h
  split at h
  · next shown =>
    refine ⟨shown, ?_⟩
    cases hf : format clock level message data with
    | error other => exact format_eq_error plain hf
    | ok line => rw [hf] at h; cases h
  · exact absurd h (by simp)

section Writable

variable {clock : Number} {data : Value} {fields : Nat} {tree : Option Json}

theorem line?_of_text {moment : String} (threshold level : Level) (message : String)
    (hmoment : Timestamp.text clock = .ok moment) (hfields : data.shownFields = .ok fields)
    (htree : data.dump = .ok tree) :
    ∃ line, line? clock threshold level message data = .ok line := by
  have hformat : ∃ line, format clock level message data = .ok line := by
    unfold format
    rw [hmoment, hfields, htree]
    by_cases hnone : fields = 0
    · exact ⟨_, if_pos hnone⟩
    · exact ⟨_, if_neg hnone⟩
  obtain ⟨line, hline⟩ := hformat
  unfold line?
  split
  · exact ⟨some line, by rw [hline]; rfl⟩
  · exact ⟨none, rfl⟩

/-- **A line that can be written.** The clock shows a date, and JSON does not refuse the data. -/
theorem exists_line? (threshold level : Level) (message : String) (hclock : Timestamp.InRange clock)
    (hfields : data.shownFields = .ok fields) (htree : data.dump = .ok tree) :
    ∃ line, line? clock threshold level message data = .ok line := by
  obtain ⟨moment, hmoment⟩ := Timestamp.exists_text hclock
  exact line?_of_text threshold level message hmoment hfields htree

/-- Where JSON does not refuse the data, only the clock is to blame for a line that is missing. -/
theorem eq_invalid_of_line? {threshold level : Level} {message : String} {fault : Fault}
    (hfields : data.shownFields = .ok fields) (htree : data.dump = .ok tree)
    (h : line? clock threshold level message data = .error fault) : fault = Timestamp.invalid := by
  cases hmoment : Timestamp.text clock with
  | ok moment =>
    obtain ⟨line, hline⟩ := line?_of_text threshold level message hmoment hfields htree
    rw [hline] at h
    cases h
  | error other =>
    have hinvalid := Timestamp.text_eq_error hmoment
    unfold line? format at h
    rw [hinvalid] at h
    split at h
    · exact (Except.error.inj h).symm
    · cases h

end Writable

end Log

end BoundedJobs
