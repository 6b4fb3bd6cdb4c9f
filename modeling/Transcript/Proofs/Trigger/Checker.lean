import Transcript.Config.Basic

/-!
# Checkers of a configuration

A checker that goes by thresholds finds that it is time as soon as they are crossed, and it still
finds so when there are more events, more tokens and a longer window.
-/

namespace Transcript

/-- There is as much to sum up as before, or more. The windows matter only if `timed` is set. -/
structure TriggerState.Grows (timed : Prop) (s s' : TriggerState) : Prop where
  events : s.events ≤ s'.events
  tokens : s.tokens ≤ s'.tokens
  elapsed : timed → s.elapsed.nanoseconds ≤ s'.elapsed.nanoseconds

namespace Checker

variable {timed : Prop} {s s' : TriggerState}

/-- A threshold for events that is crossed stays crossed. -/
theorem events_mono (h : s.Grows timed s') {threshold : Nat} (hs : events threshold s = true) :
    events threshold s' = true := by
  unfold events at *
  rw [decide_eq_true_eq] at *
  exact Nat.lt_of_lt_of_le hs h.events

/-- So does one for tokens. -/
theorem tokens_mono (h : s.Grows timed s') {threshold : Nat} (hs : tokens threshold s = true) :
    tokens threshold s' = true := by
  unfold tokens at *
  rw [Bool.and_eq_true, decide_eq_true_eq, decide_eq_true_eq] at *
  exact ⟨hs.1, Nat.lt_of_lt_of_le hs.2 h.tokens⟩

/-- So does one for the time, if the window does not get shorter. -/
theorem time_mono (h : s.Grows timed s') (htimed : timed) {interval : Span}
    (hs : time interval s = true) : time interval s' = true := by
  unfold time at *
  rw [Bool.and_eq_true, decide_eq_true_eq, decide_eq_true_eq] at *
  exact ⟨hs.1, Nat.lt_of_lt_of_le hs.2 (h.elapsed htimed)⟩

/-- What some of the checkers have found they still find. -/
theorem any_mono {checkers : List Checker} (h : ∀ c ∈ checkers, c s = true → c s' = true)
    (hs : any checkers s = true) : any checkers s' = true := by
  unfold any at *
  rw [List.any_eq_true] at *
  obtain ⟨c, hc, hcs⟩ := hs
  exact ⟨c, hc, h c hc hcs⟩

/-- So they do if all of them have found it. -/
theorem all_mono {checkers : List Checker} (h : ∀ c ∈ checkers, c s = true → c s' = true)
    (hs : all checkers s = true) : all checkers s' = true := by
  unfold all at *
  rw [Bool.and_eq_true, List.all_eq_true] at *
  exact ⟨hs.1, fun c hc => h c hc (hs.2 c hc)⟩

end Checker

namespace SummaryConfig

variable {c : SummaryConfig} {s s' : TriggerState}

/-- The thresholds that are on go by events, by tokens and, if the threshold for it is on, by
time. -/
theorem mem_checkers {checker : Checker} (h : checker ∈ c.checkers) :
    checker = Checker.events c.eventThreshold ∨ checker = Checker.tokens c.tokenThreshold ∨
      0 < c.timeThreshold ∧ checker = Checker.time (.ofSeconds c.timeThreshold) := by
  unfold checkers at h
  rcases List.mem_cons.1 h with hevents | h
  · exact .inl hevents
  · rcases List.mem_append.1 h with htokens | htime
    · split at htokens
      · exact .inr (.inl (List.mem_singleton.1 htokens))
      · cases htokens
    · split at htime
      · rename_i hon
        exact .inr (.inr ⟨hon, List.mem_singleton.1 htime⟩)
      · cases htime

/-- When a summary is due it stays so as the state grows. -/
theorem checker_mono (h : s.Grows (0 < c.timeThreshold) s') (hs : c.checker s = true) :
    c.checker s' = true := by
  have heach : ∀ checker ∈ c.checkers, checker s = true → checker s' = true := by
    intro checker hmem hchecker
    rcases mem_checkers hmem with rfl | rfl | ⟨hon, rfl⟩
    · exact Checker.events_mono h hchecker
    · exact Checker.tokens_mono h hchecker
    · exact Checker.time_mono h hon hchecker
  unfold checker at *
  cases hmode : c.mode with
  | any =>
      simp only [hmode] at hs ⊢
      exact Checker.any_mono heach hs
  | all =>
      simp only [hmode] at hs ⊢
      exact Checker.all_mono heach hs

end SummaryConfig

end Transcript
