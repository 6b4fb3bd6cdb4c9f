import Mathlib.Data.List.DropRight
import Transcript.Proofs.Service.Representation
import Transcript.Proofs.Service.Scheduling

/-!
# What the counters stand for

The counters of a scope are changed by events, by the ends of its jobs, by the removal of its
session, and by little else. So they can be told from the history of the service alone: one
happening after another is counted (`Service.Course.account_eq`), and what comes of that is said in
terms of the whole history (`Service.counters_tell_history`).
-/

namespace Transcript

namespace Happening

variable (scope : Scope)

/-- The event that comes in, if it is counted for the scope: it is one of the session and, unless
the scope is the whole session, on the very branch. -/
def event? : Happening → Option Event
  | .appended key e =>
    if scope.session = key ∧ (scope.filter = "" ∨ scope.filter = e.branch) then some e else none
  | _ => none

/-- When a job of the scope ends. -/
def end? : Happening → Option Timestamp
  | .ended job _ time => if scope = job.scope then some time else none
  | _ => none

/-- Whether the session of the scope is removed. -/
def forgets : Happening → Bool
  | .removed key => scope.session = key
  | _ => false

/-- Whether a job of the scope ends or its session is removed. -/
def closes (h : Happening) : Bool := (h.end? scope).isSome || h.forgets scope

/-- Whether the scope is known from then on: an event is counted for it, or a job is made. -/
def introduces (h : Happening) : Bool :=
  match h with
  | .appended _ _ => (h.event? scope).isSome
  | .requested other => scope = other
  | .forced job => scope = job.scope
  | _ => false

/-- What is known about the scope after a happening, apart from its jobs. -/
def recount (cost : TokenCounter) (account : Option TriggerState) : Happening → Option TriggerState
  | .appended key e =>
    if scope.session = key ∧ (scope.filter = "" ∨ scope.filter = e.branch) then
      some ((account.getD {}).record (cost e.message) e.timestamp)
    else account
  | .removed key => if scope.session = key then none else account
  | .requested other => if scope = other then some (account.getD {}) else account
  | .forced job => if scope = job.scope then some (account.getD {}) else account
  | .asked _ _ => account
  | .ended job _ time => if scope = job.scope then account.map (·.reset time) else account

end Happening

/-! ## Counting -/

section Counting

variable {σ : Type} [SummaryStore σ]

/-- What a turn of a job does to the accounts. -/
theorem Pipeline.Outturn.account_eq {setup : Setup} {p p' : Pipeline σ} {job : Job}
    {news : List Happening} (h : p.Outturn setup job news p') (scope : Scope)
    (cost : TokenCounter) :
    p'.account scope = news.foldl (Happening.recount scope cost) (p.account scope) := by
  cases h with
  | idle _ _ haccount => exact haccount scope
  | ended _ _ haccount => exact haccount scope
  | asked _ hjob _ _ hnews =>
      subst hjob
      obtain ⟨last, ending, due, -, hask⟩ := Pipeline.ask_of_news setup hnews
      rw [hask]
      rfl
  | kept => rfl
  | written => exact account_finish _ _ _ _ _ _
  | refused => exact account_finish _ _ _ _ _ _

namespace Service

variable {first s s' : Service σ} {history news : List Happening}

/-- What a step does to the accounts. -/
theorem Step.account_eq (h : Step s news s') (scope : Scope) :
    s'.pipeline.account scope =
      news.foldl (Happening.recount scope s.cost) (s.pipeline.account scope) := by
  cases h with
  | append key e =>
      rw [(s.append_spec key e).2]
      simp only [mem_scopes_of]
      rfl
  | remove key => exact s.pipeline.counters.account_forget scope key
  | enqueue other =>
      rw [(s.enqueue_spec other).2]
      cases (s.enqueue other).1.madeJob with
      | false => simp
      | true =>
          simp only [and_true, if_true]
          rfl
  | @force made other job hmodel hmade =>
      have hknown :=
        account_tracked_job hmade ((TriggerCounters.admits_iff _ _ _).2 (.inl rfl)) scope
      have hbegin : made.pipeline.Outturn s.setup job _ (made.pipeline.begin s.setup job false) :=
        Pipeline.outturn_begin (.refl _) rfl rfl rfl false
      obtain ⟨-, -, hscope⟩ := calm_tracked_job hmade
      refine (hbegin.account_eq scope s.cost).trans ?_
      rw [List.foldl_cons, hknown, ← hscope]
      rfl
  | turn hturn => exact hturn.outturn.account_eq scope s.cost
  | _ => rfl

/-- What is known about a scope is what one finds who counts the history. -/
theorem Course.account_eq (h : Course first history s) (scope : Scope) :
    s.pipeline.account scope =
      history.foldl (Happening.recount scope first.cost) (first.pipeline.account scope) := by
  induction h with
  | start => rfl
  | next hcourse hstep ih => rw [hstep.account_eq, hcourse.settings.cost, ih, List.foldl_append]

end Service

end Counting

/-! ## What the count comes to -/

/-- What has happened since the last happening of a kind. -/
def sinceLast (p : Happening → Bool) (history : List Happening) : List Happening :=
  history.rtakeWhile (!p ·)

/-- What has happened since the last of a kind, after one more happening. -/
theorem since_last_concat (p : Happening → Bool) (history : List Happening) (h : Happening) :
    sinceLast p (history ++ [h]) = if p h then [] else sinceLast p history ++ [h] := by
  unfold sinceLast
  rw [List.rtakeWhile_concat]
  cases p h <;> rfl

/-- The events that are counted for a scope. -/
def countedEvents (scope : Scope) (history : List Happening) : List Event :=
  history.filterMap (·.event? scope)

namespace Happening

/-- What a happening can be to a scope, with what is known about the scope afterwards. -/
inductive Recounted (scope : Scope) (cost : TokenCounter) (account : Option TriggerState)
    (h : Happening) : Option TriggerState → Prop where
  | event (e : Event) (hevent : h.event? scope = some e) (hend : h.end? scope = none)
      (hforgets : h.forgets scope = false) (hintroduces : h.introduces scope = true) :
      Recounted scope cost account h (some ((account.getD {}).record (cost e.message) e.timestamp))
  | ended (time : Timestamp) (hevent : h.event? scope = none) (hend : h.end? scope = some time)
      (hforgets : h.forgets scope = false) (hintroduces : h.introduces scope = false) :
      Recounted scope cost account h (account.map (·.reset time))
  | forgotten (hforgets : h.forgets scope = true) : Recounted scope cost account h none
  | introduced (hevent : h.event? scope = none) (hend : h.end? scope = none)
      (hforgets : h.forgets scope = false) (hintroduces : h.introduces scope = true) :
      Recounted scope cost account h (some (account.getD {}))
  | other (hevent : h.event? scope = none) (hend : h.end? scope = none)
      (hforgets : h.forgets scope = false) (hintroduces : h.introduces scope = false) :
      Recounted scope cost account h account

/-- These are all the ways in which a happening changes an account. -/
theorem recounted (scope : Scope) (cost : TokenCounter) (account : Option TriggerState)
    (h : Happening) : Recounted scope cost account h (h.recount scope cost account) := by
  cases h with
  | appended key e =>
      dsimp only [recount]
      split
      · rename_i hcounted
        have hevent : event? scope (.appended key e) = some e := if_pos hcounted
        exact .event e hevent rfl rfl (Option.isSome_of_eq_some hevent)
      · rename_i hcounted
        have hevent : event? scope (.appended key e) = none := if_neg hcounted
        exact .other hevent rfl rfl (congrArg Option.isSome hevent)
  | removed key =>
      dsimp only [recount]
      split
      · rename_i hkey
        exact .forgotten (decide_eq_true hkey)
      · rename_i hkey
        exact .other rfl rfl (decide_eq_false hkey) rfl
  | requested other =>
      dsimp only [recount]
      split
      · rename_i hscope
        exact .introduced rfl rfl rfl (decide_eq_true hscope)
      · rename_i hscope
        exact .other rfl rfl rfl (decide_eq_false hscope)
  | forced job =>
      dsimp only [recount]
      split
      · rename_i hscope
        exact .introduced rfl rfl rfl (decide_eq_true hscope)
      · rename_i hscope
        exact .other rfl rfl rfl (decide_eq_false hscope)
  | asked job prompt => exact .other rfl rfl rfl rfl
  | ended job outcome time =>
      dsimp only [recount]
      split
      · rename_i hscope
        exact .ended time rfl (if_pos hscope) rfl rfl
      · rename_i hscope
        exact .other rfl (if_neg hscope) rfl rfl

end Happening

/-- The times at which jobs of a scope have ended while the scope was known. -/
def knownEnds (scope : Scope) (history : List Happening) : List Timestamp :=
  (history.dropWhile (!·.introduces scope)).filterMap (·.end? scope)

/-- Once a scope is known, the ends of its jobs are added. Nothing makes a scope known and ends a
job of it at the same time. -/
theorem known_ends_concat (scope : Scope) (history : List Happening) {h : Happening}
    (hend : h.introduces scope = true → h.end? scope = none) :
    knownEnds scope (history ++ [h]) =
      knownEnds scope history ++
        if history.any (·.introduces scope) then (h.end? scope).toList else [] := by
  have hempty : (history.dropWhile (!·.introduces scope)).isEmpty =
      !history.any (·.introduces scope) := by
    rw [Bool.eq_iff_iff, List.isEmpty_iff, List.dropWhile_eq_nil_iff]
    simp
  unfold knownEnds
  rw [List.dropWhile_append, hempty]
  cases hknown : history.any (·.introduces scope) with
  | true =>
      rw [if_neg (by simp), List.filterMap_append, if_pos rfl]
      cases hh : h.end? scope <;> simp [hh]
  | false =>
      rw [hknown, Bool.not_false, List.isEmpty_iff] at hempty
      rw [if_pos (by simp), hempty]
      cases hintroduces : h.introduces scope with
      | true => simp [hintroduces, hend hintroduces]
      | false => simp [hintroduces]

/-- A happening that is no end of a job in the scope adds none. -/
theorem known_ends_concat_of_no_end (scope : Scope) (history : List Happening) {h : Happening}
    (hend : h.end? scope = none) : knownEnds scope (history ++ [h]) = knownEnds scope history := by
  rw [known_ends_concat scope history fun _ => hend, hend, Option.toList_none, ite_self,
    List.append_nil]

/-- A happening that is no event of the scope adds none. -/
theorem counted_events_concat_of_no_event (scope : Scope) (history : List Happening) {h : Happening}
    (hevent : h.event? scope = none) :
    countedEvents scope (history ++ [h]) = countedEvents scope history := by
  simp [countedEvents, hevent]

/-- What is known about a scope, told in terms of a history at the beginning of which it was
unknown. -/
structure Told (scope : Scope) (cost : TokenCounter) (history : List Happening) (known : Bool)
    (state : TriggerState) : Prop where
  /-- The scope is known if an event was counted for it or a job of it was made, since its session
  was last removed. -/
  known : known = (sinceLast (·.forgets scope) history).any (·.introduces scope)
  /-- The events are those that were counted since a job of the scope has ended last, or since its
  session was last removed, if that came later. -/
  events : state.events = (countedEvents scope (sinceLast (·.closes scope) history)).length
  /-- The tokens are those of the same events. -/
  tokens : state.tokens =
    sumOver (fun e => cost e.message) (countedEvents scope (sinceLast (·.closes scope) history))
  /-- The window goes back to the time at which a job of the scope has ended last while the scope
  was known, since the session was last removed, or else to the first event since then. -/
  windowStart : state.windowStart =
    (knownEnds scope (sinceLast (·.forgets scope) history)).getLast?.or
      ((countedEvents scope (sinceLast (·.forgets scope) history)).head?.map Event.timestamp)
  /-- The latest event is that since the last removal, whatever jobs have ended. -/
  lastEvent : state.lastEvent =
    (countedEvents scope (sinceLast (·.forgets scope) history)).getLast?.map Event.timestamp

namespace Told

variable {scope : Scope} {cost : TokenCounter} {history : List Happening}
  {account account' : Option TriggerState}

/-- At first nothing is known, and there is nothing to tell. -/
theorem start : Told scope cost [] false {} := ⟨rfl, rfl, rfl, rfl, rfl⟩

section Cases

variable {h : Happening}

/-- An event of the scope is counted. -/
theorem event (told : Told scope cost history account.isSome (account.getD {})) {e : Event}
    (hevent : h.event? scope = some e) (hend : h.end? scope = none)
    (hforgets : h.forgets scope = false) (hintroduces : h.introduces scope = true) :
    Told scope cost (history ++ [h]) true
      ((account.getD {}).record (cost e.message) e.timestamp) := by
  have hcloses : h.closes scope = false := by simp [Happening.closes, hend, hforgets]
  have hcounted (recent : List Happening) :
      countedEvents scope (recent ++ [h]) = countedEvents scope recent ++ [e] := by
    simp [countedEvents, hevent]
  refine ⟨?_, ?_, ?_, ?_, ?_⟩ <;>
    simp only [since_last_concat, hforgets, hcloses, Bool.false_eq_true, if_false, hcounted,
      TriggerState.record]
  · simp [hintroduces]
  · rw [told.events, List.length_append, List.length_singleton]
  · rw [told.tokens, sum_over_append]
    rfl
  · -- A window that is open stays open, and without one the event is the first one.
    rw [told.windowStart, known_ends_concat_of_no_end _ _ hend, List.head?_append]
    generalize (knownEnds scope _).getLast? = ended
    generalize (countedEvents scope _).head? = earliest
    cases ended <;> cases earliest <;> rfl
  · rw [List.getLast?_concat, Option.map_some]

/-- A job of the scope ends. If the scope is not known, nothing comes of that. -/
theorem ended (told : Told scope cost history account.isSome (account.getD {})) {time : Timestamp}
    (hevent : h.event? scope = none) (hend : h.end? scope = some time)
    (hforgets : h.forgets scope = false) (hintroduces : h.introduces scope = false) :
    Told scope cost (history ++ [h]) (account.map (·.reset time)).isSome
      ((account.map (·.reset time)).getD {}) := by
  have hcloses : h.closes scope = true := by simp [Happening.closes, hend]
  have hcounted (recent : List Happening) := counted_events_concat_of_no_event scope recent hevent
  have hnever : h.introduces scope = true → h.end? scope = none :=
    fun hknown => absurd hknown (by simp [hintroduces])
  have hends := known_ends_concat scope (sinceLast (·.forgets scope) history) hnever
  rw [← told.known, hend] at hends
  refine ⟨?_, ?_, ?_, ?_, ?_⟩ <;>
    simp only [since_last_concat, hforgets, hcloses, Bool.false_eq_true, if_false,
      if_true, hcounted]
  · simp [hintroduces, told.known]
  · cases account <;> rfl
  · cases account <;> rfl
  · rw [hends]
    cases account with
    | none => simpa using told.windowStart
    | some s => simp [TriggerState.reset]
  · rw [← told.lastEvent]
    cases account <;> rfl

/-- The session is removed. -/
theorem forgotten (hforgets : h.forgets scope = true) :
    Told scope cost (history ++ [h]) false {} := by
  have hcloses : h.closes scope = true := by simp [Happening.closes, hforgets]
  refine ⟨?_, ?_, ?_, ?_, ?_⟩ <;> simp only [since_last_concat, hforgets, hcloses, if_true] <;> rfl

/-- Nothing happens but that the scope is known from then on, at most. -/
theorem uncounted {known : Bool} {state : TriggerState} (told : Told scope cost history known state)
    (hevent : h.event? scope = none) (hend : h.end? scope = none)
    (hforgets : h.forgets scope = false) :
    Told scope cost (history ++ [h]) (known || h.introduces scope) state := by
  have hcloses : h.closes scope = false := by simp [Happening.closes, hend, hforgets]
  refine ⟨?_, ?_, ?_, ?_, ?_⟩ <;>
    simp only [since_last_concat, hforgets, hcloses, Bool.false_eq_true, if_false,
      counted_events_concat_of_no_event _ _ hevent, known_ends_concat_of_no_end _ _ hend]
  · simp [told.known]
  · exact told.events
  · exact told.tokens
  · exact told.windowStart
  · exact told.lastEvent

end Cases

/-- One more happening is counted. -/
theorem next (told : Told scope cost history account.isSome (account.getD {})) {h : Happening}
    (hrecounted : h.Recounted scope cost account account') :
    Told scope cost (history ++ [h]) account'.isSome (account'.getD {}) := by
  cases hrecounted with
  | event e hevent hend hforgets hintroduces => exact told.event hevent hend hforgets hintroduces
  | ended time hevent hend hforgets hintroduces => exact told.ended hevent hend hforgets hintroduces
  | forgotten hforgets => exact forgotten hforgets
  | introduced hevent hend hforgets hintroduces =>
      have hknown := told.uncounted hevent hend hforgets
      rwa [hintroduces, Bool.or_true] at hknown
  | other hevent hend hforgets hintroduces =>
      have hsame := told.uncounted hevent hend hforgets
      rwa [hintroduces, Bool.or_false] at hsame

/-- All happenings are counted, one after the other. -/
theorem of_recount (scope : Scope) (cost : TokenCounter) (history : List Happening) :
    Told scope cost history (history.foldl (Happening.recount scope cost) none).isSome
      ((history.foldl (Happening.recount scope cost) none).getD {}) := by
  induction history using List.reverseRecOn with
  | nil => exact .start
  | append_singleton history h ih =>
      rw [List.foldl_append]
      exact ih.next (h.recounted scope cost _)

/-- The number of jobs plays no part in it. -/
theorem of_without_jobs {known : Bool} {state state' : TriggerState}
    (told : Told scope cost history known state) (hsame : state'.withoutJobs = state) :
    Told scope cost history known state' := by
  subst hsame
  exact ⟨told.known, told.events, told.tokens, told.windowStart, told.lastEvent⟩

end Told

namespace Service

variable {σ : Type} [SummaryStore σ] {parts : ServiceParts σ} {first s : Service σ}
  {history : List Happening}

/-- At any time, the counters of every scope are what the history of the service comes to. A request
for a job changes nothing but the number of jobs, whether the job is let into the queue or dropped
or there is none, and neither does it if a worker gives a job up or the workers are stopped in the
midst of their jobs. -/
theorem counters_tell_history (hbuild : parts.build = .ok first) (hcourse : Course first history s)
    (scope : Scope) :
    Told scope parts.cost history (s.pipeline.counters.knows scope) (s.state scope) ∧
      (∀ other, ((s.enqueue other).2.state scope).withoutJobs = (s.state scope).withoutJobs) ∧
      (s.pipeline.isClosing = true →
        (∀ job, ((s.pipeline.take s.setup job).counters.snapshot scope).withoutJobs =
          (s.state scope).withoutJobs) ∧
        (s.pipeline.abort.counters.snapshot scope).withoutJobs = (s.state scope).withoutJobs) := by
  have hstate (p : Pipeline σ) : (p.counters.snapshot scope).withoutJobs =
      (p.account scope).getD {} :=
    p.counters.snapshot_without_jobs scope
  refine ⟨?_, fun other => ?_, fun hclosing => ⟨fun job => ?_, rfl⟩⟩
  · obtain ⟨hpipeline, -, -⟩ := ServiceParts.build_pipeline hbuild
    have hunknown : first.pipeline.account scope = none := by
      rw [hpipeline]
      exact TriggerCounters.account_empty scope
    have haccount := hcourse.account_eq scope
    rw [hunknown, (ServiceParts.build_checker hbuild).2] at haccount
    have htold := Told.of_recount scope parts.cost history
    rw [← haccount] at htold
    have hknown : (s.pipeline.account scope).isSome = s.pipeline.counters.knows scope :=
      Option.isSome_map
    rw [hknown] at htold
    exact htold.of_without_jobs (hstate s.pipeline)
  · refine (hstate _).trans (Eq.trans ?_ (hstate s.pipeline).symm)
    rw [(s.enqueue_spec other).2]
    split
    · rfl
    · rfl
  · rw [hstate, Pipeline.take_of_closing s.setup _ job hclosing, Pipeline.account_release]
    exact (hstate s.pipeline).symm

/-- On a branch with two events a job has ended between them. Its window begins then, and the second
event is the only one that counts. -/
theorem counters_tell_history_of_branch :
    let scope : Scope := ⟨.desk, "plan"⟩
    let s := terse.performAll
      [.append .desk { Event.saying "x" with branch := "plan" }, .sleep 5000, .enqueue scope,
        .sleep 10,
        .append .desk { Event.saying "a word" with branch := "plan", timestamp := ⟨7, 0⟩ }]
    ∃ history, Course terse history s ∧
      Told scope TokenCounter.standard history (s.pipeline.counters.knows scope) (s.state scope) ∧
      s.state scope =
        { events := 1, tokens := 1, windowStart := some ⟨5, 0⟩, lastEvent := some ⟨7, 0⟩ } := by
  intro scope s
  obtain ⟨history, hcourse, -⟩ := exists_course build_terse
    [.append .desk { Event.saying "x" with branch := "plan" }, .sleep 5000, .enqueue scope,
      .sleep 10, .append .desk { Event.saying "a word" with branch := "plan", timestamp := ⟨7, 0⟩ }]
  obtain ⟨htold, -⟩ := counters_tell_history build_terse hcourse scope
  exact ⟨history, hcourse, htold, by decide +kernel⟩

end Service

end Transcript
