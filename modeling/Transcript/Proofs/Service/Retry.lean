import Transcript.Proofs.Service.Recount
import Transcript.Proofs.Time.Order
import Transcript.Proofs.Trigger.Checker

/-!
# A refused trigger is tried again

When an event makes a summary of its scope due, a job is requested, and nothing is kept of that but
the job. The job may be refused, for lack of room or because there is one already. But the counters
go on as if nothing had been requested, so the next event of the scope makes the summary due again,
and so does every event until a job of the scope has ended or its session is removed
(`Service.fires_again`).

Where a window may become too long there is an exception, in which a leap second is counted first
and left out later (`Service.leap_second_silences_trigger`).
-/

namespace Transcript

namespace Service

/-! ## The trigger of an append -/

section Trigger

variable {σ : Type} {s : Service σ} {scope : Scope}

/-- The scopes of which an event makes a summary due when it is appended to a session. -/
def triggers (s : Service σ) (key : SessionKey) (e : Event) : List Scope :=
  (scopesOf key e.branch).filter (s.fires e)

/-- An event makes a summary due in those of its scopes in which it fires. -/
theorem mem_triggers {key : SessionKey} {e : Event} :
    scope ∈ s.triggers key e ↔ scope ∈ scopesOf key e.branch ∧ s.fires e scope = true :=
  List.mem_filter

end Trigger

end Service

/-! ## While no job ends -/

/-- What is known about a scope goes on: there are as many events and tokens as before, or more, and
the window stays the same. -/
structure TriggerState.GoesOn (s s' : TriggerState) : Prop where
  events : s.events ≤ s'.events
  tokens : s.tokens ≤ s'.tokens
  window : ∀ start, s.windowStart = some start → s'.windowStart = some start

namespace Happening

variable {scope : Scope} {cost : TokenCounter}

/-- Unless a job of the scope ends or the session is removed, what is known about a scope goes
on. -/
theorem goes_on_recount {s : TriggerState} {h : Happening} (hopen : h.closes scope = false) :
    ∃ s', h.recount scope cost (some s) = some s' ∧ s.GoesOn s' := by
  have hrecounted := h.recounted scope cost (some s)
  unfold closes at hopen
  rw [Bool.or_eq_false_iff] at hopen
  generalize h.recount scope cost (some s) = account at hrecounted
  cases hrecounted with
  | event e hevent hend hforgets hintroduces =>
      refine ⟨_, rfl, Nat.le_succ _, Nat.le_add_right _ _, fun start hstart => ?_⟩
      show some (s.windowStart.getD _) = _
      rw [hstart, Option.getD_some]
  | ended time hevent hend hforgets hintroduces =>
      rw [hend] at hopen
      cases hopen.1
  | forgotten hforgets =>
      rw [hforgets] at hopen
      cases hopen.2
  | introduced hevent hend hforgets hintroduces =>
      exact ⟨s, rfl, Nat.le_refl _, Nat.le_refl _, fun _ h => h⟩
  | other hevent hend hforgets hintroduces =>
      exact ⟨s, rfl, Nat.le_refl _, Nat.le_refl _, fun _ h => h⟩

/-- The same over a history in which no job of the scope ends. -/
theorem goes_on_recount_all {history : List Happening}
    (hopen : ∀ h ∈ history, h.closes scope = false) (s : TriggerState) :
    ∃ s', history.foldl (recount scope cost) (some s) = some s' ∧ s.GoesOn s' := by
  induction history generalizing s with
  | nil => exact ⟨s, rfl, Nat.le_refl _, Nat.le_refl _, fun _ h => h⟩
  | cons h history ih =>
      obtain ⟨t, ht, hnext⟩ : ∃ t, h.recount scope cost (some s) = some t ∧ s.GoesOn t :=
        goes_on_recount (hopen h List.mem_cons_self)
      obtain ⟨s', hs', hlater⟩ := ih (fun h' hh => hopen h' (List.mem_cons_of_mem h hh)) t
      refine ⟨s', ?_, Nat.le_trans hnext.events hlater.events,
        Nat.le_trans hnext.tokens hlater.tokens, fun start hstart => ?_⟩
      · rw [List.foldl_cons, ht, hs']
      · exact hlater.window start (hnext.window start hstart)

end Happening

namespace Service

variable {σ : Type} [SummaryStore σ] {parts : ServiceParts σ} {first s s' : Service σ}
  {before since : List Happening} {key key' : SessionKey} {e e' : Event} {scope : Scope}

/-- The state of the scope of an event goes on from the append of the event, as long as no job of
the scope has ended and its session is not removed. -/
theorem state_goes_on (hcounted : scope ∈ scopesOf key e.branch)
    (hlater : Course (s.append key e).2 since s') (hopen : ∀ h ∈ since, h.closes scope = false) :
    ((s.state scope).record (s.cost e.message) e.timestamp).GoesOn (s'.state scope) := by
  have hstate (t : Service σ) : (t.state scope).withoutJobs = (t.pipeline.account scope).getD {} :=
    t.pipeline.counters.snapshot_without_jobs scope
  have happended : (s.append key e).2.pipeline.account scope =
      some ((s.state scope).withoutJobs.record (s.cost e.message) e.timestamp) := by
    rw [(s.append_spec key e).2, if_pos hcounted, hstate]
  have hsince := hlater.account_eq scope
  rw [happended] at hsince
  obtain ⟨b, hb, hgoes⟩ := Happening.goes_on_recount_all hopen
    ((s.state scope).withoutJobs.record (s.cost e.message) e.timestamp)
  rw [hb] at hsince
  have hfound : (s'.state scope).withoutJobs = b := by rw [hstate, hsince, Option.getD_some]
  subst hfound
  exact ⟨hgoes.events, hgoes.tokens, hgoes.window⟩

/-- When an event has made a summary of its scope due, every later event of the scope does so again,
until a job of the scope has ended or its session is removed, whatever has become of the jobs that
were requested. Timestamps must not go back and, where there is a threshold for the time, neither of
the two events lies in a leap second, nor does the start of the window. -/
theorem fires_again (hbuild : parts.build = .ok first) (hdefault : parts.checker = none)
    (hbefore : Course first before s) (hfired : scope ∈ s.triggers key e)
    (hlater : Course (s.append key e).2 since s') (hopen : ∀ h ∈ since, h.closes scope = false)
    (hcounted : scope ∈ scopesOf key' e'.branch) (horder : e.timestamp ≤ e'.timestamp)
    (hleap : 0 < parts.config.summary.config.timeThreshold →
      ∀ t ∈ [(s.state scope).windowStart.getD e.timestamp, e.timestamp, e'.timestamp],
        t.isLeap = false) :
    scope ∈ s'.triggers key' e' := by
  obtain ⟨hscope, hfires⟩ := mem_triggers.1 hfired
  obtain ⟨-, -, hconfig⟩ := ServiceParts.build_pipeline hbuild
  obtain ⟨hchecker, -⟩ := ServiceParts.build_checker hbuild
  rw [hdefault, Option.getD_none] at hchecker
  have hsettings : SameSettings s s' :=
    (Step.append s key e).settings.trans hlater.settings
  unfold fires at hfires
  rw [hbefore.settings.config, hconfig, hbefore.settings.checker, hchecker,
    Bool.and_eq_true] at hfires
  have hgoes := state_goes_on hscope hlater hopen
  have hwindow := hgoes.window _ rfl
  -- The events and tokens have not become fewer, and the window has begun at the same time.
  have hgrows : ((s.state scope).record (s.cost e.message) e.timestamp).Grows
      (0 < parts.config.summary.config.timeThreshold)
      ((s'.state scope).record (s'.cost e'.message) e'.timestamp) := by
    refine ⟨Nat.le_succ_of_le hgoes.events, Nat.le_add_right_of_le hgoes.tokens, fun hon => ?_⟩
    have hnone := hleap hon
    have hstart : ((s'.state scope).record (s'.cost e'.message) e'.timestamp).windowStart =
        some ((s.state scope).windowStart.getD e.timestamp) := by
      show some ((s'.state scope).windowStart.getD _) = _
      rw [hwindow, Option.getD_some]
    unfold TriggerState.elapsed
    rw [hstart]
    exact Timestamp.span_to_mono (hnone _ (by simp)) (hnone _ (by simp)) (hnone _ (by simp)) horder
  refine mem_triggers.2 ⟨hcounted, ?_⟩
  unfold fires
  rw [hsettings.config, hsettings.checker, hbefore.settings.config, hbefore.settings.checker,
    hconfig, hchecker, Bool.and_eq_true]
  exact ⟨hfires.1, SummaryConfig.checker_mono hgrows hfires.2⟩

end Service

/-! ## A service that sums up every hour -/

/-- Parts of a service that sums up when a window is longer than an hour. -/
def ServiceParts.hourly : ServiceParts MemoryStore :=
  { ServiceParts.terse with config.summary.config.timeThreshold := 3600 }

/-- A service that sums up when a window is longer than an hour. -/
def Service.hourly : Service MemoryStore :=
  { Service.terse with
    config := ServiceParts.hourly.config
    checker := ServiceParts.hourly.config.summary.config.checker }

/-- It is what is built from these parts. -/
theorem Service.build_hourly : ServiceParts.hourly.build = .ok Service.hourly :=
  ServiceParts.build_eq_ok_iff.2
    ⟨by decide +kernel, { template := conversationPlace }, by decide +kernel, rfl, rfl⟩

/-- Something that is said at a second, or so many nanoseconds behind its start. -/
def Event.sayingAt (seconds : Int) (nanos : Nat) : Event :=
  { Event.saying "x" with timestamp := ⟨seconds, nanos⟩ }

/-- A second after the hour an event makes a summary due. The pool is closed, so the job of the next
event is refused, but that event has made the summary due again. -/
theorem Service.fires_again_when_closed :
    let scope := Scope.whole .desk
    let s := (hourly.append .desk (.sayingAt 0 0)).2
    let s' := (s.append .desk (.sayingAt 3601 0)).2.onPipeline Pipeline.close
    scope ∈ s.triggers .desk (.sayingAt 3601 0) ∧ (s'.enqueue scope).1 = .dropped .closed ∧
      scope ∈ s'.triggers .desk (.sayingAt 3602 0) := by
  intro scope s s'
  have hbefore : Course hourly [.appended .desk (.sayingAt 0 0)] s :=
    .single (.append hourly .desk (.sayingAt 0 0))
  have hfired : scope ∈ s.triggers .desk (.sayingAt 3601 0) := by decide +kernel
  have hlater : Course (s.append .desk (.sayingAt 3601 0)).2 [] s' := .single (.close _)
  refine ⟨hfired, by decide +kernel, ?_⟩
  exact fires_again build_hourly rfl hbefore hfired hlater (by simp) (by decide +kernel)
    (by decide +kernel) fun _ => by decide +kernel

/-- An hour behind the first event comes a leap second, and an event in its midst makes a summary
due. The next event comes after the leap second, which is not counted then: the window is an hour
long and not longer. No job has ended and no session was removed, but no further job is put into the
queue. -/
theorem Service.leap_second_silences_trigger :
    let scope := Scope.whole .desk
    let s := (hourly.append .desk (.sayingAt 1483225200 0)).2
    let s' := (s.append .desk (.sayingAt 1483228799 1500000000)).2
    let next := Event.sayingAt 1483228800 0
    ServiceParts.hourly.build = .ok hourly ∧ ServiceParts.hourly.checker = none ∧
      Course hourly [.appended .desk (.sayingAt 1483225200 0)] s ∧
      scope ∈ s.triggers .desk (.sayingAt 1483228799 1500000000) ∧
      Course (s.append .desk (.sayingAt 1483228799 1500000000)).2 [] s' ∧
      (Event.sayingAt 1483225200 0).timestamp ≤ (Event.sayingAt 1483228799 1500000000).timestamp ∧
      (Event.sayingAt 1483228799 1500000000).timestamp ≤ next.timestamp ∧
      scope ∈ scopesOf .desk next.branch ∧ scope ∉ s'.triggers .desk next ∧
      s'.stats?.map PoolStats.enqueued = some 1 ∧
      (s'.append .desk next).2.stats?.map PoolStats.enqueued = some 1 := by
  intro scope s s' next
  refine ⟨build_hourly, rfl, .single (.append hourly .desk _), ?_, .start, ?_, ?_, ?_, ?_, ?_, ?_⟩
  · decide +kernel
  · decide +kernel
  · decide +kernel
  · decide +kernel
  · decide +kernel
  · decide +kernel
  · decide +kernel

end Transcript
