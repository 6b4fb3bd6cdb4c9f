import Transcript.Proofs.Pipeline.Moves
import Transcript.Proofs.Service.Course
import Transcript.Proofs.Service.Representation

/-!
# Which timeouts can be used

A configuration may give jobs any time but none at all. The deadline of a job is a point in time,
though, and the clock of a machine goes up to `Setup.clockLimit` only. Where the deadline would lie
behind that, a job breaks down before it has made a call. `Service.job_succeeds_iff` tells which
timeouts can be used, for jobs that have every reason to succeed, wherever the clock began to count
(`Setup.origin`).
-/

namespace Transcript

/-- A service has a configuration that can be worked with, and gives its jobs the time that this
says. -/
theorem ServiceParts.build_timeout {σ : Type} {parts : ServiceParts σ} {s : Service σ}
    (hbuild : parts.build = .ok s) :
    s.setup.timeout = .ofSeconds parts.config.pool.jobTimeout ∧ parts.config.validate = .ok () := by
  obtain ⟨hvalid, template, -, -, rfl⟩ := build_eq_ok_iff.1 hbuild
  exact ⟨rfl, hvalid⟩

/-- Whole seconds are added to the whole seconds of a span. -/
theorem Span.seconds_add_of_seconds (s : Span) (seconds : Nat) :
    (s + .ofSeconds seconds).seconds = s.seconds + seconds :=
  Nat.add_mul_div_left s.nanoseconds seconds (by decide)

/-- The clock goes as far as the deadline of a job that begins now. -/
theorem Setup.deadline_ne_none_iff {setup : Setup} {seconds : Nat}
    (htimeout : setup.timeout = .ofSeconds seconds) (clock : Nat) :
    setup.deadline? clock ≠ none ↔ (setup.reading clock).seconds + seconds < clockLimit := by
  unfold deadline?
  rw [htimeout, Span.seconds_add_of_seconds]
  simp

namespace Pipeline

variable {σ : Type} [SummaryStore σ] {setup : Setup} {p : Pipeline σ} {job : Job}

/-- The store and the model answer a job that begins now at once, and nothing goes wrong. The text
that the model writes is not blank. -/
structure AnswersAtOnce (setup : Setup) (p : Pipeline σ) (scope : Scope) (previous : Option Summary)
    (output : ModelOutput) : Prop where
  load : p.loadReply setup = { ending := .value () }
  found : SummaryStore.load p.store scope = .ok previous
  answer : p.answerReply setup scope previous = { ending := .value output }
  text : (Text.trim output.text).isEmpty = false
  store : setup.link.store (p.stores + 1) = { ending := .value () }
  kept : ∀ summary, (SummaryStore.store p.store scope summary).1 = .ok ()

/-- A call that takes no time is over now. -/
theorem within_at_once {α : Type} (a : α) (now deadline : Nat) :
    ({ ending := .value a } : Reply α).within now deadline = ⟨now, some (.value a)⟩ := rfl

/-- A job succeeds when the store has taken its summary. -/
theorem outcomes_of_stored {storing : Run} {summary : Summary}
    (hrun : p.run? storing.job.number = some storing) (hdue : storing.due = p.clock)
    (hstage : storing.stage = .storing summary (.value ()))
    (hkept : (SummaryStore.store p.store storing.job.scope summary).1 = .ok ()) :
    (p.advance setup storing.job.number).outcomes =
      p.outcomes ++ [(storing.job.number, .succeeded (some summary))] := by
  have houtcomes := (ends_stored setup p storing summary (.value ())).outcomes
  rw [hkept] at houtcomes
  rw [advance_of_due hrun (Nat.le_of_eq hdue)]
  unfold resume
  rw [hstage]
  exact houtcomes

/-- A job that has an answer of the model succeeds if the store takes its summary at once. -/
theorem outcomes_of_answered {asking : Run} {boundary : Nat} {output : ModelOutput}
    (hrun : p.run? asking.job.number = some asking) (hdue : asking.due = p.clock)
    (hstage : asking.stage = .asking boundary (some (.value output)))
    (htext : (Text.trim output.text).isEmpty = false)
    (hstore : setup.link.store (p.stores + 1) = { ending := .value () })
    (hkept : ∀ summary, (SummaryStore.store p.store asking.job.scope summary).1 = .ok ()) :
    ∃ summary, ((p.advance setup asking.job.number).advance setup asking.job.number).outcomes =
      p.outcomes ++ [(asking.job.number, .succeeded (some summary))] := by
  have hkeep : p.advance setup asking.job.number = p.keep setup asking boundary output := by
    rw [advance_of_due hrun (Nat.le_of_eq hdue)]
    unfold resume
    rw [hstage]
    rfl
  obtain ⟨-, storing, hjob, hdue', hstage', hgoes⟩ := goes_on_keep setup hrun boundary htext
  rw [hstore] at hdue' hstage'
  rw [hkeep, ← hjob, ← hgoes.outcomes]
  refine ⟨_, outcomes_of_stored hgoes.run (hdue'.trans hgoes.clock.symm) hstage' ?_⟩
  rw [hgoes.store, hjob]
  exact hkept _

/-- If the clock goes as far as the deadline of a job, it succeeds at once. -/
theorem succeeds_at_once {previous : Option Summary} {output : ModelOutput}
    (h : p.AnswersAtOnce setup job.scope previous output) (hnew : p.run? job.number = none)
    (hdeadline : setup.deadline? p.clock ≠ none) (byWorker : Bool) :
    ∃ summary, ((p.begin setup job byWorker).proceed setup job.number).outcomes =
      p.outcomes ++ [(job.number, .succeeded summary)] := by
  obtain ⟨hprompts, hstores, loading, rfl, -, hdue, hstage, hgoes⟩ :=
    goes_on_begin byWorker hnew (Setup.deadline_eq hdeadline)
  have hlog : (p.begin setup loading.job byWorker).log = p.log := (quiet_begin ..).log
  unfold proceed
  generalize p.begin setup loading.job byWorker = q at hprompts hstores hgoes hlog
  rw [h.load, within_at_once] at hdue hstage
  have hask : q.advance setup loading.job.number = q.ask setup loading previous := by
    rw [advance_of_due hgoes.run (by rw [hdue, hgoes.clock])]
    unfold resume
    rw [hstage]
    dsimp only
    rw [loaded_eq, hgoes.store, h.found]
    rfl
  rw [hask, ← hgoes.outcomes]
  by_cases hnews : q.news loading.job.scope previous = []
  · rw [ask_of_no_news hnews, advance_of_over (run_finish ..), advance_of_over (run_finish ..)]
    exact ⟨none, outcomes_finish ..⟩
  · obtain ⟨last, hlast⟩ := Option.isSome_iff_exists.1 (List.getLast?_isSome.2 hnews)
    have hanswer : q.answerReply setup loading.job.scope previous =
        p.answerReply setup loading.job.scope previous := by
      unfold answerReply prompt news
      rw [hprompts, hlog]
    obtain ⟨-, hstores', asking, hjob, hdue', hstage', hgoes'⟩ :=
      goes_on_ask setup hgoes.run hlast
    rw [hanswer, h.answer, within_at_once] at hdue' hstage'
    rw [← hjob, ← hgoes'.outcomes]
    obtain ⟨summary, houtcomes⟩ := outcomes_of_answered hgoes'.run (hdue'.trans hgoes'.clock.symm)
      hstage' h.text (by rw [hstores', hstores]; exact h.store) fun summary => by
        rw [hgoes'.store, hgoes.store, hjob]
        exact h.kept summary
    exact ⟨some summary, houtcomes⟩

/-- If it does not, the job breaks down before it has made a call. -/
theorem breaks_down (hdeadline : setup.deadline? p.clock = none) (byWorker : Bool) :
    ((p.begin setup job byWorker).proceed setup job.number).outcomes =
      p.outcomes ++
        [(job.number, brokenDown (some "overflow when adding duration to instant"))] := by
  unfold proceed begin
  rw [hdeadline]
  dsimp only
  have hover := run_finish setup p job byWorker
    (brokenDown (some "overflow when adding duration to instant"))
  rw [advance_of_over hover, advance_of_over hover, advance_of_over hover]
  exact outcomes_finish ..

end Pipeline

namespace Service

variable {σ : Type} [SummaryStore σ] {parts : ServiceParts σ} {first s : Service σ}
  {history : List Happening}

/-- Whatever has happened to a service before, whatever time its configuration gives to jobs, and
wherever the clock of the machine began to count: a job that the store and the model answer at once
and well succeeds exactly if the clock goes as far as its deadline. If it does not, computing the
deadline overflows, and the job fails. -/
theorem job_succeeds_iff (hbuild : parts.build = .ok first) (hcourse : Course first history s)
    {job : Job} {previous : Option Summary} {output : ModelOutput}
    (hnew : s.pipeline.run? job.number = none)
    (hanswers : s.pipeline.AnswersAtOnce s.setup job.scope previous output) (byWorker : Bool) :
    let p' := (s.pipeline.begin s.setup job byWorker).proceed s.setup job.number
    parts.config.validate = .ok () ∧
      ∃ outcome, p'.outcomes = s.pipeline.outcomes ++ [(job.number, outcome)] ∧
        (outcome.state = .succeeded ↔
          (s.setup.reading s.pipeline.clock).seconds + parts.config.pool.jobTimeout <
            Setup.clockLimit) ∧
        (outcome.state ≠ .succeeded →
          outcome = .failed "summary job panicked: overflow when adding duration to instant") := by
  intro p'
  obtain ⟨htimeout, hvalid⟩ := ServiceParts.build_timeout hbuild
  rw [← hcourse.settings.setup] at htimeout
  rw [← Setup.deadline_ne_none_iff htimeout]
  refine ⟨hvalid, ?_⟩
  by_cases hdeadline : s.setup.deadline? s.pipeline.clock = none
  · refine ⟨_, Pipeline.breaks_down hdeadline byWorker,
      iff_of_false nofun (not_not.2 hdeadline), ?_⟩
    exact fun _ => rfl
  · obtain ⟨summary, houtcomes⟩ := Pipeline.succeeds_at_once hanswers hnew hdeadline byWorker
    exact ⟨_, houtcomes, iff_of_true rfl hdeadline, fun h => absurd rfl h⟩

end Service

/-! ## A service with so many seconds for each job -/

/-- Parts of a service that gives jobs so many seconds, on a machine whose clock shows `origin`. -/
def ServiceParts.lasting (origin : Span) (seconds : Nat) : ServiceParts MemoryStore :=
  { ServiceParts.terse with
    config := ServiceParts.terse.config.withJobTimeout seconds
    origin }

namespace Service

/-- A service that gives jobs so many seconds, on a machine whose clock shows `origin`. -/
def lasting (origin : Span) (seconds : Nat) : Service MemoryStore :=
  { terse with
    config := (ServiceParts.lasting origin seconds).config
    setup.timeout := .ofSeconds seconds
    setup.origin := origin }

variable {origin : Span} {seconds : Nat}

/-- A configuration does not limit the time of jobs. -/
theorem validate_lasting (hseconds : seconds ≠ 0) :
    (ServiceParts.lasting origin seconds).config.validate = .ok () := by
  have hplace : PromptTemplate.hasPlace conversationPlace = true := by decide +kernel
  simp [Config.validate, Config.fault?, ServiceParts.lasting, Config.withJobTimeout,
    ServiceParts.terse, hplace, hseconds]

/-- The service is built from its parts. -/
theorem build_lasting (hseconds : seconds ≠ 0) :
    (ServiceParts.lasting origin seconds).build = .ok (lasting origin seconds) := by
  have hprompt : (ServiceParts.lasting origin seconds).config.summary.config.prompt =
      .ok { template := conversationPlace } := by
    show ServiceParts.terse.config.summary.config.prompt = _
    decide +kernel
  exact ServiceParts.build_eq_ok_iff.2 ⟨validate_lasting hseconds, _, hprompt, rfl, rfl⟩

/-- What such a service has after something was said. -/
def told (origin : Span) (seconds : Nat) : Service MemoryStore :=
  ((lasting origin seconds).append .desk (.saying "x")).2

/-- Its store and its model answer a first job at once. -/
theorem answers_at_once_told (origin : Span) (seconds : Nat) :
    (told origin seconds).pipeline.AnswersAtOnce (told origin seconds).setup (.whole .desk) none
      { text := "S" } where
  load := rfl
  found := rfl
  answer := rfl
  text := by decide +kernel
  store := rfl
  kept := fun _ => rfl

/-- The longest time for jobs that can be used on a machine whose clock has counted for a day when
the service has just begun. -/
theorem job_succeeds_iff_longest :
    let origin := Span.ofSeconds 86400
    let seconds := Setup.clockLimit - 86401
    let job : Job := ⟨1, .whole .desk, ⟨0, 0⟩, false⟩
    let s := told origin seconds
    (ServiceParts.lasting origin seconds).build = .ok (lasting origin seconds) ∧
      ∃ outcome, ((s.pipeline.begin s.setup job false).proceed s.setup 1).outcomes =
          [(1, outcome)] ∧
        outcome.state = .succeeded := by
  intro origin seconds job s
  have hbuild : (ServiceParts.lasting origin seconds).build = .ok (lasting origin seconds) :=
    build_lasting (by decide +kernel)
  have hcourse : Course (lasting origin seconds) _ s := .single (.append _ .desk (.saying "x"))
  have hnew : s.pipeline.run? job.number = none := rfl
  obtain ⟨-, outcome, houtcomes, hiff, -⟩ :=
    job_succeeds_iff hbuild hcourse hnew (answers_at_once_told origin seconds) false
  exact ⟨hbuild, outcome, houtcomes, hiff.2 (by decide +kernel)⟩

/-- A configuration with all the seconds that there can be, on a machine whose clock has only begun
to count. The configuration is accepted, and store and model answer at once, but the summary that a
caller forces fails. The model is not asked. -/
theorem most_seconds_fail :
    let origin : Span := ⟨0⟩
    let seconds := 0xFFFFFFFFFFFFFFFF
    let s := told origin seconds
    let (answer, s') := s.summarize (.whole .desk) true
    (ServiceParts.lasting origin seconds).config.validate = .ok () ∧
      (ServiceParts.lasting origin seconds).build = .ok (lasting origin seconds) ∧
      s.pipeline.AnswersAtOnce s.setup (.whole .desk) none { text := "S" } ∧
      answer =
        .error (.jobFailed "summary job panicked: overflow when adding duration to instant") ∧
      s'.pipeline.prompts = [] := by
  intro origin seconds s
  refine ⟨validate_lasting (by decide), build_lasting (by decide),
    answers_at_once_told origin seconds, ?_, ?_⟩
  · decide +kernel
  · decide +kernel

end Service

end Transcript
