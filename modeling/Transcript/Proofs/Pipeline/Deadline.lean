import Transcript.Proofs.Pipeline.Moves
import Transcript.Proofs.Session.Numbering

/-!
# The deadline of a job

A job has one deadline for two calls: it has to load the last summary, and with what is then left of
its time to get an answer of the model. How long it takes to store the new summary does not matter.

Between its moves a job waits, and meanwhile others may do anything (`Pipeline.Waits`). From its
begin to its end there are four ways (`Pipeline.Concluded`), and which of them it goes is told by
how long its first two calls take (`Pipeline.deadline_spans_load_and_answer`).
-/

namespace Transcript.Pipeline

variable {σ : Type}

/-! ## A job that waits -/

/-- While a job waits for a call, others may do anything but touch its run. Then the call is just
over. -/
structure Waits (number : Nat) (p q : Pipeline σ) : Prop where
  run : q.run? number = p.run? number
  clock : ∀ run, q.run? number = some run → q.clock = run.due

/-- It is enough to know when the call of the run is over. -/
theorem Waits.of_due {number : Nat} {p q : Pipeline σ} (hrun : q.run? number = p.run? number)
    (hdue : (q.run? number).map Run.due = some q.clock) : Waits number p q := by
  refine ⟨hrun, fun run hfound => ?_⟩
  rw [hfound] at hdue
  exact (Option.some.inj hdue).symm

/-- A job has ended by now, and in its last moves it has told of nothing but that, once. -/
structure Over (job : Job) (outcome : Outcome) (told : List Happening) (p : Pipeline σ) : Prop where
  told : ∃ time, told = [.ended job outcome time]
  run : p.run? job.number = none

section Waits

variable [SummaryStore σ] {setup : Setup} {p q : Pipeline σ} {job : Job} {run : Run}
  {outcome : Outcome} {told : List Happening}

/-- When the call is over the job goes on. -/
theorem Waits.advance_eq {number : Nat} (h : Waits number p q) (setup : Setup)
    (hrun : p.run? number = some run) :
    q.run? number = some run ∧ q.clock = run.due ∧ q.advance setup number = q.resume setup run := by
  have hfound := h.run.trans hrun
  have hclock := h.clock run hfound
  exact ⟨hfound, hclock, advance_of_due hfound (Nat.le_of_eq hclock.symm)⟩

omit [SummaryStore σ] in
/-- A move in which a job ends tells of nothing but that. -/
theorem Ends.over (h : Ends job outcome p q) : Over job outcome (p.report setup job q) q :=
  ⟨⟨_, report_of_ended h.prompts h.outcomes⟩, h.run⟩

/-- A job that has ended has nothing to wait for, and does nothing. -/
theorem Over.wait (h : Over job outcome told p) (hwaits : Waits job.number p q) :
    q.advance setup job.number = q ∧
      Over job outcome (told ++ q.report setup job (q.advance setup job.number))
        (q.advance setup job.number) := by
  have hover := hwaits.run.trans h.run
  rw [advance_of_over hover, report_of_same rfl rfl, List.append_nil]
  exact ⟨rfl, h.told, hover⟩

/-- When the model has answered, the job has to store the summary at most, however long that
takes. -/
theorem over_of_answer (hrun : p.run? run.job.number = some run) (boundary : Nat)
    (answer : Ending ModelOutput)
    (hwaits : Waits run.job.number (p.answered setup run boundary (some answer)) q) :
    Over run.job
      (Responses.outcomeOfAnswer setup.summarizer.name boundary (p.now setup)
        (fun summary => (setup.link.store (p.stores + 1)).ending.through
          (SummaryStore.store q.store run.job.scope summary).1) answer)
      (p.report setup run.job (p.answered setup run boundary (some answer)) ++
        q.report setup run.job (q.advance setup run.job.number))
      (q.advance setup run.job.number) := by
  cases answer with
  | error reason => exact ((ends_finish ..).over.wait hwaits).2
  | panic message => exact ((ends_finish ..).over.wait hwaits).2
  | value output =>
      unfold Responses.outcomeOfAnswer
      cases htext : (Text.trim output.text).isEmpty with
      | true =>
          have hblank : p.answered setup run boundary (some (.value output)) =
              p.finish setup run.job run.byWorker
                (.failed (setup.summarizer.name ++ " returned an empty summary")) := by
            unfold answered keep
            simp only [htext, if_true]
          simp only [hblank, htext, if_true] at hwaits ⊢
          exact ((ends_finish ..).over.wait hwaits).2
      | false =>
          obtain ⟨hprompts, storing, hjob, -, hstage, hgoes⟩ :=
            goes_on_keep setup hrun boundary htext
          have hsilent :
              p.report setup run.job (p.answered setup run boundary (some (.value output))) = [] :=
            report_of_same hprompts hgoes.outcomes
          obtain ⟨-, -, hresume⟩ := hwaits.advance_eq setup (hjob ▸ hgoes.run)
          unfold resume at hresume
          rw [hstage] at hresume
          have hends := ends_stored setup q storing
            ⟨Text.trim output.text, boundary, p.now setup, output.usage⟩
            (setup.link.store (p.stores + 1)).ending
          rw [hjob] at hends
          simp only [hsilent, htext, List.nil_append, Bool.false_eq_true, if_false, hresume]
          exact hends.over

end Waits

/-! ## A job from its begin to its end -/

section Concluded

variable [SummaryStore σ]

/-- What becomes of the calls of a job that begins in `p`, has loaded the last summary in `q₁`, has
the answer of the model in `q₂`, and has stored its summary in `q₃`. -/
def responses (setup : Setup) (scope : Scope) (p q₁ q₂ q₃ : Pipeline σ) : Responses where
  loaded := (p.loadReply setup).ending.through (SummaryStore.load q₁.store scope)
  news previous := q₁.news scope previous
  answer previous := (q₁.answerReply setup scope previous).ending
  answeredAt := q₂.now setup
  stored summary :=
    (setup.link.store (q₂.stores + 1)).ending.through (SummaryStore.store q₃.store scope summary).1

/-- What a job has told in its three moves: it has given the model some prompts, and then it has
ended. -/
structure Tells (setup : Setup) (job : Job) (q₁ q₂ q₃ : Pipeline σ) (prompts : List String)
    (outcome : Outcome) : Prop where
  told : ∃ time, q₁.report setup job (q₁.advance setup job.number) ++
    q₂.report setup job (q₂.advance setup job.number) ++
    q₃.report setup job (q₃.advance setup job.number) =
      prompts.map (.asked job) ++ [.ended job outcome time]
  run : (q₃.advance setup job.number).run? job.number = none

/-- It has called the store in none of its moves to store something. -/
def Unwritten (setup : Setup) (job : Job) (q₁ q₂ q₃ : Pipeline σ) : Prop :=
  ∀ q ∈ [q₁, q₂, q₃], Unstored q (q.advance setup job.number)

/-- How a job can come to its end. Its time may run out while the last summary is loaded
(`lateLoad`) or while the model is asked (`lateAnswer`). If neither happens it has not asked the
model, because the last summary cannot be loaded or nothing is new (`unasked`), or it has an answer
in time (`answered`). -/
inductive Concluded (setup : Setup) (job : Job) (p q₁ q₂ q₃ : Pipeline σ) : Prop where
  | lateLoad (hlate : setup.timeout.milliseconds < (p.loadReply setup).delay)
      (htells : Tells setup job q₁ q₂ q₃ [] (.timedOut setup.timeout))
      (hkept : Unwritten setup job q₁ q₂ q₃)
  | unasked (hload : (p.loadReply setup).delay ≤ setup.timeout.milliseconds)
      (hnone : ∀ previous, (responses setup job.scope p q₁ q₂ q₃).loaded = .value previous →
        q₁.news job.scope previous = [])
      (htells : Tells setup job q₁ q₂ q₃ []
        ((responses setup job.scope p q₁ q₂ q₃).outcome setup.summarizer.name))
  | lateAnswer {previous : Option Summary}
      (hload : (p.loadReply setup).delay ≤ setup.timeout.milliseconds)
      (hloaded : (responses setup job.scope p q₁ q₂ q₃).loaded = .value previous)
      (hnews : q₁.news job.scope previous ≠ [])
      (hlate : setup.timeout.milliseconds <
        (p.loadReply setup).delay + (q₁.answerReply setup job.scope previous).delay)
      (htells : Tells setup job q₁ q₂ q₃ [q₁.prompt setup job.scope previous]
        (.timedOut setup.timeout))
      (hkept : Unwritten setup job q₁ q₂ q₃)
  | answered {previous : Option Summary}
      (hload : (p.loadReply setup).delay ≤ setup.timeout.milliseconds)
      (hloaded : (responses setup job.scope p q₁ q₂ q₃).loaded = .value previous)
      (hnews : q₁.news job.scope previous ≠ [])
      (hanswer : (p.loadReply setup).delay + (q₁.answerReply setup job.scope previous).delay ≤
        setup.timeout.milliseconds)
      (htells : Tells setup job q₁ q₂ q₃ [q₁.prompt setup job.scope previous]
        ((responses setup job.scope p q₁ q₂ q₃).outcome setup.summarizer.name))

variable {setup : Setup} {p q₁ q₂ q₃ : Pipeline σ} {job : Job} {byWorker : Bool} {outcome : Outcome}

/-- A job that ends in its first move does nothing in the others. -/
theorem Ends.tells (h : Ends job outcome q₁ (q₁.advance setup job.number))
    (hkept : Unstored q₁ (q₁.advance setup job.number))
    (h₂ : Waits job.number (q₁.advance setup job.number) q₂)
    (h₃ : Waits job.number (q₂.advance setup job.number) q₃) :
    Tells setup job q₁ q₂ q₃ [] outcome ∧ Unwritten setup job q₁ q₂ q₃ := by
  obtain ⟨hsame₂, hover₂⟩ := h.over.wait h₂
  obtain ⟨hsame₃, hover₃⟩ := hover₂.wait h₃
  refine ⟨⟨hover₃.told, hover₃.run⟩, ?_⟩
  unfold Unwritten
  rw [List.forall_mem_cons, List.forall_mem_cons, List.forall_mem_singleton, hsame₂, hsame₃]
  exact ⟨hkept, ⟨rfl, rfl⟩, ⟨rfl, rfl⟩⟩

/-- A job that has asked the model tells of its end later. -/
theorem Over.tells {prompt : String}
    (hasked : q₁.report setup job (q₁.advance setup job.number) = [.asked job prompt])
    (h : Over job outcome (q₂.report setup job (q₂.advance setup job.number) ++
      q₃.report setup job (q₃.advance setup job.number)) (q₃.advance setup job.number)) :
    Tells setup job q₁ q₂ q₃ [prompt] outcome := by
  obtain ⟨time, htold⟩ := h.told
  refine ⟨⟨time, ?_⟩, h.run⟩
  rw [hasked, List.append_assoc, htold]
  rfl

/-- A job that asks the model has what its time has left after the last summary has been loaded. -/
theorem concluded_of_ask {run : Run} {previous : Option Summary}
    (hload : (p.loadReply setup).delay ≤ setup.timeout.milliseconds)
    (hclock : q₁.clock = p.clock + (p.loadReply setup).delay)
    (hdeadline : run.deadline = p.clock + setup.timeout.milliseconds)
    (hrun : q₁.run? run.job.number = some run)
    (hloaded : (responses setup run.job.scope p q₁ q₂ q₃).loaded = .value previous)
    (hnews : q₁.news run.job.scope previous ≠ [])
    (hfirst : q₁.advance setup run.job.number = q₁.ask setup run previous)
    (h₂ : Waits run.job.number (q₁.advance setup run.job.number) q₂)
    (h₃ : Waits run.job.number (q₂.advance setup run.job.number) q₃) :
    Concluded setup run.job p q₁ q₂ q₃ := by
  obtain ⟨last, hlast⟩ := Option.isSome_iff_exists.1 (List.getLast?_isSome.2 hnews)
  obtain ⟨hprompts, hstores, asking, hjob, -, hstage, hgoes⟩ := goes_on_ask setup hrun hlast
  rw [← hfirst] at hprompts hstores hgoes
  have hasked : q₁.report setup run.job (q₁.advance setup run.job.number) =
      [.asked run.job (q₁.prompt setup run.job.scope previous)] :=
    report_of_asked hprompts hgoes.outcomes
  have hkept₁ : Unstored q₁ (q₁.advance setup run.job.number) := ⟨hgoes.store, hstores⟩
  obtain ⟨hfound, -, hresume⟩ := h₂.advance_eq setup (hjob ▸ hgoes.run)
  have hsecond : q₂.advance setup run.job.number = q₂.answered setup asking last.id
      ((q₁.answerReply setup run.job.scope previous).within q₁.clock run.deadline).ending := by
    rw [hresume]
    unfold resume
    rw [hstage]
  by_cases hlate : setup.timeout.milliseconds <
      (p.loadReply setup).delay + (q₁.answerReply setup run.job.scope previous).delay
  · rw [Reply.within_of_late (by omega) (by omega)] at hsecond
    have hends : Ends run.job (.timedOut setup.timeout) q₂
        (q₂.advance setup run.job.number) := hsecond ▸ hjob ▸ ends_finish ..
    have hkept₂ : Unstored q₂ (q₂.advance setup run.job.number) := hsecond ▸ unstored_finish ..
    obtain ⟨hsame₃, hover⟩ := hends.over.wait h₃
    refine .lateAnswer hload hloaded hnews hlate (hover.tells hasked) ?_
    unfold Unwritten
    rw [List.forall_mem_cons, List.forall_mem_cons, List.forall_mem_singleton, hsame₃]
    exact ⟨hkept₁, hkept₂, ⟨rfl, rfl⟩⟩
  · rw [Reply.within_in_time (by omega)] at hsecond
    rw [← hjob] at hfound hsecond h₃
    rw [hsecond] at h₃
    have hover := over_of_answer hfound last.id _ h₃
    rw [← hsecond, hjob] at hover
    refine .answered hload hloaded hnews (Nat.not_lt.1 hlate) (Over.tells hasked ?_)
    rw [Responses.outcome_of_news setup.summarizer.name hloaded hlast]
    exact hover

/-- A job that has begun comes to its end after three calls at most. -/
theorem concluded (hnew : p.run? job.number = none) (hdeadline : setup.deadline? p.clock ≠ none)
    (h₁ : Waits job.number (p.begin setup job byWorker) q₁)
    (h₂ : Waits job.number (q₁.advance setup job.number) q₂)
    (h₃ : Waits job.number (q₂.advance setup job.number) q₃) : Concluded setup job p q₁ q₂ q₃ := by
  obtain ⟨-, -, loading, rfl, htime, hdue, hstage, hgoes⟩ :=
    goes_on_begin byWorker hnew (Setup.deadline_eq hdeadline)
  obtain ⟨hfound, hclock, hresume⟩ := h₁.advance_eq setup hgoes.run
  have hfirst : q₁.advance setup loading.job.number = q₁.loaded setup loading
      ((p.loadReply setup).within p.clock (p.clock + setup.timeout.milliseconds)).ending := by
    rw [hresume]
    unfold resume
    rw [hstage]
  have hends {outcome : Outcome} (hfinish : q₁.advance setup loading.job.number =
      q₁.finish setup loading.job loading.byWorker outcome) :
      Tells setup loading.job q₁ q₂ q₃ [] outcome ∧ Unwritten setup loading.job q₁ q₂ q₃ :=
    Ends.tells (by rw [hfinish]; exact ends_finish ..)
      (by rw [hfinish]; exact unstored_finish ..) h₂ h₃
  by_cases hlate : setup.timeout.milliseconds < (p.loadReply setup).delay
  · rw [Reply.within_of_late (by omega) (by omega)] at hfirst
    obtain ⟨htells, hkept⟩ := hends hfirst
    exact .lateLoad hlate htells hkept
  · have hload := Nat.not_lt.1 hlate
    rw [hdue, Reply.within_in_time (by omega)] at hclock
    rw [Reply.within_in_time (by omega), loaded_eq] at hfirst
    generalize hresult : (p.loadReply setup).ending.through
      (SummaryStore.load q₁.store loading.job.scope) = result at hfirst
    have hloaded : (responses setup loading.job.scope p q₁ q₂ q₃).loaded = result := hresult
    cases result with
    | value previous =>
        by_cases hnews : q₁.news loading.job.scope previous = []
        · obtain ⟨htells, -⟩ := hends (hfirst.trans (ask_of_no_news hnews))
          refine .unasked hload (fun other hother => ?_) ?_
          · cases hloaded.symm.trans hother
            exact hnews
          · rwa [Responses.outcome_of_no_news _ hloaded hnews]
        · exact concluded_of_ask hload hclock htime hfound hloaded hnews hfirst h₂ h₃
    | error reason =>
        refine .unasked hload (fun other hother => ?_) ?_
        · cases hloaded.symm.trans hother
        · unfold Responses.outcome
          rw [hloaded]
          exact (hends hfirst).1
    | panic message =>
        refine .unasked hload (fun other hother => ?_) ?_
        · cases hloaded.symm.trans hother
        · unfold Responses.outcome
          rw [hloaded]
          exact (hends hfirst).1

/-- A job has one deadline for two calls. It times out exactly if the last summary takes too long to
load, or if there are new events when it has been loaded and the model has not answered when the
time is over that both calls have together. A job that times out does not call the store, and if it
has loaded no summary in time it does not ask the model. In all other cases the outcome is told by
how the calls end, and however long it takes to store the summary makes no difference. The model is
asked about those events of the scope behind the loaded boundary that are in the log when the last
summary has been loaded, and nothing that comes later.

The job begins in `p`, its calls are over in `q₁`, `q₂` and `q₃`, and in between others may do
anything. -/
theorem deadline_spans_load_and_answer (hnew : p.run? job.number = none)
    (hdeadline : setup.deadline? p.clock ≠ none)
    (h₁ : Waits job.number (p.begin setup job byWorker) q₁)
    (h₂ : Waits job.number (q₁.advance setup job.number) q₂)
    (h₃ : Waits job.number (q₂.advance setup job.number) q₃) (hnumbered : q₁.log.IsNumbered) :
    let time := setup.timeout.milliseconds
    let load := (p.loadReply setup).delay
    let answer previous := (q₁.answerReply setup job.scope previous).delay
    let r := responses setup job.scope p q₁ q₂ q₃
    let late := time < load ∨ ∃ previous, r.loaded = .value previous ∧ r.news previous ≠ [] ∧
      time < load + answer previous
    ∃ outcome,
      Tells setup job q₁ q₂ q₃ (if time < load then [] else r.prompts setup.template) outcome ∧
      (outcome = .timedOut setup.timeout ↔ late) ∧
      (outcome = .timedOut setup.timeout → Unwritten setup job q₁ q₂ q₃) ∧
      (outcome ≠ .timedOut setup.timeout → outcome = r.outcome setup.summarizer.name) ∧
      (∀ delay : Nat → Nat, r = responses
        { setup with link.store := fun n => { setup.link.store n with delay := delay n } }
        job.scope p q₁ q₂ q₃) ∧
      ∀ previous, r.news previous =
        (q₁.log.inScope job.scope).filter ((previous.map Summary.coveredUntil).getD 0 < ·.id) := by
  intro time load answer r late
  have hintime := r.outcome_ne_timed_out setup.summarizer.name setup.timeout
  have hnews (previous : Option Summary) : r.news previous =
      (q₁.log.inScope job.scope).filter ((previous.map Summary.coveredUntil).getD 0 < ·.id) :=
    hnumbered.events_after_eq job.scope _
  cases concluded hnew hdeadline h₁ h₂ h₃ with
  | lateLoad hlate htells hkept =>
      rw [if_pos hlate]
      exact ⟨_, htells, iff_of_true rfl (.inl hlate), fun _ => hkept, fun h => absurd rfl h,
        fun _ => rfl, hnews⟩
  | unasked hload hnone htells =>
      rw [if_neg (Nat.not_lt.2 hload), r.prompts_of_no_news setup.template hnone]
      refine ⟨_, htells, iff_of_false hintime ?_, fun h => absurd h hintime, fun _ => rfl,
        fun _ => rfl, hnews⟩
      rintro (hlate | ⟨previous, hloaded, hsome, -⟩)
      · exact Nat.not_lt.2 hload hlate
      · exact hsome (hnone previous hloaded)
  | lateAnswer hload hloaded hsome hlate htells hkept =>
      rw [if_neg (Nat.not_lt.2 hload), Responses.prompts_of_news setup.template hloaded hsome]
      exact ⟨_, htells, iff_of_true rfl (.inr ⟨_, hloaded, hsome, hlate⟩), fun _ => hkept,
        fun h => absurd rfl h, fun _ => rfl, hnews⟩
  | answered hload hloaded hsome hanswer htells =>
      rw [if_neg (Nat.not_lt.2 hload), Responses.prompts_of_news setup.template hloaded hsome]
      refine ⟨_, htells, iff_of_false hintime ?_, fun h => absurd h hintime, fun _ => rfl,
        fun _ => rfl, hnews⟩
      rintro (hlate | ⟨other, hother, -, hlate⟩)
      · exact Nat.not_lt.2 hload hlate
      · cases hloaded.symm.trans hother
        exact Nat.not_lt.2 hanswer hlate

end Concluded

/-- Loading takes 400 milliseconds of the second that the job has, and the model takes 500. To store
the summary takes three seconds more. Something is said while the job waits for each of the three,
and the summary covers what was said before the last summary had been loaded. -/
theorem deadline_spans_load_and_answer_slow_store :
    let key : SessionKey := ⟨"app", "user", "desk"⟩
    let said (n : Nat) (text : String) : Event :=
      { id := n, author := "user", message := .user text, timestamp := ⟨0, 0⟩ }
    let hearing (clock n : Nat) (text : String) (p : Pipeline MemoryStore) : Pipeline MemoryStore :=
      { p with clock, log := p.log.append key (said n text) }
    let setup : Setup :=
      { summarizer := { reply := fun _ _ => ⟨500, .value ⟨" told ", {}⟩⟩ }
        link := { load := fun _ => ⟨400, .value ()⟩, store := fun _ => ⟨3000, .value ()⟩ }
        timeout := .ofSeconds 1
        start := ⟨0, 0⟩ }
    let job : Job := ⟨1, .whole key, ⟨0, 0⟩, true⟩
    let p : Pipeline MemoryStore := hearing 0 1 "one" { store := {} }
    let q₁ := hearing 400 2 "two" (p.begin setup job false)
    let q₂ := hearing 900 3 "three" (q₁.advance setup 1)
    let q₃ := hearing 3900 4 "four" (q₂.advance setup 1)
    p.run? 1 = none ∧ setup.deadline? p.clock = some 1000 ∧ Waits 1 (p.begin setup job false) q₁ ∧
      Waits 1 (q₁.advance setup 1) q₂ ∧ Waits 1 (q₂.advance setup 1) q₃ ∧ q₁.log.IsNumbered ∧
      Tells setup job q₁ q₂ q₃ [setup.template.render none [said 1 "one", said 2 "two"]]
        (.succeeded (some ⟨"told", 2, ⟨0, 900000000⟩, {}⟩)) := by
  intro key said hearing setup job p q₁ q₂ q₃
  have hnew : p.run? job.number = none := rfl
  have hdeadline : setup.deadline? p.clock = some 1000 := by decide +kernel
  have h₁ : Waits job.number (p.begin setup job false) q₁ := .of_due rfl (by decide +kernel)
  have h₂ : Waits job.number (q₁.advance setup job.number) q₂ := .of_due rfl (by decide +kernel)
  have h₃ : Waits job.number (q₂.advance setup job.number) q₃ := .of_due rfl (by decide +kernel)
  have hnumbered : q₁.log.IsNumbered := by
    show ((p.begin setup job false).log.append key _).IsNumbered
    rw [(quiet_begin setup p job false).log]
    exact (SessionLog.is_numbered_empty.append key _).append key _
  refine ⟨hnew, hdeadline, h₁, h₂, h₃, hnumbered, ?_⟩
  obtain ⟨outcome, htells, hlate, -, hintime, -⟩ :=
    deadline_spans_load_and_answer hnew (by rw [hdeadline]; exact nofun) h₁ h₂ h₃ hnumbered
  have hloaded : (responses setup job.scope p q₁ q₂ q₃).loaded = .value none := by decide +kernel
  have htime : outcome ≠ .timedOut setup.timeout := by
    rw [ne_eq, hlate]
    rintro (hslow | ⟨previous, hvalue, -, hslow⟩)
    · exact absurd hslow (by decide +kernel)
    · cases hloaded.symm.trans hvalue
      exact absurd hslow (by decide +kernel)
  have hnews : (responses setup job.scope p q₁ q₂ q₃).news none = [said 1 "one", said 2 "two"] := by
    decide +kernel
  have hsome : (responses setup job.scope p q₁ q₂ q₃).news none ≠ [] := by
    rw [hnews]
    exact List.cons_ne_nil _ _
  have houtcome : (responses setup job.scope p q₁ q₂ q₃).outcome setup.summarizer.name =
      .succeeded (some ⟨"told", 2, ⟨0, 900000000⟩, {}⟩) := by decide +kernel
  have hfast : ¬ setup.timeout.milliseconds < (p.loadReply setup).delay := by decide +kernel
  rw [hintime htime, houtcome, if_neg hfast, Responses.prompts_of_news setup.template hloaded hsome,
    hnews] at htells
  exact htells

end Transcript.Pipeline
