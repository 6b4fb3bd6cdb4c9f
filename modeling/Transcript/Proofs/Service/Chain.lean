import Transcript.Proofs.Service.InFlight
import Transcript.Proofs.Service.Scheduling

/-!
# The chain of summaries

Where a scope may have only one job at a time, each job finds the summary that the job before it has
written, and goes on from there. So the summaries that are written for a scope form a chain: each
was made of the text of the one before it and of the events between the two, none of which is left
out or told twice (`Service.summaries_form_chain`).

The store may be one whose calls fail and have their effect all the same. What counts as written is
what the store keeps (`Service.Writes`).
-/

namespace Transcript

/-- A summary that was written, and the prompt that it answers. -/
structure Writing where
  prompt : String
  summary : Summary

/-- The prompts that a job has given to the model. -/
def promptsOf (job : Job) (history : List Happening) : List String :=
  history.filterMap fun h =>
    match h with
    | .asked other prompt => if other = job then some prompt else none
    | _ => none

/-- The prompts of a job in two histories, one after the other. -/
theorem prompts_of_append (job : Job) (history news : List Happening) :
    promptsOf job (history ++ news) = promptsOf job history ++ promptsOf job news :=
  List.filterMap_append

/-- A prompt of a job is one that the job has asked. -/
theorem asked_of_mem_prompts_of {job : Job} {history : List Happening} {prompt : String}
    (h : prompt ∈ promptsOf job history) : .asked job prompt ∈ history := by
  obtain ⟨happening, hmem, hprompt⟩ := List.mem_filterMap.1 h
  split at hprompt
  · split at hprompt
    · rename_i hjob
      cases hprompt
      exact hjob ▸ hmem
    · cases hprompt
  · cases hprompt

/-- Where the model is given no prompt, no job gives one. -/
theorem prompts_of_eq_nil (job : Job) {news : List Happening}
    (hnone : ∀ h ∈ news, h.prompt? = none) : promptsOf job news = [] := by
  refine List.filterMap_eq_nil_iff.2 fun h hh => ?_
  cases h with
  | asked other prompt => cases hnone _ hh
  | _ => rfl

/-! ## Going on from a summary -/

/-- A prompt goes on from a summary up to a boundary: it has the text of the summary, if there is
one, and tells all events of the scope behind it, up to the boundary. -/
structure Continues (template : PromptTemplate) (log : SessionLog) (scope : Scope)
    (previous : Option Summary) (prompt : String) (boundary : Nat) : Prop where
  lt : coverage previous < boundary
  lt_next : boundary < log.nextId scope.session
  prompt_eq : prompt = template.render (previous.map Summary.text)
    ((log.inScope scope).filter fun e => coverage previous < e.id ∧ e.id ≤ boundary)

namespace Continues

variable {template : PromptTemplate} {log : SessionLog} {scope : Scope} {previous : Option Summary}
  {prompt : String} {boundary : Nat}

/-- An event that comes in later makes no difference. -/
theorem append (h : Continues template log scope previous prompt boundary) (key : SessionKey)
    (e : Event) : Continues template (log.append key e) scope previous prompt boundary where
  lt := h.lt
  lt_next := Nat.lt_of_lt_of_le h.lt_next (log.next_id_le_append key scope.session e)
  prompt_eq := by
    -- The prompt ends below the number that the new event gets.
    have hbefore : ∀ x : Event, decide (coverage previous < x.id ∧ x.id ≤ boundary) = true →
        x.id < log.nextId scope.session := by
      intro x hx
      have hle := (of_decide_eq_true hx).2
      exact Nat.lt_of_le_of_lt hle h.lt_next
    rw [log.filter_in_scope_append key e scope hbefore]
    exact h.prompt_eq

/-- A prompt about all new events goes on from the last summary up to the last of the events. -/
theorem of_news {σ : Type} (template : PromptTemplate) {p : Pipeline σ} (hlog : p.log.IsNumbered)
    {last : Event} (hlast : (p.news scope previous).getLast? = some last) :
    Continues template p.log scope previous
      (template.render (previous.map Summary.text) (p.news scope previous)) last.id := by
  let c : Chronicle σ := { pipeline := p }
  have hnews : (c.batch scope previous).events ≠ [] := List.getLast?_isSome.1 (hlast ▸ rfl)
  have hboundary : (c.batch scope previous).boundary = last.id := by
    show ((p.news scope previous).getLast?.map Event.id).getD 0 = last.id
    rw [hlast]
    rfl
  have hattests := Chronicle.attests_batch hlog scope previous hnews
  rw [← hboundary]
  refine ⟨hattests.after_lt, hattests.boundary_lt_next hlog rfl, ?_⟩
  exact congrArg _ (hattests.events_eq rfl)

end Continues

/-- Each writing goes on from the one before it. -/
def IsChain (template : PromptTemplate) (log : SessionLog) (scope : Scope) (ws : List Writing) :
    Prop :=
  ∀ earlier w later, ws = earlier ++ w :: later →
    Continues template log scope (earlier.getLast?.map Writing.summary) w.prompt
      w.summary.coveredUntil

namespace IsChain

variable {template : PromptTemplate} {log : SessionLog} {scope : Scope} {ws : List Writing}

/-- Without writings there is nothing to link. -/
theorem nil : IsChain template log scope [] := by
  intro earlier w later heq
  cases earlier <;> cases heq

/-- A chain is one link longer when a writing goes on from its end. -/
theorem concat (h : IsChain template log scope ws) {w : Writing}
    (hw : Continues template log scope (ws.getLast?.map Writing.summary) w.prompt
      w.summary.coveredUntil) :
    IsChain template log scope (ws ++ [w]) := by
  intro earlier x later heq
  rcases List.eq_nil_or_concat later with rfl | ⟨rest, last, rfl⟩
  · obtain ⟨rfl, hx⟩ := List.append_inj' heq rfl
    cases hx
    exact hw
  · rw [List.concat_eq_append, ← List.cons_append, ← List.append_assoc] at heq
    exact h earlier x rest (List.append_inj' heq rfl).1

/-- Each link covers more than the one before it, and the last one the most. -/
theorem ascending (h : IsChain template log scope ws) :
    (ws.map fun w => w.summary.coveredUntil).Pairwise (· < ·) ∧
      ∀ w ∈ ws, w.summary.coveredUntil ≤ coverage (ws.getLast?.map Writing.summary) := by
  induction ws using List.reverseRecOn with
  | nil => exact ⟨.nil, by simp⟩
  | append_singleton ws w ih =>
      have hbefore : IsChain template log scope ws := by
        intro earlier x later heq
        exact h earlier x (later ++ [w]) (by simp [heq])
      obtain ⟨hpairwise, hle⟩ := ih hbefore
      have hlt : coverage (ws.getLast?.map Writing.summary) < w.summary.coveredUntil :=
        (h ws w [] rfl).lt
      rw [List.map_append, List.getLast?_concat]
      constructor
      · refine List.pairwise_append.2 ⟨hpairwise, List.pairwise_singleton _ _, fun n hn m hm => ?_⟩
        obtain ⟨x, hx, rfl⟩ := List.mem_map.1 hn
        rw [List.map_singleton, List.mem_singleton] at hm
        exact hm ▸ Nat.lt_of_le_of_lt (hle x hx) hlt
      · intro x hx
        show x.summary.coveredUntil ≤ w.summary.coveredUntil
        rcases List.mem_append.1 hx with hearlier | hlast
        · exact Nat.le_of_lt (Nat.lt_of_le_of_lt (hle x hearlier) hlt)
        · rw [List.mem_singleton.1 hlast]

end IsChain

/-! ## The state of the chain -/

namespace Pipeline

variable {σ : Type} [SummaryStore σ] [LawfulStore σ] {setup : Setup} {p p' : Pipeline σ}
  {news history : List Happening} {scope : Scope}

/-- A job that has called the store is over, and its summary is stored for its scope. -/
structure Overwrites (p p' : Pipeline σ) (news : List Happening) (run : Run) (summary : Summary) :
    Prop where
  mem : run ∈ p.runs
  stage : ∃ planned, run.stage = .storing summary planned
  news_eq : ∃ outcome time, news = [.ended run.job outcome time]
  content_eq : LawfulStore.content p'.store run.job.scope = some summary
  log : p'.log = p.log
  runs : p'.runs = p.runs.filter (·.job.number != run.job.number)

/-- When a job ends after it has called the store, what is stored for a scope is the same, or the
summary of the job. -/
theorem content_finish {run : Run} {summary : Summary} {planned : Ending Unit}
    {answer : Except Failure Unit} {store : σ} (hrun : run ∈ p.runs)
    (hstage : run.stage = .storing summary planned)
    (hstore : SummaryStore.store p.store run.job.scope summary = (answer, store))
    (outcome : Outcome) (time : Timestamp) (scope : Scope) :
    LawfulStore.content ({ p with store }.finish setup run.job run.byWorker outcome).store scope =
        LawfulStore.content p.store scope ∨
      run.job.scope = scope ∧
        p.Overwrites ({ p with store }.finish setup run.job run.byWorker outcome)
          [.ended run.job outcome time] run summary := by
  rw [finish_eq]
  by_cases hscope : run.job.scope = scope
  · have hcall := LawfulStore.content_store p.store run.job.scope summary
    rw [hstore] at hcall
    subst hscope
    rcases hcall with hsame | hkept
    · exact .inl hsame
    · exact .inr ⟨rfl, hrun, ⟨planned, hstage⟩, ⟨outcome, time, rfl⟩, hkept, rfl, rfl⟩
  · have hother := LawfulStore.content_store_of_ne p.store summary (Ne.symm hscope)
    rw [hstore] at hother
    exact .inl hother

/-- A turn leaves what is stored for a scope, unless it is the last one of a job of the scope that
has called the store. -/
theorem Outturn.content_cases {job : Job} (h : Outturn setup p job news p') (scope : Scope) :
    LawfulStore.content p'.store scope = LawfulStore.content p.store scope ∨
      ∃ run summary, run.job.scope = scope ∧ p.Overwrites p' news run summary := by
  cases h with
  | idle hquiet => exact .inl (congrArg (LawfulStore.content · scope) hquiet.store)
  | ended hquiet => exact .inl (congrArg (LawfulStore.content · scope) hquiet.store)
  | asked _ hjob _ _ hnews =>
      subst hjob
      obtain ⟨last, ending, due, -, hask⟩ := ask_of_news setup hnews
      rw [hask]
      exact .inl rfl
  | kept => exact .inl rfl
  | @written run summary _ _ hrun hjob hstage hstore =>
      subst hjob
      exact (content_finish hrun hstage hstore _ _ scope).imp_right fun h => ⟨run, summary, h⟩
  | @refused run summary _ _ _ hrun hjob hstage hstore =>
      subst hjob
      exact (content_finish hrun hstage hstore _ _ scope).imp_right fun h => ⟨run, summary, h⟩

/-- What holds of a scope as long as it has no more than one run. The summaries that were written
form a chain, and the last one is stored. Where a run of the scope has asked the model, its last
prompt goes on from what is stored. -/
structure Linked (template : PromptTemplate) (p : Pipeline σ) (history : List Happening)
    (scope : Scope) (ws : List Writing) : Prop where
  numbered : p.log.IsNumbered
  content_eq : LawfulStore.content p.store scope = ws.getLast?.map Writing.summary
  chain : IsChain template p.log scope ws
  runs : ∀ run ∈ p.runs, run.job.scope = scope → ∀ boundary, run.stage.boundary? = some boundary →
    ∃ prompt, (promptsOf run.job history).getLast? = some prompt ∧
      Continues template p.log scope (LawfulStore.content p.store scope) prompt boundary

namespace Linked

variable {template : PromptTemplate} {ws : List Writing}

/-- The first link is still to come where nothing is stored. -/
theorem fresh {store : σ} {pool : Option PoolConfig}
    (hempty : LawfulStore.content store scope = none) :
    Linked template (.fresh store pool) [] scope [] where
  numbered := SessionLog.is_numbered_empty
  content_eq := hempty
  chain := .nil
  runs := by
    intro run hrun
    cases hrun

/-- A step makes no difference in which no run comes to ask the model and nothing is written for the
scope. -/
theorem calm (h : Linked template p history scope ws) (hlog : p'.log = p.log)
    (hcontent : LawfulStore.content p'.store scope = LawfulStore.content p.store scope)
    (hruns : ∀ run ∈ p'.runs, run ∈ p.runs ∨ run.stage.boundary? = none)
    (hprompts : ∀ h ∈ news, h.prompt? = none) : Linked template p' (history ++ news) scope ws where
  numbered := hlog ▸ h.numbered
  content_eq := hcontent.trans h.content_eq
  chain := hlog ▸ h.chain
  runs := by
    intro run hrun hscope boundary hboundary
    rcases hruns run hrun with hold | hnew
    · rw [prompts_of_append, prompts_of_eq_nil run.job hprompts, List.append_nil, hlog, hcontent]
      exact h.runs run hold hscope boundary hboundary
    · rw [hnew] at hboundary
      cases hboundary

/-- A quiet step leaves the chain as it is. -/
theorem quiet (h : Linked template p history scope ws) (hquiet : Quiet p p')
    (hprompts : ∀ h ∈ news, h.prompt? = none) : Linked template p' (history ++ news) scope ws :=
  h.calm hquiet.log (congrArg (LawfulStore.content · scope) hquiet.store) hquiet.runs hprompts

/-- An event that comes in is one for the next prompt. -/
theorem logged (h : Linked template p history scope ws) (key : SessionKey) (e : Event) :
    Linked template { p with log := p.log.append key e } history scope ws where
  numbered := h.numbered.append key e
  content_eq := h.content_eq
  chain := fun earlier w later heq => (h.chain earlier w later heq).append key e
  runs := by
    intro run hrun hscope boundary hboundary
    obtain ⟨prompt, hprompt, hcontinues⟩ := h.runs run hrun hscope boundary hboundary
    exact ⟨prompt, hprompt, hcontinues.append key e⟩

/-- A job that asks the model goes on from what is stored. -/
theorem ask (h : Linked setup.template p history scope ws) {run : Run} {previous : Option Summary}
    (hload : SummaryStore.load p.store run.job.scope = .ok previous)
    (hnews : p.news run.job.scope previous ≠ []) :
    Linked setup.template (p.ask setup run previous)
      (history ++ [.asked run.job (setup.template.render (previous.map Summary.text)
        (p.news run.job.scope previous))]) scope ws := by
  obtain ⟨last, ending, due, hlast, hask⟩ := ask_of_news setup hnews
  rw [hask]
  refine ⟨h.numbered, h.content_eq, h.chain, fun r hr hscope boundary hboundary => ?_⟩
  rw [prompts_of_append]
  rcases mem_put_run hr with rfl | ⟨hold, hnumber⟩
  · cases hboundary
    subst hscope
    -- The summary that the run has loaded is the one that is stored.
    have hcontinues := Continues.of_news setup.template h.numbered hlast
    rw [← LawfulStore.load_ok hload] at hcontinues ⊢
    refine ⟨_, ?_, hcontinues⟩
    simp [promptsOf]
  · have hother : run.job ≠ r.job := fun heq => hnumber (congrArg Job.number heq.symm)
    have hnone : promptsOf r.job [.asked run.job (setup.template.render (previous.map Summary.text)
        (p.news run.job.scope previous))] = [] := by simp [promptsOf, hother]
    rw [hnone, List.append_nil]
    exact h.runs r hold hscope boundary hboundary

/-- The summary that a job calls the store with covers what the job has asked about. -/
theorem keep (h : Linked template p history scope ws) {run : Run} {summary : Summary}
    {planned : Option (Ending ModelOutput)} (ending : Ending Unit) (due : Nat) (hrun : run ∈ p.runs)
    (hstage : run.stage = .asking summary.coveredUntil planned) :
    Linked template
      ({ p with stores := p.stores + 1 }.putRun { run with stage := .storing summary ending, due })
      history scope ws where
  numbered := h.numbered
  content_eq := h.content_eq
  chain := h.chain
  runs := by
    intro r hr hscope boundary hboundary
    rcases mem_put_run hr with rfl | ⟨hold, -⟩
    · refine h.runs run hrun hscope boundary ?_
      rw [hstage]
      exact hboundary
    · exact h.runs r hold hscope boundary hboundary

/-- A turn of a job keeps the chain, if nothing is written for the scope. -/
theorem outturn (h : Linked setup.template p history scope ws) {job : Job}
    (hturn : Outturn setup p job news p')
    (hsame : LawfulStore.content p'.store scope = LawfulStore.content p.store scope) :
    Linked setup.template p' (history ++ news) scope ws := by
  cases hturn with
  | idle hquiet => exact h.quiet hquiet (by simp)
  | ended hquiet => exact h.quiet hquiet (by simp [Happening.prompt?])
  | asked _ hjob _ hload hnews =>
      subst hjob
      exact h.ask hload hnews
  | kept ending due hrun _ hstage =>
      rw [List.append_nil]
      exact h.keep ending due hrun hstage
  | written | refused =>
      refine h.calm (by rw [finish_eq]) hsame (fun r hr => ?_) (by simp [Happening.prompt?])
      rw [finish_eq] at hr
      exact .inl (List.mem_of_mem_filter hr)

/-- A job that has called the store has a summary that covers more than the one that is stored. -/
theorem content_ne (h : Linked template p history scope ws) {run : Run} {summary : Summary}
    {planned : Ending Unit} (hrun : run ∈ p.runs) (hscope : run.job.scope = scope)
    (hstage : run.stage = .storing summary planned) :
    LawfulStore.content p.store scope ≠ some summary := by
  intro hcontent
  obtain ⟨prompt, -, hcontinues⟩ :=
    h.runs run hrun hscope summary.coveredUntil (by rw [hstage]; rfl)
  have hlt := hcontinues.lt
  rw [hcontent] at hlt
  exact Nat.lt_irrefl _ hlt

/-- The chain becomes longer when the only run of the scope has had its summary stored. -/
theorem write (h : Linked template p history scope ws) {run : Run} {summary : Summary}
    (hwrite : p.Overwrites p' news run summary) (hscope : run.job.scope = scope)
    (hsingle : ∀ r ∈ p.runs, r.job.scope = scope → r = run) :
    ∃ prompt, (promptsOf run.job history).getLast? = some prompt ∧
      Linked template p' (history ++ news) scope (ws ++ [⟨prompt, summary⟩]) := by
  obtain ⟨hrun, ⟨planned, hstage⟩, -, hcontent, hlog, hruns⟩ := hwrite
  obtain ⟨prompt, hprompt, hcontinues⟩ :=
    h.runs run hrun hscope summary.coveredUntil (by rw [hstage]; rfl)
  rw [h.content_eq] at hcontinues
  refine ⟨prompt, hprompt, hlog ▸ h.numbered, ?_, hlog ▸ h.chain.concat hcontinues,
    fun r hr hr' => ?_⟩
  · rw [← hscope, hcontent, List.getLast?_concat]
    rfl
  · -- The run is over, and there was no other one.
    rw [hruns, List.mem_filter] at hr
    rw [hsingle r hr.1 hr'] at hr
    simp at hr

end Linked

end Pipeline

namespace Service

variable {σ : Type} [SummaryStore σ]

/-! ## One job at a time -/

section Alone

variable {parts : ServiceParts σ} {first s : Service σ} {history : List Happening} {scope : Scope}

/-- Where a scope may have only one job at a time, it has only one run, unless a summary was forced
or its session was removed. -/
theorem run_unique (hbuild : parts.build = .ok first)
    (hsingle : parts.config.summary.config.singleFlight = true) (hcourse : Course first history s)
    (hforced : ∀ job, .forced job ∉ history) (hkept : .removed scope.session ∉ history) {r r' : Run}
    (hr : r ∈ s.pipeline.runs) (hr' : r' ∈ s.pipeline.runs) (hscope : r.job.scope = scope)
    (hscope' : r'.job.scope = scope) : r = r' := by
  obtain ⟨hpipeline, -, hconfig⟩ := ServiceParts.build_pipeline hbuild
  obtain ⟨l, hsteps, htold⟩ :=
    hcourse.exists_ledger (hpipeline ▸ Pipeline.distinct_fresh parts.store _)
  rw [hpipeline, hconfig, hsingle] at hsteps
  have htracked : ∀ job ∈ l.arrived, job.tracked = true := by
    intro job hjob
    obtain ⟨e, he, harrived⟩ := List.mem_flatMap.1 hjob
    have hentry := htold e he
    rcases Entry.cases_of_arrived harrived with ⟨number, rfl⟩ | rfl
    · exact hentry
    · exact hentry.1
  have hkept' : .removed scope.session ∉ l := fun hremoved => hkept (htold _ hremoved)
  have hone := hsteps.under_way_le_one scope htracked
    (fun job hjob => hforced job (htold _ hjob).2)
    fun before since job number hinitial _ => absurd (hinitial.subset (by simp)) hkept'
  -- The jobs that are under way wait or run, so there is at most one run.
  have hcount : s.pipeline.runs.countP (·.job.scope = scope) ≤ 1 := by
    unfold Pipeline.underWay Pipeline.jobs Pipeline.tickets at hone
    rw [List.countP_append, List.map_map, List.countP_map] at hone
    exact Nat.le_trans (Nat.le_add_left _ _) hone
  rw [List.countP_eq_length_filter] at hcount
  have hmem : r ∈ s.pipeline.runs.filter (·.job.scope = scope) :=
    List.mem_filter.2 ⟨hr, decide_eq_true hscope⟩
  have hmem' : r' ∈ s.pipeline.runs.filter (·.job.scope = scope) :=
    List.mem_filter.2 ⟨hr', decide_eq_true hscope'⟩
  generalize s.pipeline.runs.filter (·.job.scope = scope) = runs at hcount hmem hmem'
  obtain ⟨x, rfl⟩ := List.length_eq_one_iff.1 (Nat.le_antisymm hcount (List.length_pos_of_mem hmem))
  rw [List.mem_singleton.1 hmem, List.mem_singleton.1 hmem']

end Alone

/-! ## What is written -/

variable [LawfulStore σ]

/-- The summary that is stored for a scope. -/
def content (s : Service σ) (scope : Scope) : Option Summary :=
  LawfulStore.content s.pipeline.store scope

/-- A course of a service, with what was written for a scope in it, the earliest first. A job of the
scope that has called the store ends, and the store has the new summary: this is a writing, whatever
the outcome of the job (`written`). With it goes the prompt that the job has given to the model. In
all `other` steps the store keeps what it had for the scope. -/
inductive Writes (first : Service σ) (scope : Scope) :
    List Happening → List Writing → Service σ → Prop where
  | start : Writes first scope [] [] first
  | other {history news : List Happening} {ws : List Writing} {s s' : Service σ}
      (hwrites : Writes first scope history ws s) (hstep : Step s news s')
      (hsame : s'.content scope = s.content scope) : Writes first scope (history ++ news) ws s'
  | written {history : List Happening} {ws : List Writing} {s s' : Service σ} {run : Run}
      {summary : Summary} {planned : Ending Unit} {outcome : Outcome} {time : Timestamp}
      {prompt : String} (hwrites : Writes first scope history ws s)
      (hstep : Step s [.ended run.job outcome time] s') (hrun : run ∈ s.pipeline.runs)
      (hscope : run.job.scope = scope) (hstage : run.stage = .storing summary planned)
      (hprompt : (promptsOf run.job history).getLast? = some prompt)
      (hkept : s'.content scope = some summary) :
      Writes first scope (history ++ [.ended run.job outcome time]) (ws ++ [⟨prompt, summary⟩]) s'

/-- The writings of a scope come up in a course. -/
theorem Writes.course {first s : Service σ} {scope : Scope} {history : List Happening}
    {ws : List Writing} (h : Writes first scope history ws s) : Course first history s := by
  induction h with
  | start => exact .start
  | other _ hstep _ ih => exact .next ih hstep
  | written _ hstep _ _ _ _ _ ih => exact .next ih hstep

/-- The model was given the prompts that the summaries answer. -/
theorem Writes.prompt_mem {first s : Service σ} {scope : Scope} {history : List Happening}
    {ws : List Writing} (h : Writes first scope history ws s) :
    ∀ w ∈ ws, w.prompt ∈ s.pipeline.prompts := by
  have hasked : ∀ w ∈ ws, ∃ job, .asked job w.prompt ∈ history := by
    induction h with
    | start => simp
    | other _ _ _ ih =>
        intro w hw
        obtain ⟨job, hjob⟩ := ih w hw
        exact ⟨job, List.mem_append_left _ hjob⟩
    | @written history ws s s' run summary _ _ _ prompt _ _ _ _ _ hprompt _ ih =>
        intro w hw
        rcases List.mem_append.1 hw with hearlier | hlast
        · obtain ⟨job, hjob⟩ := ih w hearlier
          exact ⟨job, List.mem_append_left _ hjob⟩
        · rw [List.mem_singleton.1 hlast]
          have hasked := asked_of_mem_prompts_of (List.mem_of_getLast? hprompt)
          exact ⟨run.job, List.mem_append_left _ hasked⟩
  intro w hw
  obtain ⟨job, hjob⟩ := hasked w hw
  rw [h.course.records.1]
  exact List.mem_append_right _ (List.mem_filterMap.2 ⟨_, hjob, rfl⟩)

/-- A step leaves what is stored for a scope, unless it is the last turn of a job of the scope that
has called the store. -/
theorem Step.content_cases {s s' : Service σ} {news : List Happening} (h : Step s news s')
    (scope : Scope) :
    s'.content scope = s.content scope ∨
      ∃ run summary, run.job.scope = scope ∧
        s.pipeline.Overwrites s'.pipeline news run summary := by
  cases h.effect with
  | appended key e hquiet => exact .inl (congrArg (LawfulStore.content · scope) hquiet.store)
  | removed key _ hstore => exact .inl (congrArg (LawfulStore.content · scope) hstore)
  | quiet hquiet => exact .inl (congrArg (LawfulStore.content · scope) hquiet.store)
  | outturn houtturn => exact houtturn.content_cases scope

/-- A step keeps the chain, if nothing is written for the scope and no session is removed. -/
theorem Step.linked {s s' : Service σ} {history news : List Happening} {scope : Scope}
    {ws : List Writing} (h : Step s news s')
    (hlinked : s.pipeline.Linked s.setup.template history scope ws)
    (hkept : ∀ key, .removed key ∉ news) (hsame : s'.content scope = s.content scope) :
    s'.pipeline.Linked s.setup.template (history ++ news) scope ws := by
  cases h.effect with
  | appended key e hquiet => exact (hlinked.logged key e).quiet hquiet (by simp [Happening.prompt?])
  | removed key => exact absurd (List.mem_singleton_self _) (hkept key)
  | quiet hquiet hprompts => exact hlinked.quiet hquiet hprompts
  | outturn houtturn => exact hlinked.outturn houtturn hsame

section Chain

variable {parts : ServiceParts σ} {first s : Service σ} {history : List Happening} {scope : Scope}
  {ws : List Writing}

/-- With one job at a time the writings of a scope make up a chain, up to the last one. -/
theorem Writes.linked (h : Writes first scope history ws s) (hbuild : parts.build = .ok first)
    (hsingle : parts.config.summary.config.singleFlight = true)
    (hempty : LawfulStore.content parts.store scope = none) (hforced : ∀ job, .forced job ∉ history)
    (hkept : ∀ key, .removed key ∉ history) :
    s.pipeline.Linked first.setup.template history scope ws := by
  induction h with
  | start =>
      rw [(ServiceParts.build_pipeline hbuild).1]
      exact .fresh hempty
  | @other history news ws s s' hwrites hstep hsame ih =>
      have hlinked := ih (fun job hjob => hforced job (List.mem_append_left _ hjob))
        fun key hkey => hkept key (List.mem_append_left _ hkey)
      rw [← hwrites.course.settings.setup] at hlinked ⊢
      exact hstep.linked hlinked (fun key hkey => hkept key (List.mem_append_right _ hkey)) hsame
  | @written history ws s s' run summary planned outcome time prompt hwrites hstep hrun hscope
      hstage hprompt hstored ih =>
      have hforced' := fun job hjob => hforced job (List.mem_append_left _ hjob)
      have hkept' := fun key hkey => hkept key (List.mem_append_left _ hkey)
      have hlinked := ih hforced' hkept'
      have hone {r : Run} (hr : r ∈ s.pipeline.runs) (hr' : r.job.scope = scope) : r = run :=
        run_unique hbuild hsingle hwrites.course hforced' (hkept' _) hr hrun hr' hscope
      rcases hstep.content_cases scope with hsame | ⟨r, written, hr, hwrite⟩
      · exact absurd (hsame.symm.trans hstored) (hlinked.content_ne hrun hscope hstage)
      · -- The job that has ended is the only one of the scope, so it is the one that has written.
        obtain rfl := hone hwrite.mem hr
        have hwritten := hwrite.content_eq
        rw [hscope] at hwritten
        obtain rfl := Option.some.inj (hwritten.symm.trans hstored)
        obtain ⟨asked, hasked, hnext⟩ := hlinked.write hwrite hscope fun r => hone
        obtain rfl := Option.some.inj (hasked.symm.trans hprompt)
        exact hnext

/-- What is written for a scope in a course can be told. -/
theorem Course.exists_writes (h : Course first history s) (hbuild : parts.build = .ok first)
    (hsingle : parts.config.summary.config.singleFlight = true)
    (hempty : LawfulStore.content parts.store scope = none) (hforced : ∀ job, .forced job ∉ history)
    (hkept : ∀ key, .removed key ∉ history) : ∃ ws, Writes first scope history ws s := by
  induction h with
  | start => exact ⟨[], .start⟩
  | @next history news s s' hcourse hstep ih =>
      have hforced' := fun job hjob => hforced job (List.mem_append_left _ hjob)
      have hkept' := fun key hkey => hkept key (List.mem_append_left _ hkey)
      obtain ⟨ws, hwrites⟩ := ih hforced' hkept'
      rcases hstep.content_cases scope with hsame | ⟨run, summary, hscope, hwrite⟩
      · exact ⟨ws, .other hwrites hstep hsame⟩
      · obtain ⟨planned, hstage⟩ := hwrite.stage
        obtain ⟨outcome, time, rfl⟩ := hwrite.news_eq
        have hlinked := hwrites.linked hbuild hsingle hempty hforced' hkept'
        obtain ⟨prompt, hprompt, -⟩ := hlinked.runs run hwrite.mem hscope summary.coveredUntil
          (by rw [hstage]; rfl)
        exact ⟨_, .written hwrites hstep hwrite.mem hscope hstage hprompt
          (hscope ▸ hwrite.content_eq)⟩

/-- Where a scope may have only one job at a time, its summaries form a chain. This holds in any
course of a service that starts with nothing stored for the scope, if no summary is forced and no
session is removed. Each summary that is written covers more than the one before it. The prompt that
it answers was made of the text of the one before it, if there is one, and of the events of the
scope that are not covered by that one, up to its own boundary. The last one is what is stored. -/
theorem summaries_form_chain (hbuild : parts.build = .ok first)
    (hsingle : parts.config.summary.config.singleFlight = true)
    (hempty : LawfulStore.content parts.store scope = none) (hcourse : Course first history s)
    (hforced : ∀ job, .forced job ∉ history) (hkept : ∀ key, .removed key ∉ history) :
    (∃ ws, Writes first scope history ws s) ∧
      ∀ ws, Writes first scope history ws s →
        (ws.map fun w => w.summary.coveredUntil).Pairwise (· < ·) ∧
        (∀ earlier w later, ws = earlier ++ w :: later →
          let previous := earlier.getLast?.map Writing.summary
          w.prompt = first.setup.template.render (previous.map Summary.text)
            ((s.pipeline.log.inScope scope).filter fun e =>
              coverage previous < e.id ∧ e.id ≤ w.summary.coveredUntil)) ∧
        s.content scope = ws.getLast?.map Writing.summary := by
  refine ⟨hcourse.exists_writes hbuild hsingle hempty hforced hkept, fun ws hwrites => ?_⟩
  have hlinked := hwrites.linked hbuild hsingle hempty hforced hkept
  refine ⟨hlinked.chain.ascending.1, fun earlier w later heq => ?_, hlinked.content_eq⟩
  exact (hlinked.chain earlier w later heq).prompt_eq

end Chain

/-- Each of two events is summed up by a job of its own, and the second summary goes on from the
first one. -/
theorem summaries_form_chain_of_two_jobs :
    let scope := Scope.whole .desk
    let s := solitary.performAll [.append .desk (.saying "x"), .enqueue scope, .sleep 10,
      .append .desk (.saying "y"), .enqueue scope, .sleep 10]
    ∃ history ws, Course solitary history s ∧ Writes solitary scope history ws s ∧
      (ws.map fun w => w.summary.coveredUntil).Pairwise (· < ·) ∧
      (ws.getLast?.map fun w => w.summary.coveredUntil) = some 2 ∧ 2 ≤ ws.length := by
  intro scope s
  obtain ⟨history, hcourse, hbrings⟩ := exists_course build_solitary [.append .desk (.saying "x"),
    .enqueue scope, .sleep 10, .append .desk (.saying "y"), .enqueue scope, .sleep 10]
  have hforced : ∀ job, .forced job ∉ history := by
    intro job hjob
    obtain ⟨op, hop, hbrought⟩ := hbrings _ hjob
    rw [show op = .summarize job.scope true from hbrought] at hop
    simp at hop
  have hkept : ∀ key, .removed key ∉ history := by
    intro key hkey
    obtain ⟨op, hop, hbrought⟩ := hbrings _ hkey
    rw [show op = .remove key from hbrought] at hop
    simp at hop
  have hempty : LawfulStore.content ServiceParts.solitary.store scope = none := rfl
  obtain ⟨⟨ws, hwrites⟩, hchain⟩ :=
    summaries_form_chain build_solitary rfl hempty hcourse hforced hkept
  obtain ⟨hascending, hprompts, hcontent⟩ := hchain ws hwrites
  have hcovered : (ws.getLast?.map fun w => w.summary.coveredUntil) = some 2 := by
    have hstored : (s.content scope).map Summary.coveredUntil = some 2 := by decide +kernel
    rwa [hcontent, Option.map_map] at hstored
  refine ⟨history, ws, hcourse, hwrites, hascending, hcovered, ?_⟩
  by_contra hshort
  match ws, hwrites.prompt_mem, hprompts, hcovered, hshort with
  | [], _, _, hnone, _ => cases hnone
  | [w], hmem, hprompts, hcovered, _ =>
      -- A single summary of both events answers a prompt that the model was never given.
      have hw : w.summary.coveredUntil = 2 := Option.some.inj hcovered
      have hprompt := hmem w (List.mem_singleton_self w)
      rw [hprompts [] w [] rfl, hw] at hprompt
      exact absurd hprompt (by decide +kernel)
  | _ :: _ :: _, _, _, _, hshort => exact hshort (Nat.le_add_left 2 _)

end Service

end Transcript
