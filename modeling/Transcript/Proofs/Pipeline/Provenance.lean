import Transcript.Proofs.Pipeline.Lineage

/-!
# The provenance of summaries

`Chronicle.Sound` is what holds of a chronicle at any time (`Chronicle.Sound.steps`): the log agrees
with the batches of all prompts, as far as it is still the same log, and every summary that is
stored, loaded or being made has its lineage. From this follows what is folded into a summary
(`Chronicle.Sound.folded_eq`).
-/

namespace Transcript

/-- A batch that goes on from its beginning has a last event. -/
theorem Batch.exists_last {b : Batch} (h : b.after < b.boundary) :
    ∃ last, b.events.getLast? = some last ∧ last.id = b.boundary := by
  unfold boundary at h ⊢
  cases hlast : b.events.getLast? with
  | none =>
      rw [hlast] at h
      exact absurd h (Nat.not_lt_zero _)
  | some last => exact ⟨last, rfl, rfl⟩

namespace Chronicle

variable {σ : Type}

/-- The log agrees with a batch: the batch has all events of its scope from its beginning to its
end. If the session was removed in between, nothing is left to agree with. -/
structure Attests (c : Chronicle σ) (b : Batch) : Prop where
  after_lt : b.after < b.boundary
  epoch_le : b.epoch ≤ c.epoch b.scope.session
  events_eq : b.epoch = c.epoch b.scope.session →
    b.events = (c.inScope b.scope).filter fun e => b.after < e.id ∧ e.id ≤ b.boundary

namespace Attests

variable {c c' : Chronicle σ} {b : Batch}

/-- Only the log and the number of removals matter. -/
theorem congr (h : c.Attests b) (hlog : c'.pipeline.log = c.pipeline.log)
    (hepoch : c'.epoch = c.epoch) : c'.Attests b where
  after_lt := h.after_lt
  epoch_le := hepoch ▸ h.epoch_le
  events_eq := by
    intro hb
    rw [hepoch] at hb
    rw [inScope, hlog]
    exact h.events_eq hb

/-- A batch ends below the number that the next event gets. -/
theorem boundary_lt_next (h : c.Attests b) (hlog : c.pipeline.log.IsNumbered)
    (hepoch : b.epoch = c.epoch b.scope.session) :
    b.boundary < c.pipeline.log.nextId b.scope.session := by
  obtain ⟨last, hlast, hid⟩ := Batch.exists_last h.after_lt
  have hmem : last ∈ b.events := List.mem_of_getLast? hlast
  rw [h.events_eq hepoch] at hmem
  rw [← hid]
  exact (hlog.id_lt_next (List.mem_filter.1 hmem).1).2

/-- A new event comes behind every batch. -/
theorem append (h : c.Attests b) (hlog : c.pipeline.log.IsNumbered) (key : SessionKey) (e : Event) :
    (c.append key e).Attests b where
  after_lt := h.after_lt
  epoch_le := h.epoch_le
  events_eq := by
    intro hepoch
    have hlt := h.boundary_lt_next hlog hepoch
    show b.events = ((c.pipeline.log.append key e).inScope b.scope).filter _
    -- The new event gets the number that is due, which no batch has reached.
    have hbefore : ∀ x : Event, decide (b.after < x.id ∧ x.id ≤ b.boundary) = true →
        x.id < c.pipeline.log.nextId b.scope.session := by
      intro x hx
      have hle := (of_decide_eq_true hx).2
      exact Nat.lt_of_le_of_lt hle hlt
    rw [c.pipeline.log.filter_in_scope_append key e b.scope hbefore]
    exact h.events_eq hepoch

/-- After a removal the batches of the session belong to the past. -/
theorem remove (h : c.Attests b) (key : SessionKey) : (c.remove key).Attests b where
  after_lt := h.after_lt
  epoch_le := by
    show b.epoch ≤ Function.update c.epoch key (c.epoch key + 1) b.scope.session
    by_cases hkey : b.scope.session = key
    · rw [hkey, Function.update_self, ← hkey]
      exact Nat.le_succ_of_le h.epoch_le
    · rw [Function.update_of_ne hkey]
      exact h.epoch_le
  events_eq := by
    intro hepoch
    by_cases hkey : b.scope.session = key
    · -- The count of removals has left the batch behind.
      have hle := h.epoch_le
      have hpast : b.epoch = c.epoch key + 1 := by
        rw [hepoch, hkey]
        exact Function.update_self _ _ _
      rw [hkey] at hle
      omega
    · have hsame : b.epoch = c.epoch b.scope.session := by
        rw [hepoch]
        exact Function.update_of_ne hkey _ _
      show b.events = ((c.pipeline.log.remove key).inScope b.scope).filter _
      rw [SessionLog.in_scope_remove, if_neg hkey]
      exact h.events_eq hsame

end Attests

/-- The events of a new batch are those of its scope behind its beginning. -/
theorem batch_events_eq {c : Chronicle σ} (hlog : c.pipeline.log.IsNumbered) (scope : Scope)
    (previous : Option Summary) :
    (c.batch scope previous).events = (c.inScope scope).filter (coverage previous < ·.id) :=
  hlog.events_after_eq scope _

/-- The log agrees with a new batch. -/
theorem attests_batch {c : Chronicle σ} (hlog : c.pipeline.log.IsNumbered) (scope : Scope)
    (previous : Option Summary) (hevents : (c.batch scope previous).events ≠ []) :
    c.Attests (c.batch scope previous) := by
  have heq := batch_events_eq hlog scope previous
  generalize hb : c.batch scope previous = b at *
  obtain ⟨last, hlast⟩ : ∃ last, b.events.getLast? = some last :=
    Option.isSome_iff_exists.1 (List.getLast?_isSome.2 hevents)
  have hboundary : b.boundary = last.id := by
    unfold Batch.boundary
    rw [hlast]
    rfl
  have hafter : b.after = coverage previous := by
    rw [← hb]
    rfl
  have hmem : ∀ e, e ∈ b.events ↔ e ∈ c.inScope scope ∧ b.after < e.id := by
    intro e
    rw [heq, hafter, List.mem_filter, decide_eq_true_eq]
  have hascending : Ascending b.events := heq ▸ (hlog.in_scope_ascending scope).filter _
  refine ⟨?_, ?_, ?_⟩
  · rw [hboundary]
    exact ((hmem last).1 (List.mem_of_getLast? hlast)).2
  · rw [← hb]
    exact Nat.le_refl _
  · intro _
    have hscope : b.scope = scope := by
      rw [← hb]
      rfl
    rw [hscope, heq, ← hafter]
    -- The numbers grow, so no event of the batch is beyond its last one.
    refine List.filter_congr fun e he => decide_eq_decide.2 ?_
    constructor
    · intro hlt
      exact ⟨hlt, hboundary ▸ hascending.id_le_last hlast ((hmem e).2 ⟨he, hlt⟩)⟩
    · exact And.left

/-! ## The invariant -/

variable [SummaryStore σ] [LawfulStore σ]

/-- What holds of a chronicle at any time, if these summaries were stored at first. All prompts are
on record, and the log agrees with what they tell. The summaries that are stored or were loaded have
a lineage, and so have those that the model is asked for or that are being stored. -/
structure Sound (setup : Setup) (base : Scope → Option Summary) (c : Chronicle σ) : Prop where
  numbered : c.pipeline.log.IsNumbered
  prompts : c.pipeline.prompts = c.rendered.map (Batch.prompt setup.template)
  attested : ∀ b ∈ c.rendered, c.Attests b
  stored : ∀ scope, Lineage (base scope) c.rendered scope (c.content scope) (c.stored scope)
  loaded : ∀ job source, c.loaded job = some source →
    Lineage (base job.scope) c.rendered job.scope source.summary source.batches
  asked : ∀ run ∈ c.pipeline.runs, ∀ s : Summary, run.stage.boundary? = some s.coveredUntil →
    Lineage (base run.job.scope) c.rendered run.job.scope (some s) (c.asked run.job)

/-- In the beginning there is only what was stored at first. -/
theorem sound_initial (setup : Setup) (store : σ) (pool : Option Pool) :
    Sound setup (LawfulStore.content store) (initial store pool) where
  numbered := SessionLog.is_numbered_empty
  prompts := rfl
  attested := by
    intro b hb
    cases hb
  stored _ := .start
  loaded := by
    intro job source hsource
    cases hsource
  asked := by
    intro run hrun
    cases hrun

omit [SummaryStore σ] [LawfulStore σ] in
/-- If a batch has events, the model is given its prompt, and the run waits for the answer. -/
theorem ask_pipeline_eq (setup : Setup) (c : Chronicle σ) (run : Run) (source : Sourced)
    (hevents : (c.batch run.job.scope source.summary).events ≠ []) :
    ∃ asking : Run, asking.job = run.job ∧
      asking.stage.boundary? = some (c.batch run.job.scope source.summary).boundary ∧
      (c.ask setup run source).pipeline =
        { c.pipeline with prompts := c.pipeline.prompts ++
            [(c.batch run.job.scope source.summary).prompt setup.template] }.putRun asking := by
  obtain ⟨last, hlast⟩ := Option.isSome_iff_exists.1 (List.getLast?_isSome.2 hevents)
  refine ⟨_, ?_, ?_, c.pipeline.ask_eq setup run source.summary hlast⟩
  · rfl
  · unfold Batch.boundary
    rw [hlast]
    rfl

namespace Sound

variable {setup : Setup} {base : Scope → Option Summary} {c c' : Chronicle σ}

/-- A quiet step leaves everything as it is. -/
theorem quiet (h : Sound setup base c) {p : Pipeline σ} (hquiet : c.pipeline.Quiet p) :
    Sound setup base (c.move p) where
  numbered := by
    show p.log.IsNumbered
    rw [hquiet.log]
    exact h.numbered
  prompts := hquiet.prompts.trans h.prompts
  attested b hb := (h.attested b hb).congr hquiet.log rfl
  stored := by
    intro scope
    show Lineage (base scope) c.rendered scope (LawfulStore.content p.store scope) (c.stored scope)
    rw [hquiet.store]
    exact h.stored scope
  loaded := h.loaded
  asked := by
    intro run hrun s hs
    rcases hquiet.runs run hrun with hold | hnew
    · exact h.asked run hold s hs
    · rw [hnew] at hs
      cases hs

/-- A new event leaves the lineages as they are. -/
theorem append (h : Sound setup base c) (key : SessionKey) (e : Event) :
    Sound setup base (c.append key e) where
  numbered := h.numbered.append key e
  prompts := h.prompts
  attested b hb := (h.attested b hb).append h.numbered key e
  stored := h.stored
  loaded := h.loaded
  asked := h.asked

/-- So does a removal. -/
theorem remove (h : Sound setup base c) (key : SessionKey) : Sound setup base (c.remove key) where
  numbered := h.numbered.remove key
  prompts := h.prompts
  attested b hb := (h.attested b hb).remove key
  stored := h.stored
  loaded := h.loaded
  asked := h.asked

/-- A summary that is loaded has the lineage that it had in the store. -/
theorem load (h : Sound setup base c) (job : Job) : Sound setup base (c.load job) where
  numbered := h.numbered
  prompts := h.prompts
  attested b hb := (h.attested b hb).congr rfl rfl
  stored := h.stored
  loaded := by
    intro other source hsource
    have hloaded : (c.load job).loaded =
        Function.update c.loaded job (some ⟨c.content job.scope, c.stored job.scope⟩) := rfl
    rw [hloaded] at hsource
    by_cases hjob : other = job
    · subst hjob
      rw [Function.update_self] at hsource
      cases hsource
      exact h.stored other.scope
    · rw [Function.update_of_ne hjob] at hsource
      exact h.loaded other source hsource
  asked := h.asked

/-- A prompt adds its batch to the lineage of the summary that was loaded. -/
theorem ask (h : Sound setup base c) {run : Run} {source : Sourced}
    (hsource : c.loaded run.job = some source)
    (hevents : (c.batch run.job.scope source.summary).events ≠ []) :
    Sound setup base (c.ask setup run source) := by
  obtain ⟨asking, hjob, hstage, hpipeline⟩ := ask_pipeline_eq setup c run source hevents
  have hlog : (c.ask setup run source).pipeline.log = c.pipeline.log := by
    rw [hpipeline]
    rfl
  have hnew := attests_batch h.numbered run.job.scope source.summary hevents
  have hsub : c.rendered ⊆ (c.ask setup run source).rendered := List.subset_append_left _ _
  refine ⟨?_, ?_, ?_, ?_, ?_, ?_⟩
  · rw [hlog]
    exact h.numbered
  · rw [hpipeline]
    show c.pipeline.prompts ++ [_] = (c.rendered ++ [_]).map _
    rw [List.map_append, h.prompts]
    rfl
  · intro b hb
    rcases List.mem_append.1 hb with hold | hself
    · exact (h.attested b hold).congr hlog rfl
    · rw [List.mem_singleton.1 hself]
      exact hnew.congr hlog rfl
  · intro scope
    have hcontent : (c.ask setup run source).content scope = c.content scope := by
      rw [content, hpipeline]
      rfl
    rw [hcontent]
    exact (h.stored scope).mono hsub
  · intro job other hother
    exact (h.loaded job other hother).mono hsub
  · intro r hr s hs
    rw [hpipeline] at hr
    rcases Pipeline.mem_put_run hr with rfl | ⟨hold, hnumber⟩
    · rw [hstage] at hs
      rw [hjob]
      show Lineage _ _ _ _ (Function.update c.asked run.job _ run.job)
      rw [Function.update_self]
      exact .next (List.mem_append_right _ (List.mem_singleton_self _)) rfl
        (Option.some.inj hs).symm ((h.loaded _ _ hsource).mono hsub)
    · -- The record of another job does not change, and jobs with different numbers are different.
      have hne : r.job ≠ run.job := by
        intro heq
        exact hnumber (by rw [heq, hjob])
      show Lineage _ _ _ _ (Function.update c.asked run.job _ r.job)
      rw [Function.update_of_ne hne]
      exact (h.asked r hold s hs).mono hsub

/-- The answer of the model takes over the lineage of the prompt. -/
theorem answer (h : Sound setup base c) {run : Run} {boundary : Nat}
    {ending : Option (Ending ModelOutput)} (output : ModelOutput) (hrun : run ∈ c.pipeline.runs)
    (hstage : run.stage = .asking boundary ending) :
    Sound setup base (c.move (c.pipeline.keep setup run boundary output)) := by
  rcases c.pipeline.keep_cases setup run boundary output with
    hquiet | ⟨summary, kept, due, hboundary, hkeep⟩
  · exact h.quiet hquiet
  · rw [hkeep]
    refine ⟨h.numbered, h.prompts, fun b hb => (h.attested b hb).congr rfl rfl,
      h.stored, h.loaded, ?_⟩
    intro r hr s hs
    rcases Pipeline.mem_put_run hr with rfl | ⟨hold, -⟩
    · -- The run still belongs to its job, and covers as much as it has asked about.
      refine h.asked run hrun s ?_
      rw [hstage, ← hs, ← hboundary]
      rfl
    · exact h.asked r hold s hs

/-- What is stored takes over the lineage of the prompt that it answers. -/
theorem store (h : Sound setup base c) {run : Run} {summary : Summary} {ending : Ending Unit}
    (hrun : run ∈ c.pipeline.runs) (hstage : run.stage = .storing summary ending) :
    Sound setup base (c.store run.job summary) := by
  have hsummary : Lineage (base run.job.scope) c.rendered run.job.scope (some summary)
      (c.asked run.job) := by
    refine h.asked run hrun summary ?_
    rw [hstage]
    rfl
  refine ⟨h.numbered, h.prompts, fun b hb => (h.attested b hb).congr rfl rfl, ?_, h.loaded, h.asked⟩
  intro scope
  have hcontent : (c.store run.job summary).content scope =
      LawfulStore.content (SummaryStore.store c.pipeline.store run.job.scope summary).2 scope := rfl
  by_cases hkept : LawfulStore.content
      (SummaryStore.store c.pipeline.store run.job.scope summary).2 run.job.scope = some summary
  · have hstored : (c.store run.job summary).stored =
        Function.update c.stored run.job.scope (c.asked run.job) := if_pos hkept
    rw [hstored]
    by_cases hscope : scope = run.job.scope
    · subst hscope
      rw [hcontent, hkept, Function.update_self]
      exact hsummary
    · rw [hcontent, LawfulStore.content_store_of_ne _ _ hscope, Function.update_of_ne hscope]
      exact h.stored scope
  · -- The call has had no effect, so the old summary is still there.
    have hstored : (c.store run.job summary).stored = c.stored := if_neg hkept
    have hsame : (c.store run.job summary).content scope = c.content scope := by
      rw [hcontent]
      by_cases hscope : scope = run.job.scope
      · subst hscope
        exact (LawfulStore.content_store _ _ _).resolve_right hkept
      · exact LawfulStore.content_store_of_ne _ _ hscope
    rw [hstored, hsame]
    exact h.stored scope

/-- One step keeps everything in order. -/
theorem step (h : Sound setup base c) (hstep : Step setup c c') : Sound setup base c' := by
  cases hstep with
  | append key e => exact h.append key e
  | remove key => exact h.remove key
  | load hrun hstage hload => exact h.load _
  | ask hrun hstage hsource hevents => exact h.ask hsource hevents
  | answer output hrun hstage => exact h.answer output hrun hstage
  | store hrun hstage => exact h.store hrun hstage
  | quiet hquiet => exact h.quiet hquiet

/-- So does any number of steps. -/
theorem steps (h : Sound setup base c) (hsteps : Steps setup c c') : Sound setup base c' := by
  induction hsteps with
  | refl => exact h
  | tail _ hstep ih => exact ih.step hstep

/-! ## What is folded into a summary -/

/-- If nothing was stored at first and the session has not been removed, the events that are folded
into a summary are those of its scope that the summary covers. -/
theorem folded_eq (h : Sound setup base c) {scope : Scope} {summary : Option Summary}
    {batches : List Batch} (hlineage : Lineage none c.rendered scope summary batches)
    (hepoch : ∀ b ∈ batches, b.epoch = c.epoch scope.session) :
    folded batches = (c.inScope scope).filter (·.id ≤ coverage summary) := by
  have hascending : Ascending (c.inScope scope) := h.numbered.in_scope_ascending scope
  induction hlineage with
  | start =>
      rw [folded, eq_comm, List.filter_eq_nil_iff]
      intro e he
      have hpos := (h.numbered.id_lt_next he).1
      rw [decide_eq_true_eq]
      exact Nat.not_le.2 hpos
  | @next s b earlier hb hscope hboundary _ ih =>
      have hattests := h.attested b hb
      have hevents := hattests.events_eq (hscope ▸ hepoch b List.mem_cons_self)
      have hearlier := ih fun x hx => hepoch x (List.mem_cons_of_mem b hx)
      have hcovered : coverage (some s) = b.boundary := hboundary
      rw [hscope] at hevents
      -- The batch takes up the events where the earlier ones stop.
      rw [folded, hearlier, hevents, hcovered]
      exact hascending.filter_le_append (Nat.le_of_lt hattests.after_lt)

/-- The boundary of a batch from the present log is the number of an event of its scope. -/
theorem exists_boundary (h : Sound setup base c) {b : Batch} (hb : b ∈ c.rendered)
    (hepoch : b.epoch = c.epoch b.scope.session) : ∃ e ∈ c.inScope b.scope, e.id = b.boundary := by
  have hattests := h.attested b hb
  obtain ⟨last, hlast, hid⟩ := Batch.exists_last hattests.after_lt
  have hmem := List.mem_of_getLast? hlast
  rw [hattests.events_eq hepoch] at hmem
  exact ⟨last, (List.mem_filter.1 hmem).1, hid⟩

end Sound

/-! ## What steps never take back -/

/-- The record of the prompts is only added to. -/
theorem steps_keep_rendered {setup : Setup} {c c' : Chronicle σ} (hsteps : Steps setup c c') :
    c.rendered <+: c'.rendered := by
  induction hsteps with
  | refl => exact List.prefix_rfl
  | tail _ hstep ih =>
      refine ih.trans ?_
      cases hstep with
      | ask _ _ _ _ => exact List.prefix_append _ _
      | quiet _ => simp only [move_rendered, List.prefix_rfl]
      | answer _ _ _ => simp only [move_rendered, List.prefix_rfl]
      | _ => exact List.prefix_rfl

/-- The number of removals only grows. -/
theorem steps_epoch_le {setup : Setup} {c c' : Chronicle σ} (hsteps : Steps setup c c')
    (key : SessionKey) : c.epoch key ≤ c'.epoch key := by
  induction hsteps with
  | refl => exact Nat.le_refl _
  | @tail d _ _ hstep ih =>
      refine Nat.le_trans ih ?_
      cases hstep with
      | remove removed =>
          show d.epoch key ≤ Function.update d.epoch removed (d.epoch removed + 1) key
          by_cases hkey : key = removed
          · rw [hkey, Function.update_self]
            exact Nat.le_succ _
          · rw [Function.update_of_ne hkey]
      | quiet _ => rw [move_epoch]
      | answer _ _ _ => rw [move_epoch]
      | _ => exact Nat.le_refl _

end Chronicle

end Transcript
