import Transcript.Proofs.Pipeline.Provenance
import Transcript.Proofs.Service.History

/-!
# What a request stands for

A request that carries a summary stands for the events that are folded into the summary, and for
those that it repeats. As long as a session is not removed, these are all events of the scope, each
of them once (`Chronicle.represented_once`), whatever jobs run at the same time. For what a caller
can do this is `Service.request_represents_scope`.

Summaries outlive the removal of their session, but the numbers of its events start anew. An event
that comes in later may have a number that an old summary covers. `Chronicle.untold_verbatim_iff`
says which of the events are repeated that no prompt has told of, and
`Service.reused_key_loses_event` is about one that is lost.
-/

namespace Transcript

/-- A request that carries a summary has the messages of all events behind its boundary. -/
theorem GrowthControl.assemble_carried {log : SessionLog} (hlog : log.IsNumbered) (scope : Scope)
    (system : Option String) (found : Option Summary) :
    (GrowthControl.summary true).assemble system found
        (log.eventsAfter scope.session scope.filter (found.map Summary.coveredUntil)) =
      (system.map Message.system).toList ++ (found.map fun s => summaryMessage s.text).toList ++
        (log.eventsAfter scope.session scope.filter (found.map Summary.coveredUntil)).map
          Event.message := by
  have hevents := hlog.events_after_eq scope (found.map Summary.coveredUntil)
  have hagain : messagesAfter ((found.map Summary.coveredUntil).getD 0)
      (log.eventsAfter scope.session scope.filter (found.map Summary.coveredUntil)) =
      (log.eventsAfter scope.session scope.filter (found.map Summary.coveredUntil)).map
        Event.message := by
    rw [messagesAfter, hevents, List.filter_filter]
    simp only [Bool.and_self]
  cases found with
  | none =>
      show _ ++ messagesAfter 0 _ = _ ++ [] ++ _
      rw [List.append_nil]
      exact congrArg _ hagain
  | some s =>
      rw [List.append_assoc]
      exact congrArg (fun messages => _ ++ summaryMessage s.text :: messages) hagain

/-! ## A small service -/

/-- A conversation. -/
def SessionKey.desk : SessionKey := ⟨"app", "user", "desk"⟩

/-- What a user says at the beginning of time. -/
def Event.saying (text : String) : Event where
  author := "user"
  message := .user text
  timestamp := ⟨0, 0⟩

/-- Parts with a model that makes the same of everything. -/
def ServiceParts.terse : ServiceParts MemoryStore where
  config := { summary := { config := { template := conversationPlace, eventThreshold := 100 } } }
  summarizer := some { reply := fun _ _ => { ending := .value { text := "S" } } }
  store := {}
  start := ⟨0, 0⟩

/-- A service that sums up when it is told to. -/
def Service.terse : Service MemoryStore where
  config := ServiceParts.terse.config
  setup :=
    { summarizer := { reply := fun _ _ => { ending := .value { text := "S" } } }
      template := { template := conversationPlace }
      timeout := .ofSeconds 30
      start := ⟨0, 0⟩ }
  checker := ServiceParts.terse.config.summary.config.checker
  cost := TokenCounter.standard
  control := .summary true
  pipeline := { store := {}, pool := some (Pool.ofConfig {}) }

/-- It is what is built from these parts. -/
theorem Service.build_terse : ServiceParts.terse.build = .ok Service.terse :=
  ServiceParts.build_eq_ok_iff.2
    ⟨by decide +kernel, { template := conversationPlace }, by decide +kernel, rfl, rfl⟩

/-- The chronicle of what the small service does. -/
theorem Service.exists_chronicle_terse (ops : List Operation) :
    ∃ c : Chronicle MemoryStore, Chronicle.Steps Service.terse.setup
        (Chronicle.initial {} (some (Pool.ofConfig {}))) c ∧
      c.pipeline = (Service.terse.performAll ops).pipeline ∧
      ∀ key, c.epoch key = ops.count (.remove key) := by
  obtain ⟨c, hsteps, hc, -, -, hepoch⟩ := Service.terse.exists_chronicle ops
    (show (Chronicle.initial {} (some (Pool.ofConfig {}))).pipeline =
      Service.terse.pipeline from rfl)
  refine ⟨c, hsteps, hc, ?_⟩
  intro key
  rw [hepoch key]
  exact Nat.zero_add _

namespace Chronicle

variable {σ : Type} [SummaryStore σ] [LawfulStore σ]
variable {setup : Setup} {store : σ} {pool : Option Pool} {base : Scope → Option Summary}
variable {c c' : Chronicle σ}

/-- The batches account for a summary: they are its lineage, which ends with an event of the scope,
and they have the events of the scope that it covers, each of them in one batch. -/
structure Accounts (c : Chronicle σ) (scope : Scope) (s : Summary) (batches : List Batch) :
    Prop where
  lineage : Lineage none c.rendered scope (some s) batches
  boundary : ∃ e ∈ c.inScope scope, e.id = s.coveredUntil
  folded_eq : folded batches = (c.inScope scope).filter (·.id ≤ s.coveredUntil)
  once : ∀ e ∈ folded batches, batches.countP (e ∈ ·.events) = 1

/-- If no prompt is from an earlier log, the lineage of a summary accounts for it. -/
theorem Sound.accounts (h : Sound setup base c) {scope : Scope} {s : Summary} {batches : List Batch}
    (hlineage : Lineage none c.rendered scope (some s) batches)
    (hepoch : ∀ b ∈ batches, b.epoch = c.epoch scope.session) : c.Accounts scope s batches := by
  have hfolded := h.folded_eq hlineage hepoch
  refine ⟨hlineage, ?_, hfolded, ?_⟩
  · cases hlineage with
    | next hb hscope hboundary _ =>
        rw [hboundary, ← hscope]
        exact h.exists_boundary hb (hscope ▸ hepoch _ List.mem_cons_self)
  · intro e he
    refine count_batches_eq_one ?_ he
    rw [hfolded]
    exact ((h.numbered.in_scope_ascending scope).filter _).nodup

/-- While a session has not been removed, all prompts about it are from the present log. -/
theorem Sound.epoch_eq (h : Sound setup base c) {scope : Scope} {summary : Option Summary}
    {first : Option Summary} {batches : List Batch}
    (hlineage : Lineage first c.rendered scope summary batches)
    (hkept : c.epoch scope.session = 0) : ∀ b ∈ batches, b.epoch = c.epoch scope.session := by
  intro b hb
  obtain ⟨hrendered, hscope⟩ := hlineage.mem_rendered b hb
  have hle := (h.attested b hrendered).epoch_le
  rw [hscope] at hle
  omega

/-- If no prompt is from an earlier log, what is folded into a summary and the events behind its
boundary are the events of the scope. -/
theorem Sound.folded_append_repeated (h : Sound setup base c) {scope : Scope}
    {found : Option Summary} {batches : List Batch}
    (hlineage : Lineage none c.rendered scope found batches) (hkept : c.epoch scope.session = 0) :
    folded batches ++ c.pipeline.log.eventsAfter scope.session scope.filter
      (found.map Summary.coveredUntil) = c.inScope scope := by
  have hascending : Ascending (c.inScope scope) := h.numbered.in_scope_ascending scope
  rw [h.folded_eq hlineage (h.epoch_eq hlineage hkept), h.numbered.events_after_eq]
  exact hascending.split (coverage found)

/-- What is loaded has its lineage, also when the log has gone on. -/
theorem Sound.loaded_lineage (h : Sound setup base c) (hlater : Steps setup c c') {scope : Scope}
    {found : Option Summary} (hload : SummaryStore.load c.pipeline.store scope = .ok found) :
    Lineage (base scope) c'.rendered scope found (c.stored scope) := by
  rw [← LawfulStore.load_ok hload]
  exact (h.stored scope).mono (steps_keep_rendered hlater).subset

/-- While a session is not removed, every summary of it stands for the events up to its boundary,
and every request for each event once: folded into the summary that was loaded, or repeated. -/
theorem represented_once (hempty : ∀ scope, LawfulStore.content store scope = none)
    (hrun : Steps setup (initial store pool) c) (hlater : Steps setup c c') (scope : Scope)
    (hkept : c'.epoch scope.session = 0) :
    c.pipeline.prompts = c.rendered.map (Batch.prompt setup.template) ∧
    (∀ s, c.content scope = some s → c.Accounts scope s (c.stored scope)) ∧
    ∀ found, SummaryStore.load c.pipeline.store scope = .ok found → ∀ system : Option String,
      let repeated := c'.pipeline.log.eventsAfter scope.session scope.filter
        (found.map Summary.coveredUntil)
      (GrowthControl.summary true).assemble system found repeated =
        (system.map Message.system).toList ++ (found.map fun s => summaryMessage s.text).toList ++
          repeated.map Event.message ∧
      folded (c.stored scope) ++ repeated = c'.inScope scope ∧ (c'.inScope scope).Nodup := by
  have hsound := (sound_initial setup store pool).steps hrun
  have hsound' := hsound.steps hlater
  have hearlier : c.epoch scope.session = 0 :=
    Nat.le_zero.1 (hkept ▸ steps_epoch_le hlater scope.session)
  refine ⟨hsound.prompts, ?_, ?_⟩
  · intro s hs
    have hlineage := hsound.stored scope
    rw [hs, hempty scope] at hlineage
    exact hsound.accounts hlineage (hsound.epoch_eq hlineage hearlier)
  · -- The log may have grown since the load, but what was loaded keeps its lineage.
    intro found hload system repeated
    have hlineage := hsound.loaded_lineage hlater hload
    rw [hempty scope] at hlineage
    exact ⟨GrowthControl.assemble_carried hsound'.numbered scope system found,
      hsound'.folded_append_repeated hlineage hkept,
      (hsound'.numbered.in_scope_ascending scope).nodup⟩

/-- The first of two events is folded into the summary, and the second is repeated. -/
theorem represented_once_two_events :
    let scope := Scope.whole .desk
    let summary : Summary := { text := "S", coveredUntil := 1, generatedAt := ⟨0, 0⟩ }
    ∃ c : Chronicle MemoryStore,
      c.pipeline = (Service.terse.performAll [.append .desk (.saying "x"), .summarize scope true,
        .append .desk (.saying "y")]).pipeline ∧
      c.Accounts scope summary (c.stored scope) ∧
      folded (c.stored scope) ++ [{ Event.saying "y" with id := 2 }] =
        [{ Event.saying "x" with id := 1 }, { Event.saying "y" with id := 2 }] := by
  intro scope summary
  obtain ⟨c, hsteps, hc, hepoch⟩ := Service.exists_chronicle_terse [.append .desk (.saying "x"),
    .summarize scope true, .append .desk (.saying "y")]
  have hkept : c.epoch scope.session = 0 := hepoch _
  obtain ⟨-, haccounts, hrequest⟩ := represented_once (fun _ => rfl) hsteps .refl scope hkept
  have hcontent : c.content scope = some summary := by
    unfold content
    rw [hc]
    decide +kernel
  obtain ⟨-, hfolded, -⟩ := hrequest (some summary) (congrArg Except.ok hcontent) none
  refine ⟨c, hc, haccounts summary hcontent, ?_⟩
  unfold inScope at hfolded
  rw [hc] at hfolded
  have hrepeated : (Service.terse.performAll [.append .desk (.saying "x"), .summarize scope true,
      .append .desk (.saying "y")]).pipeline.log.eventsAfter scope.session scope.filter (some 1) =
      [{ Event.saying "y" with id := 2 }] := by decide +kernel
  rw [← hrepeated]
  refine hfolded.trans ?_
  decide +kernel

/-! ## Keys that are used again -/

/-- No prompt has told of the event since it came in. -/
def Untold (c : Chronicle σ) (key : SessionKey) (e : Event) : Prop :=
  ∀ b ∈ c.rendered, b.scope.session = key → b.epoch = c.epoch key → e ∉ b.events

/-- An event that no prompt has told of is repeated exactly if its number is beyond what was stored
at first, and beyond those prompts behind the summary that are from before a removal of the
session. -/
theorem untold_verbatim_iff (hrun : Steps setup (initial store pool) c)
    (hlater : Steps setup c c') {scope : Scope} {found : Option Summary}
    (hload : SummaryStore.load c.pipeline.store scope = .ok found) {e : Event}
    (he : e ∈ c'.inScope scope) (huntold : c'.Untold scope.session e) (system : Option String) :
    let repeated := c'.pipeline.log.eventsAfter scope.session scope.filter
      (found.map Summary.coveredUntil)
    (GrowthControl.summary true).assemble system found repeated =
      (system.map Message.system).toList ++ (found.map fun s => summaryMessage s.text).toList ++
        repeated.map Event.message ∧
    (e ∈ repeated ↔ coverage (LawfulStore.content store scope) < e.id ∧
      ∀ b ∈ c.stored scope, b.epoch = c'.epoch scope.session ∨ b.boundary < e.id) := by
  intro repeated
  have hsound := (sound_initial setup store pool).steps hrun
  have hsound' := hsound.steps hlater
  have hlineage := hsound.loaded_lineage hlater hload
  have hafter : ∀ b ∈ c'.rendered, b.after < b.boundary :=
    fun b hb => (hsound'.attested b hb).after_lt
  have hrepeated : e ∈ repeated ↔ coverage found < e.id := by
    have heq : repeated = (c'.inScope scope).filter (coverage found < ·.id) :=
      hsound'.numbered.events_after_eq scope _
    rw [heq, List.mem_filter, decide_eq_true_eq]
    exact and_iff_right he
  refine ⟨GrowthControl.assemble_carried hsound'.numbered scope system found, ?_⟩
  rw [hrepeated]
  constructor
  · intro hlt
    refine ⟨Nat.lt_of_le_of_lt (hlineage.base_le hafter) hlt, ?_⟩
    intro b hb
    exact .inr (Nat.lt_of_le_of_lt (hlineage.boundary_le hafter b hb) hlt)
  · rintro ⟨hfirst, hbeyond⟩
    by_contra hcovered
    -- Some batch reaches past the number of the event. It is from the present log, so it has told
    -- of the event.
    obtain ⟨b, hb, hafter, hle⟩ := hlineage.exists_covering hfirst (Nat.le_of_not_lt hcovered)
    obtain ⟨hrendered, hscope⟩ := hlineage.mem_rendered b hb
    have hpresent : b.epoch = c'.epoch scope.session :=
      (hbeyond b hb).resolve_right (Nat.not_lt.2 hle)
    have hevents := (hsound'.attested b hrendered).events_eq (hscope ▸ hpresent)
    refine huntold b hrendered (by rw [hscope]) hpresent ?_
    rw [hevents, hscope, List.mem_filter, decide_eq_true_eq]
    exact ⟨he, hafter, hle⟩

/-- Under a key that is used again, the second event is beyond the old prompt, and the first is
not. -/
theorem untold_verbatim_iff_reused_key :
    let scope := Scope.whole .desk
    ∃ c : Chronicle MemoryStore,
      c.pipeline = (Service.terse.performAll [.append .desk (.saying "x"), .summarize scope true,
        .remove .desk, .append .desk (.saying "y"), .append .desk (.saying "z")]).pipeline ∧
      (∃ b ∈ c.stored scope, b.epoch ≠ c.epoch .desk ∧ 1 ≤ b.boundary) ∧
      ∀ b ∈ c.stored scope, b.epoch = c.epoch .desk ∨ b.boundary < 2 := by
  intro scope
  obtain ⟨d, hsteps, hd, hepoch⟩ := Service.exists_chronicle_terse
    [.append .desk (.saying "x"), .summarize scope true]
  obtain ⟨c, hlater, hc, -, -, hepoch'⟩ := Service.exists_chronicle
    (Service.terse.performAll [.append .desk (.saying "x"), .summarize scope true])
    [.remove .desk, .append .desk (.saying "y"), .append .desk (.saying "z")] hd
  rw [← Service.perform_all_append] at hc
  have hrun := hsteps.trans hlater
  have hsound := (sound_initial _ _ _).steps hsteps
  have hsound' := (sound_initial _ _ _).steps hrun
  -- The only prompt is from before the removal.
  have hrendered : d.rendered = c.rendered := by
    refine (steps_keep_rendered hlater).eq_of_length ?_
    have hlength := congrArg List.length hsound.prompts
    have hlength' := congrArg List.length hsound'.prompts
    rw [List.length_map, hd] at hlength
    rw [List.length_map, hc] at hlength'
    rw [← hlength, ← hlength']
    decide +kernel
  have huntold : ∀ e, c.Untold scope.session e := by
    intro e b hb hsession hb' _
    rw [← hrendered] at hb
    have hle := (hsound.attested b hb).epoch_le
    rw [hepoch' scope.session, hepoch scope.session] at hb'
    rw [hepoch b.scope.session, hsession, hb'] at hle
    exact absurd hle (by decide)
  have hload : SummaryStore.load c.pipeline.store scope =
      .ok (some { text := "S", coveredUntil := 1, generatedAt := ⟨0, 0⟩ }) := by
    rw [hc]
    decide +kernel
  have hy : { Event.saying "y" with id := 1 } ∈ c.inScope scope := by
    rw [inScope, hc]
    decide +kernel
  have hz : { Event.saying "z" with id := 2 } ∈ c.inScope scope := by
    rw [inScope, hc]
    decide +kernel
  obtain ⟨-, hfirst⟩ := untold_verbatim_iff hrun .refl hload hy (huntold _) none
  obtain ⟨-, hsecond⟩ := untold_verbatim_iff hrun .refl hload hz (huntold _) none
  refine ⟨c, hc, ?_, (hsecond.1 ?_).2⟩
  · by_contra hnone
    have hrepeated := hfirst.2 ⟨Nat.one_pos, fun b hb => by
      by_contra hbeyond
      rw [not_or, Nat.not_lt] at hbeyond
      exact hnone ⟨b, hb, hbeyond⟩⟩
    rw [hc] at hrepeated
    revert hrepeated
    decide +kernel
  · rw [hc]
    decide +kernel

end Chronicle

namespace Service

variable {σ : Type} [SummaryStore σ]

/-- A request that carries a summary is made of what is loaded and of the log behind it. -/
theorem request_eq {s : Service σ} (hcontrol : s.control = .summary true) {scope : Scope}
    {found : Option Summary} (hload : (s.pipeline.load s.setup scope).1 = .ok found)
    (system : Option String) :
    (s.request scope system).1 = (GrowthControl.summary true).assemble system found
      ((s.pipeline.load s.setup scope).2.log.eventsAfter scope.session scope.filter
        (found.map Summary.coveredUntil)) := by
  have hcarried :
      s.carried scope = (found, { s with pipeline := (s.pipeline.load s.setup scope).2 }) := by
    have hcarries : s.control.carriesSummary = true := by
      rw [hcontrol]
      rfl
    unfold carried
    rw [if_pos hcarries]
    generalize s.pipeline.load s.setup scope = result at *
    obtain ⟨loaded, p⟩ := result
    cases hload
    rfl
  unfold request
  rw [hcarried, hcontrol]

variable [LawfulStore σ]

/-- Whatever a caller does with a service that carries summaries, short of a removal: a request
whose load succeeds stands for every event of its scope. -/
theorem request_represents_scope {parts : ServiceParts σ} {s : Service σ}
    (hbuild : parts.build = .ok s) (hcontrol : parts.control = .summary true)
    (hempty : ∀ scope, LawfulStore.content parts.store scope = none) (ops : List Operation)
    {scope : Scope} (hkept : .remove scope.session ∉ ops) {found : Option Summary}
    (hload : ((s.performAll ops).pipeline.load s.setup scope).1 = .ok found)
    (system : Option String) :
    ∃ (rendered batches : List Batch) (repeated : List Event),
      ((s.performAll ops).request scope system).1 =
        (system.map Message.system).toList ++ (found.map fun s => summaryMessage s.text).toList ++
          repeated.map Event.message ∧
      Lineage none rendered scope found batches ∧
      ((s.performAll ops).pipeline.load s.setup scope).2.prompts =
        rendered.map (Batch.prompt s.setup.template) ∧
      folded batches ++ repeated =
        ((s.performAll ops).pipeline.load s.setup scope).2.log.inScope scope := by
  obtain ⟨hfresh, hbuilt, -⟩ := ServiceParts.build_pipeline hbuild
  obtain ⟨pool, hpipeline⟩ : ∃ pool, s.pipeline = { store := parts.store, pool } := ⟨_, hfresh⟩
  obtain ⟨d, hsteps, hd, hsetup, hsame, hepoch⟩ := s.exists_chronicle ops
    (show (Chronicle.initial parts.store pool).pipeline = s.pipeline from hpipeline.symm)
  -- Jobs go on while the summary is loaded, so what counts is what there is in the end.
  obtain ⟨c, hlater, hc, hepoch'⟩ := Pipeline.leads_load s.setup _ scope d hd
  have hsound := ((Chronicle.sound_initial s.setup parts.store pool).steps hsteps).steps hlater
  have hlineage := hsound.stored scope
  have hcontent : c.content scope = found := by
    refine LawfulStore.load_ok ?_
    rw [hc]
    exact Pipeline.load_ok s.setup hload
  rw [hempty scope, hcontent] at hlineage
  have hremovals : c.epoch scope.session = 0 := by
    rw [hepoch', hepoch, List.count_eq_zero.2 hkept]
    rfl
  have hcarries : (s.performAll ops).control = .summary true := by
    rw [hsame, hbuilt, hcontrol]
  rw [← hsetup] at hload
  refine ⟨c.rendered, c.stored scope, c.pipeline.log.eventsAfter scope.session scope.filter
    (found.map Summary.coveredUntil), ?_, hlineage, ?_, ?_⟩
  · rw [request_eq hcarries hload, hsetup, ← hc]
    exact GrowthControl.assemble_carried hsound.numbered scope system found
  · rw [← hc]
    exact hsound.prompts
  · rw [← hc]
    exact hsound.folded_append_repeated hlineage hremovals

/-- An event gets lost whose number is covered by a summary from before the removal of its session.
No prompt is made after it has come in, and all loads succeed. -/
theorem reused_key_loses_event :
    let scope := Scope.whole .desk
    let removed := terse.performAll
      [.append .desk (.saying "x"), .summarize scope true, .remove .desk]
    let reused := removed.perform (.append .desk (.saying "y"))
    ServiceParts.terse.build = .ok terse ∧
      { Event.saying "y" with id := 1 } ∈ reused.pipeline.log.inScope scope ∧
      reused.pipeline.prompts = removed.pipeline.prompts ∧
      (reused.pipeline.load reused.setup scope).1 =
        .ok (some { text := "S", coveredUntil := 1, generatedAt := ⟨0, 0⟩ }) ∧
      (reused.request scope none).1 = [summaryMessage "S"] := by
  intro scope removed reused
  refine ⟨build_terse, ?_, ?_, ?_, ?_⟩
  · decide +kernel
  · decide +kernel
  · decide +kernel
  · decide +kernel

end Service

end Transcript
