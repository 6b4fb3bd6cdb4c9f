import Mathlib.Data.List.Infix
import Transcript.Config.Json
import Transcript.Pipeline.Pool
import Transcript.Proofs.Json.Records
import Transcript.Proofs.Summary.RoundTrip
import Transcript.Proofs.Text.Pattern

/-!
# Configurations that are written in part

A configuration is read back from its JSON text whatever is deleted from it: fields, sections or
everything. What is left has the values it had, and the rest has its usual values
(`Config.of_text_prune`). The reader then asks only whether it can work with the result, and with
what it accepts neither the template nor the pool finds anything wrong (`Config.works_of_validate`).
-/

namespace Transcript.Json

variable (deleted : List String → Bool) (path : List String)

namespace Value

mutual
/-- What is left of a value at the path when members of the objects in it are deleted. Members are
named by their paths. -/
def prune (path : List String) : Value → Value
  | .object members => .object (pruneMembers path members)
  | v => v

/-- The members of an object at the path that are left. -/
def pruneMembers (path : List String) : List (String × Value) → List (String × Value)
  | [] => []
  | (name, v) :: ms =>
    if deleted (path ++ [name]) then pruneMembers path ms
    else (name, v.prune (path ++ [name])) :: pruneMembers path ms
end

mutual
/-- What is left of a plain value is plain. -/
theorem is_plain_prune (path : List String) (v : Value) {depth : Nat} (h : v.IsPlain depth) :
    (v.prune deleted path).IsPlain depth := by
  match v with
  | .null => exact h
  | .bool _ => exact h
  | .number _ => exact h
  | .string _ => exact h
  | .array _ => exact h
  | .object members => exact ⟨h.1, are_plain_prune_members path members h.2⟩
  | .broken _ => exact h

/-- The same for the members of an object. -/
theorem are_plain_prune_members (path : List String) (members : List (String × Value)) {depth : Nat}
    (h : MembersArePlain depth members) :
    MembersArePlain depth (pruneMembers deleted path members) := by
  match members with
  | [] => exact h
  | (name, v) :: ms =>
      rw [pruneMembers]
      split
      · exact are_plain_prune_members path ms h.2
      · exact ⟨is_plain_prune _ v h.1, are_plain_prune_members path ms h.2⟩
end

/-- The members that are left keep their names and their order. -/
theorem names_prune_members (members : List (String × Value)) :
    ((pruneMembers deleted path members).map Prod.fst).Sublist (members.map Prod.fst) := by
  induction members with
  | nil => exact .slnil
  | cons m ms ih =>
      rw [pruneMembers]
      split
      · exact ih.cons _
      · exact ih.cons_cons _

/-- A member is found as what is left of it, unless it is deleted. -/
theorem lookup_prune_members (name : String) (members : List (String × Value)) :
    (pruneMembers deleted path members).lookup name =
      if deleted (path ++ [name]) then none
      else (members.lookup name).map (prune deleted (path ++ [name])) := by
  induction members with
  | nil => simp [pruneMembers]
  | cons m ms ih =>
      obtain ⟨other, v⟩ := m
      rw [pruneMembers]
      by_cases hother : name = other
      · subst hother
        split
        · rename_i hdeleted
          rw [ih, if_pos hdeleted]
        · simp
      · have hbeq : (name == other) = false := by simpa using hother
        split
        · simp [ih, List.lookup_cons, hbeq]
        · simp [ih, List.lookup_cons, hbeq]

/-- A field that is left is read as it was. -/
theorem yields_prune {α : Type} (members : List (String × Value)) (name : String)
    (decode : Decoder α) {w : Value} {a : α} (hlookup : members.lookup name = some w)
    (hread : decode (w.prune deleted (path ++ [name])) = .ok a) :
    Given.Yields ((pruneMembers deleted path members).lookup ·) name decode
      (if deleted (path ++ [name]) then none else some a) := by
  unfold Given.Yields
  dsimp only
  rw [lookup_prune_members, hlookup]
  split
  · rfl
  · exact congrArg some hread

end Value

/-- An object with nothing but fields of the record is accepted when some of them are deleted. -/
theorem Shape.decode_prune {α : Type} {shape : Shape α} {members : List (String × Value)}
    (hnodup : shape.names.Nodup) (hnames : (members.map Prod.fst).Sublist shape.names)
    (hfields : ∀ f ∈ shape.fields,
      Given.Suits ((Value.pruneMembers deleted path members).lookup ·) f) :
    shape.decode ((Value.object members).prune deleted path) =
      shape.build ((Value.pruneMembers deleted path members).lookup ·) := by
  have hleft := (Value.names_prune_members deleted path members).trans hnames
  rw [Value.prune]
  refine Shape.decode_object ((hnodup.sublist hleft).sublist List.filter_sublist) hfields ?_
  intro m hm hother
  exact absurd (hleft.subset (List.mem_map_of_mem hm)) hother

end Transcript.Json

namespace Transcript

open Json

variable (deleted : List String → Bool) (path : List String)

/-- A value that is gone has the usual one in its place. -/
theorem getD_left {α : Type} (gone : Bool) (a usual : α) :
    (if gone then none else some a).getD usual = if gone then usual else a := by
  cases gone <;> rfl

namespace SummaryConfig

/-- The numbers of the section fit a machine word. -/
structure IsRepresentable (c : SummaryConfig) : Prop where
  maxWords : c.maxWords < wordLimit
  eventThreshold : c.eventThreshold < wordLimit
  tokenThreshold : c.tokenThreshold < wordLimit
  timeThreshold : c.timeThreshold < wordLimit

/-- The section with the usual values of the fields that are gone. -/
def without (gone : String → Bool) (c : SummaryConfig) : SummaryConfig where
  maxWords := if gone "max_summary_words" then 0 else c.maxWords
  template := if gone "prompt_template" then standardTemplate else c.template
  eventThreshold := if gone "event_threshold" then 20 else c.eventThreshold
  tokenThreshold := if gone "token_threshold" then 0 else c.tokenThreshold
  timeThreshold := if gone "time_threshold_secs" then 0 else c.timeThreshold
  mode := if gone "trigger_mode" then .any else c.mode
  addToPrompt := if gone "add_summary_to_prompt" then true else c.addToPrompt
  singleFlight := if gone "single_flight" then false else c.singleFlight

/-- A section that is gone as a whole is one without any of its fields. -/
theorem without_section (gone : Bool) (fields : String → Bool) (c : SummaryConfig) :
    (if gone then {} else c.without fields) = c.without fun name => gone || fields name := by
  cases gone <;> rfl

/-- The form of the section on summaries is plain if its numbers fit a machine word. -/
theorem is_plain_encode {c : SummaryConfig} (h : c.IsRepresentable) {depth : Nat}
    (hdepth : depth < nestingLimit) : c.encode.IsPlain depth :=
  ⟨hdepth, Value.is_plain_count h.maxWords _, trivial, Value.is_plain_count h.eventThreshold _,
    Value.is_plain_count h.tokenThreshold _, Value.is_plain_count h.timeThreshold _, trivial,
    trivial, trivial, trivial⟩

/-- The members of the JSON form of the section. -/
def members (c : SummaryConfig) : List (String × Value) :=
  [("max_summary_words", .count c.maxWords), ("prompt_template", .string c.template),
    ("event_threshold", .count c.eventThreshold), ("token_threshold", .count c.tokenThreshold),
    ("time_threshold_secs", .count c.timeThreshold), ("trigger_mode", c.mode.encode),
    ("add_summary_to_prompt", .bool c.addToPrompt), ("single_flight", .bool c.singleFlight)]

/-- What is left of its form is read as the section without the rest. -/
theorem decode_prune {c : SummaryConfig} (h : c.IsRepresentable) :
    decode (c.encode.prune deleted path) =
      .ok (c.without fun name => deleted (path ++ [name])) := by
  have hmode : TriggerMode.decode c.mode.encode = .ok c.mode := by cases c.mode <;> rfl
  have hmaxWords := Value.yields_prune deleted path c.members "max_summary_words" Decoder.count rfl
    (Decoder.count_count h.maxWords)
  have htemplate :=
    Value.yields_prune deleted path c.members "prompt_template" Decoder.string rfl rfl
  have heventThreshold :=
    Value.yields_prune deleted path c.members "event_threshold" Decoder.count rfl
      (Decoder.count_count h.eventThreshold)
  have htokenThreshold :=
    Value.yields_prune deleted path c.members "token_threshold" Decoder.count rfl
      (Decoder.count_count h.tokenThreshold)
  have htimeThreshold :=
    Value.yields_prune deleted path c.members "time_threshold_secs" Decoder.count rfl
      (Decoder.count_count h.timeThreshold)
  have hmode :=
    Value.yields_prune deleted path c.members "trigger_mode" TriggerMode.decode rfl hmode
  have haddToPrompt :=
    Value.yields_prune deleted path c.members "add_summary_to_prompt" Decoder.bool rfl rfl
  have hsingleFlight :=
    Value.yields_prune deleted path c.members "single_flight" Decoder.bool rfl rfl
  have hsuits : ∀ f ∈ shape.fields,
      Given.Suits ((Value.pruneMembers deleted path c.members).lookup ·) f := by
    simp only [shape, List.forall_mem_cons]
    exact ⟨Given.suits_of_yields hmaxWords, Given.suits_of_yields htemplate,
      Given.suits_of_yields heventThreshold, Given.suits_of_yields htokenThreshold,
      Given.suits_of_yields htimeThreshold, Given.suits_of_yields hmode,
      Given.suits_of_yields haddToPrompt, Given.suits_of_yields hsingleFlight,
      List.forall_mem_nil _⟩
  show shape.decode ((Value.object c.members).prune deleted path) = _
  rw [Shape.decode_prune deleted path (by decide) (.refl _) hsuits]
  simp [shape, without, Given.with_default_of_yields hmaxWords,
    Given.with_default_of_yields htemplate, Given.with_default_of_yields heventThreshold,
    Given.with_default_of_yields htokenThreshold, Given.with_default_of_yields htimeThreshold,
    Given.with_default_of_yields hmode, Given.with_default_of_yields haddToPrompt,
    Given.with_default_of_yields hsingleFlight, getD_left, bind, Except.bind, pure, Except.pure]

end SummaryConfig

namespace PoolConfig

/-- The numbers of the section fit a machine word. -/
structure IsRepresentable (c : PoolConfig) : Prop where
  workers : c.workers < wordLimit
  queueSize : c.queueSize < wordLimit
  jobTimeout : c.jobTimeout < wordLimit
  grace : c.grace < wordLimit

/-- The section with the usual values of the fields that are gone. -/
def without (gone : String → Bool) (c : PoolConfig) : PoolConfig where
  workers := if gone "async_worker_count" then 3 else c.workers
  queueSize := if gone "summary_queue_size" then 100 else c.queueSize
  jobTimeout := if gone "per_job_timeout_secs" then 30 else c.jobTimeout
  grace := if gone "shutdown_grace_secs" then 5 else c.grace

/-- The same for the section on jobs. -/
theorem without_section (gone : Bool) (fields : String → Bool) (c : PoolConfig) :
    (if gone then {} else c.without fields) = c.without fun name => gone || fields name := by
  cases gone <;> rfl

/-- The members of the JSON form of the section. -/
def members (c : PoolConfig) : List (String × Value) :=
  [("async_worker_count", .count c.workers), ("summary_queue_size", .count c.queueSize),
    ("per_job_timeout_secs", .count c.jobTimeout), ("shutdown_grace_secs", .count c.grace)]

/-- The form of the section on jobs is plain if its numbers fit a machine word. -/
theorem is_plain_encode {c : PoolConfig} (h : c.IsRepresentable) {depth : Nat}
    (hdepth : depth < nestingLimit) : c.encode.IsPlain depth :=
  ⟨hdepth, Value.is_plain_count h.workers _, Value.is_plain_count h.queueSize _,
    Value.is_plain_count h.jobTimeout _, Value.is_plain_count h.grace _, trivial⟩

/-- What is left of its form is read as the section without the rest. -/
theorem decode_prune {c : PoolConfig} (h : c.IsRepresentable) :
    decode (c.encode.prune deleted path) =
      .ok (c.without fun name => deleted (path ++ [name])) := by
  have hworkers := Value.yields_prune deleted path c.members "async_worker_count" Decoder.count rfl
    (Decoder.count_count h.workers)
  have hqueueSize :=
    Value.yields_prune deleted path c.members "summary_queue_size" Decoder.count rfl
      (Decoder.count_count h.queueSize)
  have hjobTimeout :=
    Value.yields_prune deleted path c.members "per_job_timeout_secs" Decoder.count rfl
      (Decoder.count_count h.jobTimeout)
  have hgrace := Value.yields_prune deleted path c.members "shutdown_grace_secs" Decoder.count rfl
    (Decoder.count_count h.grace)
  have hsuits : ∀ f ∈ shape.fields,
      Given.Suits ((Value.pruneMembers deleted path c.members).lookup ·) f := by
    simp only [shape, List.forall_mem_cons]
    exact ⟨Given.suits_of_yields hworkers, Given.suits_of_yields hqueueSize,
      Given.suits_of_yields hjobTimeout, Given.suits_of_yields hgrace, List.forall_mem_nil _⟩
  show shape.decode ((Value.object c.members).prune deleted path) = _
  rw [Shape.decode_prune deleted path (by decide) (.refl _) hsuits]
  simp [shape, without, Given.with_default_of_yields hworkers,
    Given.with_default_of_yields hqueueSize, Given.with_default_of_yields hjobTimeout,
    Given.with_default_of_yields hgrace, getD_left, bind, Except.bind, pure, Except.pure]

end PoolConfig

namespace TailoringConfig

/-- The numbers of the section fit a machine word. -/
structure IsRepresentable (c : TailoringConfig) : Prop where
  maxTokens : c.maxTokens < wordLimit
  maxHistory : c.maxHistory < wordLimit

/-- The section with the usual values of the fields that are gone. -/
def without (gone : String → Bool) (c : TailoringConfig) : TailoringConfig where
  strategy := if gone "strategy" then .middleOut else c.strategy
  maxTokens := if gone "max_tokens" then 32000 else c.maxTokens
  maxHistory := if gone "max_history_messages" then 0 else c.maxHistory

/-- The same for the section on tailoring. -/
theorem without_section (gone : Bool) (fields : String → Bool) (c : TailoringConfig) :
    (if gone then {} else c.without fields) = c.without fun name => gone || fields name := by
  cases gone <;> rfl

/-- The members of the JSON form of the section. -/
def members (c : TailoringConfig) : List (String × Value) :=
  [("strategy", c.strategy.encode), ("max_tokens", .count c.maxTokens),
    ("max_history_messages", .count c.maxHistory)]

/-- The form of the section on tailoring is plain if its numbers fit a machine word. -/
theorem is_plain_encode {c : TailoringConfig} (h : c.IsRepresentable) {depth : Nat}
    (hdepth : depth < nestingLimit) : c.encode.IsPlain depth :=
  ⟨hdepth, trivial, Value.is_plain_count h.maxTokens _,
    Value.is_plain_count h.maxHistory _, trivial⟩

/-- What is left of its form is read as the section without the rest. -/
theorem decode_prune {c : TailoringConfig} (h : c.IsRepresentable) :
    decode (c.encode.prune deleted path) =
      .ok (c.without fun name => deleted (path ++ [name])) := by
  have hname : Strategy.decode c.strategy.encode = .ok c.strategy := by cases c.strategy <;> rfl
  have hstrategy := Value.yields_prune deleted path c.members "strategy" Strategy.decode rfl hname
  have hmaxTokens := Value.yields_prune deleted path c.members "max_tokens" Decoder.count rfl
    (Decoder.count_count h.maxTokens)
  have hmaxHistory :=
    Value.yields_prune deleted path c.members "max_history_messages" Decoder.count rfl
      (Decoder.count_count h.maxHistory)
  have hsuits : ∀ f ∈ shape.fields,
      Given.Suits ((Value.pruneMembers deleted path c.members).lookup ·) f := by
    simp only [shape, List.forall_mem_cons]
    exact ⟨Given.suits_of_yields hstrategy, Given.suits_of_yields hmaxTokens,
      Given.suits_of_yields hmaxHistory, List.forall_mem_nil _⟩
  show shape.decode ((Value.object c.members).prune deleted path) = _
  rw [Shape.decode_prune deleted path (by decide) (.refl _) hsuits]
  simp [shape, without, Given.with_default_of_yields hstrategy,
    Given.with_default_of_yields hmaxTokens, Given.with_default_of_yields hmaxHistory, getD_left,
    bind, Except.bind, pure, Except.pure]

end TailoringConfig

namespace Toggle

variable {α : Type}

/-- The members of the JSON form of a part that can be switched off. -/
def members (inner : α → Value) (t : Toggle α) : List (String × Value) :=
  [("enabled", .bool t.enabled), ("config", inner t.config)]

/-- The switch and what is set about the part are read independently. -/
theorem decode_prune {usual left : α} {encode : α → Value} {inner : Decoder α} {t : Toggle α}
    (hinner : inner ((encode t.config).prune deleted (path ++ ["config"])) = .ok left) :
    decode usual inner ((t.encode encode).prune deleted path) =
      .ok ⟨if deleted (path ++ ["enabled"]) then true else t.enabled,
        if deleted (path ++ ["config"]) then usual else left⟩ := by
  have henabled := Value.yields_prune deleted path (t.members encode) "enabled" Decoder.bool rfl rfl
  have hconfig := Value.yields_prune deleted path (t.members encode) "config" inner rfl hinner
  have hsuits : ∀ f ∈ (shape usual inner).fields,
      Given.Suits ((Value.pruneMembers deleted path (t.members encode)).lookup ·) f := by
    simp only [shape, List.forall_mem_cons]
    exact ⟨Given.suits_of_yields henabled, Given.suits_of_yields hconfig, List.forall_mem_nil _⟩
  show (shape usual inner).decode ((Value.object (t.members encode)).prune deleted path) = _
  rw [Shape.decode_prune deleted path (by simp [Shape.names, shape, Field.of]) (.refl _) hsuits]
  simp [shape, Given.with_default_of_yields henabled, Given.with_default_of_yields hconfig,
    getD_left, bind, Except.bind, pure, Except.pure]

end Toggle

namespace Config

/-- The numbers of the configuration fit a machine word. -/
structure IsRepresentable (c : Config) : Prop where
  summary : c.summary.config.IsRepresentable
  pool : c.pool.IsRepresentable
  tailoring : c.tailoring.IsRepresentable

/-- Whether a field is gone: it is deleted itself, or a section that it is in. -/
def isGone (path : List String) : Bool := path.inits.tail.any deleted

/-- The configuration with the usual values of the fields that are gone. -/
def without (c : Config) : Config where
  summary :=
    { enabled := if isGone deleted ["summary", "enabled"] then true else c.summary.enabled
      config := c.summary.config.without fun name => isGone deleted ["summary", "config", name] }
  pool := c.pool.without fun name => isGone deleted ["scheduler", name]
  tailoring := c.tailoring.without fun name => isGone deleted ["tailoring", name]

/-- The members of the JSON form of a configuration. -/
def members (c : Config) : List (String × Value) :=
  [("summary", c.summary.encode SummaryConfig.encode), ("scheduler", c.pool.encode),
    ("tailoring", c.tailoring.encode)]

/-- The form of a configuration is plain if all its numbers fit a machine word. -/
theorem is_plain_encode {c : Config} (h : c.IsRepresentable) : c.encode.IsPlain 0 :=
  ⟨by decide, ⟨by decide, trivial, SummaryConfig.is_plain_encode h.summary (by decide), trivial⟩,
    PoolConfig.is_plain_encode h.pool (by decide),
    TailoringConfig.is_plain_encode h.tailoring (by decide), trivial⟩

/-- A configuration without some of its fields, section by section. -/
theorem without_eq (c : Config) :
    c.without deleted =
      { summary :=
          if deleted ["summary"] then { config := {} }
          else
            { enabled := if deleted ["summary", "enabled"] then true else c.summary.enabled
              config :=
                if deleted ["summary", "config"] then {}
                else c.summary.config.without fun name => deleted ["summary", "config", name] }
        pool :=
          if deleted ["scheduler"] then {}
          else c.pool.without fun name => deleted ["scheduler", name]
        tailoring :=
          if deleted ["tailoring"] then {}
          else c.tailoring.without fun name => deleted ["tailoring", name] } := by
  have htwo (first second : String) :
      isGone deleted [first, second] = (deleted [first] || deleted [first, second]) := by
    simp [isGone]
  have hthree (first second third : String) :
      isGone deleted [first, second, third] =
        (deleted [first] || (deleted [first, second] || deleted [first, second, third])) := by
    simp [isGone]
  rw [PoolConfig.without_section, TailoringConfig.without_section, SummaryConfig.without_section]
  simp only [without, htwo, hthree]
  cases deleted ["summary"] <;> rfl

/-- What is left of the JSON form of a configuration is read as the configuration without the
rest. -/
theorem decode_prune {c : Config} (h : c.IsRepresentable) :
    decode (c.encode.prune deleted []) = .ok (c.without deleted) := by
  have hsummary := Value.yields_prune deleted [] c.members "summary" decodeSummary rfl
    (Toggle.decode_prune deleted _ (SummaryConfig.decode_prune deleted _ h.summary))
  have hpool := Value.yields_prune deleted [] c.members "scheduler" PoolConfig.decode rfl
    (PoolConfig.decode_prune deleted _ h.pool)
  have htailoring := Value.yields_prune deleted [] c.members "tailoring" TailoringConfig.decode rfl
    (TailoringConfig.decode_prune deleted _ h.tailoring)
  have hsuits : ∀ f ∈ shape.fields,
      Given.Suits ((Value.pruneMembers deleted [] c.members).lookup ·) f := by
    simp only [shape, List.forall_mem_cons]
    exact ⟨Given.suits_of_yields hsummary, Given.suits_of_yields hpool,
      Given.suits_of_yields htailoring, List.forall_mem_nil _⟩
  show shape.decode ((Value.object c.members).prune deleted []) = _
  rw [Shape.decode_prune deleted [] (by decide) (.refl _) hsuits, without_eq]
  simp [shape, Given.with_default_of_yields hsummary, Given.with_default_of_yields hpool,
    Given.with_default_of_yields htailoring, getD_left, bind, Except.bind, pure, Except.pure]

/-! ## Texts -/

/-- The usual template has a place for the conversation at its end. -/
theorem has_place_standard_template : PromptTemplate.hasPlace standardTemplate = true := by
  refine Text.mentions_iff.2 (List.IsSuffix.isInfix ?_)
  unfold standardTemplate
  rw [String.toList_append]
  exact List.suffix_append ..

/-- The configuration that a text holds is given back exactly if it is accepted. -/
theorem of_text_eq_ok_iff {text : String} {c read : Config} (h : decodeText decode text = .ok c) :
    ofText text = .ok read ↔ read = c ∧ c.validate = .ok () := by
  unfold ofText
  rw [h]
  cases hvalid : c.validate <;> simp [hvalid, bind, Except.bind, pure, Except.pure, eq_comm]

/-- If it is not, its fault is reported. -/
theorem of_text_eq_error_iff {text : String} {c : Config} {f : Failure}
    (h : decodeText decode text = .ok c) : ofText text = .error f ↔ c.validate = .error f := by
  unfold ofText
  rw [h]
  cases hvalid : c.validate <;> simp [hvalid, bind, Except.bind, pure, Except.pure]

/-- What a configuration has to have. -/
theorem validate_eq_ok_iff {c : Config} :
    c.validate = .ok () ↔
      PromptTemplate.hasPlace c.summary.config.template = true ∧ c.pool.workers ≠ 0 ∧
      c.pool.queueSize ≠ 0 ∧ c.pool.jobTimeout ≠ 0 := by
  unfold validate fault?
  split_ifs <;> simp_all

/-- With a configuration that is accepted, the prompt has a template, and the pool is as it is
configured. -/
theorem works_of_validate {c : Config} (h : c.validate = .ok ()) :
    c.summary.config.prompt = .ok ⟨c.summary.config.template, c.summary.config.maxWords⟩ ∧
      (Pool.ofConfig c.pool).workers = c.pool.workers ∧
      (Pool.ofConfig c.pool).capacity = c.pool.queueSize := by
  obtain ⟨hplace, hworkers, hqueue, -⟩ := validate_eq_ok_iff.1 h
  exact ⟨if_pos hplace, Nat.max_eq_left (Nat.one_le_iff_ne_zero.2 hworkers),
    Nat.max_eq_left (Nat.one_le_iff_ne_zero.2 hqueue)⟩

/-- Every usual value is accepted, and so what is left of an accepted configuration is accepted
too. -/
theorem validate_without {c : Config} (h : c.validate = .ok ()) :
    (c.without deleted).validate = .ok () := by
  have hleft (gone : Bool) {n usual : Nat} (hn : n ≠ 0) (husual : usual ≠ 0) :
      (if gone then usual else n) ≠ 0 := by cases gone <;> assumption
  obtain ⟨hplace, hworkers, hqueue, htimeout⟩ := validate_eq_ok_iff.1 h
  refine validate_eq_ok_iff.2
    ⟨?_, hleft _ hworkers (by decide), hleft _ hqueue (by decide), hleft _ htimeout (by decide)⟩
  show PromptTemplate.hasPlace (if _ then standardTemplate else c.summary.config.template) = true
  split
  · exact has_place_standard_template
  · exact hplace

/-- Whatever is deleted from the JSON form of a configuration, what is left is read as the
configuration with the usual values of the fields that are gone. It is given back exactly if it is
accepted, and otherwise its fault is reported. A configuration that is accepted, however it was
made, has a prompt and a pool that is as it is configured. -/
theorem of_text_prune {c : Config} (hc : c.IsRepresentable) {l : Layout} (hl : l.IsSpacious) :
    let text := String.ofList ((c.encode.prune deleted []).print l 0)
    (∀ read, ofText text = .ok read ↔
        read = c.without deleted ∧ (c.without deleted).validate = .ok ()) ∧
      (∀ f, ofText text = .error f ↔ (c.without deleted).validate = .error f) ∧
      ∀ d : Config, d.validate = .ok () →
        d.summary.config.prompt = .ok ⟨d.summary.config.template, d.summary.config.maxWords⟩ ∧
          (Pool.ofConfig d.pool).workers = d.pool.workers ∧
          (Pool.ofConfig d.pool).capacity = d.pool.queueSize := by
  intro text
  have hplain := Value.is_plain_prune deleted [] c.encode (is_plain_encode hc)
  have hread : decodeText decode text = .ok (c.without deleted) := by
    rw [decode_text_of_holds decode (holds_print hl hplain), decode_prune deleted hc]
  exact ⟨fun _ => of_text_eq_ok_iff hread, fun _ => of_text_eq_error_iff hread,
    fun _ => works_of_validate⟩

/-- A pool without workers is refused, but not if the field is deleted, here together with the
section on summaries. -/
theorem of_text_prune_no_workers :
    let c : Config :=
      { summary := { enabled := false, config := { template := conversationPlace, maxWords := 60 } }
        pool := { workers := 0, grace := 9 }
        tailoring := { maxTokens := 800 } }
    let text (deleted : List (List String)) :=
      String.ofList ((c.encode.prune deleted.contains []).print .compact 0)
    let read : Config := { pool := { grace := 9 }, tailoring := { maxTokens := 800 } }
    c.IsRepresentable ∧ Layout.compact.IsSpacious ∧
      ofText (text []) = .error (.invalidConfig .noWorkers) ∧
      ofText (text [["scheduler", "async_worker_count"], ["summary"]]) = .ok read ∧
      read.validate = .ok () ∧ (Pool.ofConfig read.pool).workers = 3 := by
  intro c text read
  have hc : c.IsRepresentable :=
    ⟨⟨by decide, by decide, by decide, by decide⟩, ⟨by decide, by decide, by decide, by decide⟩,
      ⟨by decide, by decide⟩⟩
  have hl := Layout.is_spacious_compact
  have htext (deleted : List (List String)) := of_text_prune deleted.contains hc hl
  have hvalid : read.validate = .ok () :=
    validate_eq_ok_iff.2 ⟨has_place_standard_template, by decide, by decide, by decide⟩
  have hsame : read = c.without [["scheduler", "async_worker_count"], ["summary"]].contains := rfl
  refine ⟨hc, hl, ((htext _).2.1 _).2 ?_, ((htext _).1 _).2 ⟨hsame, hsame ▸ hvalid⟩, hvalid,
    ((htext []).2.2 read hvalid).2.1⟩
  decide +kernel

end Config

end Transcript
