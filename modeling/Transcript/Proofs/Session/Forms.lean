import Transcript.Proofs.Message.Forms
import Transcript.Proofs.Summary.RoundTrip
import Transcript.Session.Event

/-!
# JSON forms of events and summaries

Like messages, events and summaries are read back from every JSON form that has nothing but unknown
fields beside the known ones (`Event.decode_of_has_form`, `Summary.decode_of_has_form`). So what is
written is never lost, as a value and as a text (`Json.forms_lose_nothing`).
-/

namespace Transcript

open Json

namespace Usage

/-- The value is the JSON form of the usage, but for unknown fields. -/
def HasForm (u : Usage) (v : Value) : Prop :=
  u.encode.IsEnriched shape.names (Shape.otherFault? · = none) (fun _ w v => v = w) v

/-- What is written for a usage is a form of it. -/
theorem has_form_encode (u : Usage) : u.HasForm u.encode :=
  Value.is_enriched_refl (by decide) (.refl _) fun _ _ => rfl

/-- Every form of a usage is read as the usage. -/
theorem decode_of_has_form {u : Usage} {v : Value} (hu : u.IsRepresentable) (h : u.HasForm v) :
    decode v = .ok u := by
  obtain ⟨members, all, hencode, rfl, hall⟩ := h
  obtain rfl := Value.object.inj hencode
  have hprompt : Given.Yields (all.lookup ·) "prompt_tokens" Decoder.count (some u.prompt) :=
    hall.given_yields_required (by decide) rfl fun _ h => h ▸ Decoder.count_count hu.prompt
  have hcompletion : Given.Yields (all.lookup ·) "completion_tokens" Decoder.count
      (some u.completion) :=
    hall.given_yields_required (by decide) rfl fun _ h => h ▸ Decoder.count_count hu.completion
  have hsuits : ∀ f ∈ shape.fields, Given.Suits (all.lookup ·) f := by
    simp only [shape, List.forall_mem_cons]
    exact ⟨Given.suits_of_yields hprompt, Given.suits_of_yields hcompletion, List.forall_mem_nil _⟩
  rw [decode, Shape.decode_object hall.once hsuits hall.others]
  simp [shape, Given.required_of_yields hprompt, Given.required_of_yields hcompletion, bind,
    Except.bind, pure, Except.pure]

/-- The form of a usage is plain if its numbers fit a machine word. -/
theorem is_plain_encode {u : Usage} (h : u.IsRepresentable) {depth : Nat}
    (hdepth : depth < nestingLimit) : u.encode.IsPlain depth :=
  ⟨hdepth, Value.is_plain_count h.prompt _, Value.is_plain_count h.completion _, trivial⟩

end Usage

namespace Event

/-- The event can be written: its numbers fit a machine word, and its time has a date in the
calendar. -/
structure IsRepresentable (e : Event) : Prop where
  id : e.id < wordLimit
  timestamp : e.timestamp.IsCivil
  usage : ∀ u ∈ e.usage, u.IsRepresentable

/-- The members of the JSON form of an event. -/
def members (e : Event) : List (String × Value) :=
  [("id", .count e.id), ("author", .string e.author), ("branch", .string e.branch),
    ("message", e.message.encode), ("timestamp", e.timestamp.encode)] ++
  optionalMember "usage" Usage.encode e.usage

/-- What may stand for a field of the event whose JSON form has `w` there. -/
def FieldHasForm (e : Event) (name : String) (w v : Value) : Prop :=
  if name = "message" then e.message.HasForm v
  else if name = "usage" then ∃ u, e.usage = some u ∧ u.HasForm v
  else v = w

/-- The value is the JSON form of the event, but for unknown fields in it, in its message and in its
usage. -/
def HasForm (e : Event) (v : Value) : Prop :=
  e.encode.IsEnriched shape.names (Shape.otherFault? · = none) e.FieldHasForm v

section

variable {e : Event} {w v : Value}

/-- The forms of the message of an event are those of the message. -/
theorem field_has_form_message : e.FieldHasForm "message" w v ↔ e.message.HasForm v := by
  rw [FieldHasForm, if_pos rfl]

/-- So are the forms of its usage, if it has one. -/
theorem field_has_form_usage :
    e.FieldHasForm "usage" w v ↔ ∃ u, e.usage = some u ∧ u.HasForm v := by
  rw [FieldHasForm, if_neg (by decide), if_pos rfl]

/-- All other fields have one form. -/
theorem field_has_form_iff {name : String} (hmessage : name ≠ "message") (husage : name ≠ "usage") :
    e.FieldHasForm name w v ↔ v = w := by
  rw [FieldHasForm, if_neg hmessage, if_neg husage]

end

/-- What is written for an event is a form of it. -/
theorem has_form_encode (e : Event) : e.HasForm e.encode := by
  have hsame (name : String) {w : Value} (hmessage : name ≠ "message") (husage : name ≠ "usage") :
      e.FieldHasForm name w w := (field_has_form_iff hmessage husage).2 rfl
  refine Value.is_enriched_refl (by decide) ?_ fun member hmember => ?_
  · rw [List.map_append]
    exact (List.Sublist.refl _).append (names_optional_member _ _ _)
  · rcases List.mem_append.1 hmember with hmember | hmember
    · simp only [List.mem_cons, List.not_mem_nil, or_false] at hmember
      rcases hmember with rfl | rfl | rfl | rfl | rfl
      · exact hsame "id" (by decide) (by decide)
      · exact hsame "author" (by decide) (by decide)
      · exact hsame "branch" (by decide) (by decide)
      · exact field_has_form_message.2 e.message.has_form_encode
      · exact hsame "timestamp" (by decide) (by decide)
    · obtain ⟨u, hu, rfl⟩ := eq_of_mem_optional_member hmember
      exact field_has_form_usage.2 ⟨u, hu, u.has_form_encode⟩

/-- Every JSON form of an event is read as the event. -/
theorem decode_of_has_form {e : Event} {v : Value} (he : e.IsRepresentable) (h : e.HasForm v) :
    decode v = .ok e := by
  obtain ⟨members, all, hencode, rfl, hall⟩ := h
  obtain rfl : e.members = members := Value.object.inj hencode
  have hid : Given.Yields (all.lookup ·) "id" Decoder.count (some e.id) :=
    hall.given_yields_required (by decide) rfl fun _ h => by
      rw [(field_has_form_iff (by decide) (by decide)).1 h, Decoder.count_count he.id]
  have hauthor : Given.Yields (all.lookup ·) "author" Decoder.string (some e.author) :=
    hall.given_yields_required (by decide) rfl fun _ h =>
      (field_has_form_iff (by decide) (by decide)).1 h ▸ rfl
  have hbranch : Given.Yields (all.lookup ·) "branch" Decoder.string (some e.branch) :=
    hall.given_yields_required (by decide) rfl fun _ h =>
      (field_has_form_iff (by decide) (by decide)).1 h ▸ rfl
  have hmessage : Given.Yields (all.lookup ·) "message" Message.decode (some e.message) :=
    hall.given_yields_required (by decide) rfl fun _ h =>
      Message.decode_of_has_form (field_has_form_message.1 h)
  have htimestamp : Given.Yields (all.lookup ·) "timestamp" Timestamp.decode (some e.timestamp) :=
    hall.given_yields_required (by decide) rfl fun _ h => by
      rw [(field_has_form_iff (by decide) (by decide)).1 h, Timestamp.decode_encode he.timestamp]
  have husage : Given.Yields (all.lookup ·) "usage" (Decoder.option Usage.decode)
      (e.usage.map some) := by
    refine hall.given_yields (f := Usage.encode) (by decide) ?_ fun u hu v hv => ?_
    · simp [Event.members, List.lookup_cons, lookup_optional_member]
    · obtain ⟨u', hu', hform⟩ := field_has_form_usage.1 hv
      obtain rfl : u' = u := Option.some.inj (hu'.symm.trans hu)
      have hread := Usage.decode_of_has_form (he.usage u' hu) hform
      obtain ⟨members, all, -, rfl, -⟩ := hform
      simp [Decoder.option, hread, bind, Except.bind, pure, Except.pure]
  have hsuits : ∀ f ∈ shape.fields, Given.Suits (all.lookup ·) f := by
    simp only [shape, List.forall_mem_cons]
    exact ⟨Given.suits_of_yields hid, Given.suits_of_yields hauthor, Given.suits_of_yields hbranch,
      Given.suits_of_yields hmessage, Given.suits_of_yields htimestamp,
      Given.suits_of_yields husage, List.forall_mem_nil _⟩
  have hget (o : Option Usage) : (o.map some).getD none = o := by cases o <;> rfl
  rw [decode, Shape.decode_object hall.once hsuits hall.others]
  simp [shape, Given.with_default_of_yields hid, Given.required_of_yields hauthor,
    Given.with_default_of_yields hbranch, Given.required_of_yields hmessage,
    Given.required_of_yields htimestamp, Given.with_default_of_yields husage, hget, bind,
    Except.bind, pure, Except.pure]

/-- The JSON form of an event is plain. -/
theorem is_plain_encode {e : Event} (he : e.IsRepresentable) : e.encode.IsPlain 0 := by
  refine ⟨by decide, Value.members_are_plain_iff.2 fun member hmember => ?_⟩
  rcases List.mem_append.1 hmember with hmember | hmember
  · simp only [List.mem_cons, List.not_mem_nil, or_false] at hmember
    rcases hmember with rfl | rfl | rfl | rfl | rfl
    · exact Value.is_plain_count he.id _
    · trivial
    · trivial
    · exact e.message.is_plain_encode (by decide)
    · trivial
  · obtain ⟨u, hu, rfl⟩ := eq_of_mem_optional_member hmember
    exact Usage.is_plain_encode (he.usage u hu) (by decide)

end Event

namespace Summary

/-- What may stand for a field of the summary whose JSON form has `w` there. -/
def FieldHasForm (s : Summary) (name : String) (w v : Value) : Prop :=
  if name = "usage" then s.usage.HasForm v else v = w

/-- The value is the JSON form of the summary, but for unknown fields in it and in its usage. -/
def HasForm (s : Summary) (v : Value) : Prop :=
  s.encode.IsEnriched shape.names (Shape.otherFault? · = none) s.FieldHasForm v

/-- What is written for a summary is a form of it. -/
theorem has_form_encode (s : Summary) : s.HasForm s.encode := by
  refine Value.is_enriched_refl (by decide) (.refl _) fun member hmember => ?_
  have hsame (name : String) {w : Value} (hname : name ≠ "usage") : s.FieldHasForm name w w :=
    (if_neg hname).mpr rfl
  simp only [List.mem_cons, List.not_mem_nil, or_false] at hmember
  rcases hmember with rfl | rfl | rfl | rfl
  · exact hsame "text" (by decide)
  · exact hsame "covered_until" (by decide)
  · exact hsame "generated_at" (by decide)
  · exact (if_pos rfl).mpr s.usage.has_form_encode

/-- Every JSON form of a summary is read as the summary. -/
theorem decode_of_has_form {s : Summary} {v : Value} (hs : s.IsRepresentable) (h : s.HasForm v) :
    decode v = .ok s := by
  obtain ⟨members, all, hencode, rfl, hall⟩ := h
  obtain rfl := Value.object.inj hencode
  have hsame {name : String} {w v : Value} (hname : name ≠ "usage") (h : s.FieldHasForm name w v) :
      v = w :=
    (if_neg hname).mp h
  have htext : Given.Yields (all.lookup ·) "text" Decoder.string (some s.text) :=
    hall.given_yields_required (by decide) rfl fun _ h => hsame (by decide) h ▸ rfl
  have hcovered : Given.Yields (all.lookup ·) "covered_until" Decoder.count (some s.coveredUntil) :=
    hall.given_yields_required (by decide) rfl fun _ h => by
      rw [hsame (by decide) h, Decoder.count_count hs.coveredUntil]
  have hgenerated : Given.Yields (all.lookup ·) "generated_at" Timestamp.decode
      (some s.generatedAt) :=
    hall.given_yields_required (by decide) rfl fun _ h => by
      rw [hsame (by decide) h, Timestamp.decode_encode hs.generatedAt]
  have husage : Given.Yields (all.lookup ·) "usage" Usage.decode (some s.usage) :=
    hall.given_yields_required (by decide) rfl fun _ h =>
      Usage.decode_of_has_form hs.usage ((if_pos rfl).mp h)
  have hsuits : ∀ f ∈ shape.fields, Given.Suits (all.lookup ·) f := by
    simp only [shape, List.forall_mem_cons]
    exact ⟨Given.suits_of_yields htext, Given.suits_of_yields hcovered,
      Given.suits_of_yields hgenerated, Given.suits_of_yields husage, List.forall_mem_nil _⟩
  rw [decode, Shape.decode_object hall.once hsuits hall.others]
  simp [shape, Given.required_of_yields htext, Given.required_of_yields hcovered,
    Given.required_of_yields hgenerated, Given.with_default_of_yields husage, bind, Except.bind,
    pure, Except.pure]

end Summary

namespace Json

/-- Nothing of `a` is lost in JSON. -/
structure IsLossless {α : Type} (encode : α → Value) (shape : Shape α) (HasForm : α → Value → Prop)
    (a : α) : Prop where
  /-- What is written is one of the forms. -/
  written : HasForm a (encode a)
  /-- A form stays one when unknown fields are put into it, anywhere and any of those that are
  JSON. -/
  richer : ∀ members extra all, HasForm a (.object members) →
    (∀ m ∈ extra, m.1 ∉ shape.names ∧ Shape.otherFault? m.2 = none) → all.Perm (members ++ extra) →
      HasForm a (.object all)
  /-- The text that is written is read as `a`, with any space between the marks. -/
  text_read : ∀ l : Layout, l.IsSpacious →
    decodeText shape.decode (String.ofList ((encode a).print l 0)) = .ok a
  /-- So is every other form, as a value and as a text that holds it. -/
  form_read : ∀ v, HasForm a v →
    shape.decode v = .ok a ∧ ∀ text, Holds text v → decodeText shape.decode text = .ok a

/-- Nothing is lost of a value if all its enriched forms are read as the value. -/
theorem is_lossless_of_forms {α : Type} {encode : α → Value} {shape : Shape α}
    {FieldHasForm : α → String → Value → Value → Prop} {a : α} (hplain : (encode a).IsPlain 0)
    (hwritten : (encode a).IsEnriched shape.names (Shape.otherFault? · = none)
      (FieldHasForm a) (encode a))
    (hread : ∀ v,
      (encode a).IsEnriched shape.names (Shape.otherFault? · = none) (FieldHasForm a) v →
        shape.decode v = .ok a) :
    IsLossless encode shape
      (fun a v => (encode a).IsEnriched shape.names (Shape.otherFault? · = none) (FieldHasForm a) v)
        a where
  written := hwritten
  richer _ _ _ hmembers hextra hperm := hmembers.add hextra hperm
  text_read l hl := by rw [decode_text_of_holds _ (holds_print hl hplain), hread _ hwritten]
  form_read v hv := ⟨hread v hv, fun text htext => by rw [decode_text_of_holds _ htext, hread v hv]⟩

/-- Messages, events and summaries are read back from their JSON forms, whatever is present in them
and whatever is not, and unknown fields in them, in the parts and calls of a message, in the message
of an event or in a usage change nothing of what is read. The numbers are those of a machine word,
and the times those that can be written. -/
theorem forms_lose_nothing (m : Message) {e : Event} (he : e.IsRepresentable) {s : Summary}
    (hs : s.IsRepresentable) :
    IsLossless Message.encode Message.shape Message.HasForm m ∧
      IsLossless Event.encode Event.shape Event.HasForm e ∧
      IsLossless Summary.encode Summary.shape Summary.HasForm s :=
  ⟨is_lossless_of_forms (m.is_plain_encode (by decide)) m.has_form_encode
      fun _ => Message.decode_of_has_form,
    is_lossless_of_forms (Event.is_plain_encode he) e.has_form_encode
      fun _ => Event.decode_of_has_form he,
    is_lossless_of_forms (Summary.is_plain_encode hs) s.has_form_encode
      fun _ => Summary.decode_of_has_form hs⟩

/-- A file without kind in a message without content, with something noted in each of them. No calls
are not the same as an empty list of calls. -/
theorem forms_lose_nothing_noted_file :
    let m : Message := { role := .assistant, parts := [.file "a.png" none], toolCalls := some [] }
    let e : Event := { id := 7, author := "bot", message := m, timestamp := ⟨0, 0⟩ }
    let s : Summary := ⟨"short", 7, ⟨0, 0⟩, {}⟩
    let part : Value := .object
      [("alt", .string "a picture"), ("type", .string "file"), ("mime_type", .null),
        ("name", .string "a.png")]
    let message : Value := .object
      [("parts", .array [part]), ("role", .string "assistant"), ("tool_calls", .array []),
        ("seen", .bool true)]
    let event : Value := .object
      [("note", .object [("id", .null)]), ("message", message), ("id", .count 7),
        ("author", .string "bot"), ("branch", .string ""), ("timestamp", e.timestamp.encode),
        ("note", .null)]
    e.IsRepresentable ∧ s.IsRepresentable ∧ m.HasForm message ∧ Message.decode message = .ok m ∧
      e.HasForm event ∧ Event.decode event = .ok e ∧
      decodeText Event.decode e.encode.compact = .ok e ∧
      decodeText Summary.decode s.encode.pretty = .ok s := by
  intro m e s part message event
  have he : e.IsRepresentable := ⟨by decide, Timestamp.is_civil_epoch, fun u hu => nomatch hu⟩
  have hs : s.IsRepresentable := Summary.is_representable_at_epoch "short" (by decide)
  obtain ⟨hm, hevent, hsummary⟩ := forms_lose_nothing m he hs
  have hpart : (ContentPart.file "a.png" none).HasForm part := by
    refine ⟨_, _, rfl, rfl, by decide, fun name hname => ?_, by decide⟩
    have hfield : name = "type" ∨ name = "name" ∨ name = "mime_type" := by
      simpa [ContentPart.memberNames, ContentPart.kind, ContentPart.shape, Shape.names,
        Field.of] using hname
    rcases hfield with rfl | rfl | rfl <;> exact .some rfl
  have hmessage : m.HasForm message := by
    refine ⟨_, _, rfl, rfl, by decide, fun name hname => ?_, by decide⟩
    simp only [Message.shape, Shape.names, Field.of, List.map_cons, List.map_nil, List.mem_cons,
      List.not_mem_nil, or_false] at hname
    rcases hname with rfl | rfl | rfl | rfl | rfl | rfl
    · exact .some ((Message.field_has_form_iff (by decide) (by decide)).2 rfl)
    · exact .none
    · exact .none
    · exact .some (Message.field_has_form_parts.2 ⟨_, rfl, .cons hpart .nil⟩)
    · exact .some (Message.field_has_form_calls.2 ⟨[], [], rfl, rfl, .nil⟩)
    · exact .none
  have hform : e.HasForm event := by
    refine ⟨_, _, rfl, rfl, by decide, fun name hname => ?_, by decide⟩
    simp only [Event.shape, Shape.names, Field.of, List.map_cons, List.map_nil, List.mem_cons,
      List.not_mem_nil, or_false] at hname
    have hsame (name : String) {w : Value} (hne : name ≠ "message") (hne' : name ≠ "usage") :
        e.FieldHasForm name w w := (Event.field_has_form_iff hne hne').2 rfl
    rcases hname with rfl | rfl | rfl | rfl | rfl | rfl
    · exact .some (hsame "id" (by decide) (by decide))
    · exact .some (hsame "author" (by decide) (by decide))
    · exact .some (hsame "branch" (by decide) (by decide))
    · exact .some (Event.field_has_form_message.2 hmessage)
    · exact .some (hsame "timestamp" (by decide) (by decide))
    · exact .none
  exact ⟨he, hs, hmessage, (hm.form_read message hmessage).1, hform,
    (hevent.form_read event hform).1, hevent.text_read _ Layout.is_spacious_compact,
    hsummary.text_read _ Layout.is_spacious_pretty⟩

end Json

end Transcript
