import Mathlib.Data.List.Forall2
import Transcript.Message.Json
import Transcript.Proofs.Json.Records
import Transcript.Proofs.Json.RoundTrip

/-!
# JSON forms of messages

A message has the JSON form that is written for it, and every other in which unknown fields stand
beside the known ones, in the message itself and in its parts and calls. Each of them is read as the
message (`Message.decode_of_has_form`). What is added to a part has to be readable, since a part is
read in full before its kind is known; elsewhere it is enough that it can be passed over.
-/

namespace Transcript

open Json

/-! ## Values that can be read -/

namespace Json.Value

mutual
/-- What can be read can be passed over. -/
theorem pass_fault_of_read_fault {v : Value} (h : v.readFault? = none) : v.passFault? = none := by
  match v with
  | .array items => exact pass_fault_items_of_read_fault h
  | .object members => exact pass_fault_members_of_read_fault h
  | .broken _ => exact nomatch h
  | .null | .bool _ | .number _ | .string _ => rfl

/-- The same for the items of an array. -/
theorem pass_fault_items_of_read_fault {items : List Value} (h : readFaultItems? items = none) :
    passFaultItems? items = none := by
  match items with
  | [] => rfl
  | v :: vs =>
      have hparts : v.readFault? = none ∧ readFaultItems? vs = none := by
        simpa [readFaultItems?] using h
      simp [passFaultItems?, pass_fault_of_read_fault hparts.1,
        pass_fault_items_of_read_fault hparts.2]

/-- The same for the members of an object. -/
theorem pass_fault_members_of_read_fault {members : List (String × Value)}
    (h : readFaultMembers? members = none) : passFaultMembers? members = none := by
  match members with
  | [] => rfl
  | (_, v) :: ms =>
      have hparts : v.readFault? = none ∧ readFaultMembers? ms = none := by
        simpa [readFaultMembers?] using h
      simp [passFaultMembers?, pass_fault_of_read_fault hparts.1,
        pass_fault_members_of_read_fault hparts.2]
end

/-- A member that can be read may have any name that no field has. -/
theorem other_fault_of_read_fault {v : Value} (h : v.readFault? = none) :
    Shape.otherFault? v = none := by
  cases v with
  | broken b => exact nomatch h
  | null | bool b | number n | string s | array items | object members =>
      exact pass_fault_of_read_fault h

end Json.Value

/-! ## Tool calls -/

namespace ToolCall

/-- The value is the JSON form of the call, but for unknown fields. -/
def HasForm (c : ToolCall) (v : Value) : Prop :=
  c.encode.IsEnriched shape.names (Shape.otherFault? · = none) (fun _ w v => v = w) v

/-- What is written for a call is a form of it. -/
theorem has_form_encode (c : ToolCall) : c.HasForm c.encode :=
  Value.is_enriched_refl (by decide) (.refl _) fun _ _ => rfl

/-- Every form of a call is read as the call. -/
theorem decode_of_has_form {c : ToolCall} {v : Value} (h : c.HasForm v) : decode v = .ok c := by
  obtain ⟨members, all, hencode, rfl, hall⟩ := h
  obtain rfl := Value.object.inj hencode
  have hid : Given.Yields (all.lookup ·) "id" Decoder.string (some c.id) :=
    hall.given_yields_required (by decide) rfl fun _ h => h ▸ rfl
  have hname : Given.Yields (all.lookup ·) "name" Decoder.string (some c.name) :=
    hall.given_yields_required (by decide) rfl fun _ h => h ▸ rfl
  have harguments : Given.Yields (all.lookup ·) "arguments" Decoder.string (some c.arguments) :=
    hall.given_yields_required (by decide) rfl fun _ h => h ▸ rfl
  have hsuits : ∀ f ∈ shape.fields, Given.Suits (all.lookup ·) f := by
    simp only [shape, List.forall_mem_cons]
    exact ⟨Given.suits_of_yields hid, Given.suits_of_yields hname, Given.suits_of_yields harguments,
      List.forall_mem_nil _⟩
  rw [decode, Shape.decode_object hall.once hsuits hall.others]
  simp [shape, Given.required_of_yields hid, Given.required_of_yields hname,
    Given.required_of_yields harguments, bind, Except.bind, pure, Except.pure]

end ToolCall

/-! ## Parts -/

namespace ContentPart

/-- The kind of a part. -/
def kind : ContentPart → Kind
  | .text _ => .text
  | .image _ => .image
  | .file _ _ => .file

/-- The names of the members of a part of the kind. -/
def memberNames (k : Kind) : List String := "type" :: (shape k).names

/-- The value is the JSON form of the part, but for unknown fields. -/
def HasForm (p : ContentPart) (v : Value) : Prop :=
  p.encode.IsEnriched (memberNames p.kind) (Value.readFault? · = none) (fun _ w v => v = w) v

/-- The fields of each kind have distinct names. -/
theorem member_names_nodup (k : Kind) : (memberNames k).Nodup := by cases k <;> decide

/-- What is written for a part is a form of it. -/
theorem has_form_encode (p : ContentPart) : p.HasForm p.encode := by
  cases p <;> exact Value.is_enriched_refl (member_names_nodup _) (.refl _) fun _ _ => rfl

section

variable {members : List (String × Value)} {k : Kind}

/-- Behind the kind any other members may follow. -/
theorem kind_of_known (h : ∀ m ∈ members, m.1 ≠ "type" ∧ m.2.readFault? = none) :
    kindOf (some k) members = .ok k := by
  induction members with
  | nil => rfl
  | cons m members ih =>
      obtain ⟨hname, hread⟩ := h m List.mem_cons_self
      have hrest := ih fun m hm => h m (List.mem_cons_of_mem _ hm)
      rw [kindOf, if_neg hname]
      simp [hread, hrest]

/-- The kind is found wherever its member stands, if there is only one of them. -/
theorem kind_of_eq {names : List String} {v : Value} (htype : "type" ∈ names)
    (honce : ((members.map Prod.fst).filter (· ∈ names)).Nodup)
    (hv : members.lookup "type" = some v) (hk : decodeKind v = .ok k)
    (hread : ∀ m ∈ members, m.2.readFault? = none) : kindOf none members = .ok k := by
  induction members with
  | nil => exact nomatch hv
  | cons m members ih =>
      obtain ⟨name, w⟩ := m
      have hread' : ∀ m ∈ members, m.2.readFault? = none :=
        fun m hm => hread m (List.mem_cons_of_mem _ hm)
      rw [List.map_cons, List.filter_cons] at honce
      by_cases hname : name = "type"
      · subst hname
        obtain rfl : w = v := by simpa using hv
        rw [if_pos (by simpa using htype), List.nodup_cons] at honce
        have hrest : kindOf (some k) members = .ok k := by
          refine kind_of_known fun m hm => ⟨fun hsame => ?_, hread' m hm⟩
          exact honce.1 (List.mem_filter.2 ⟨List.mem_map.2 ⟨m, hm, hsame⟩, by simpa using htype⟩)
        rw [kindOf, if_pos rfl]
        simp [hk, hrest, bind, Except.bind]
      · have honce' : ((members.map Prod.fst).filter (· ∈ names)).Nodup := by
          split at honce
          · exact (List.nodup_cons.1 honce).2
          · exact honce
        have hv' : members.lookup "type" = some v := by
          rwa [List.lookup_cons, show ("type" == name) = false by simpa using Ne.symm hname] at hv
        have hw : w.readFault? = none := hread (name, w) List.mem_cons_self
        rw [kindOf, if_neg hname]
        simp [hw, ih honce' hv' hread']

end

/-- No value in the JSON form of a part is out of reach of a reader. -/
theorem read_fault_encode {p : ContentPart} {members : List (String × Value)}
    (h : p.encode = .object members) : ∀ m ∈ members, m.2.readFault? = none := by
  cases p with
  | text t | image url =>
      obtain rfl := Value.object.inj h
      simp [Value.readFault?]
  | file name mimeType =>
      obtain rfl := Value.object.inj h
      cases mimeType <;> simp [Value.readFault?]

section

variable {p : ContentPart} {members all : List (String × Value)}
  (hencode : p.encode = .object members)
  (hall : Enriches (memberNames p.kind) (Value.readFault? · = none)
    (fun _ w v => v = w) members all)

include hencode hall

/-- All members of an enriched form of a part can be read. -/
theorem read_fault_of_enriches : ∀ m ∈ all, m.2.readFault? = none := by
  intro m hm
  by_cases hname : m.1 ∈ memberNames p.kind
  · obtain ⟨w, hw, hsame⟩ := hall.exists_mem hm hname
    rw [hsame]
    exact read_fault_encode hencode _ hw
  · exact hall.others m hm hname

/-- An enriched form of a part is taken for one of the kind of the part. -/
theorem kind_of_enriches : kindOf none all = .ok p.kind := by
  have hlookup : all.lookup "type" = members.lookup "type" :=
    hall.lookup_eq List.mem_cons_self fun _ _ h => h
  have hread := read_fault_of_enriches hencode hall
  cases p <;> cases hencode <;> exact kind_of_eq List.mem_cons_self hall.once hlookup rfl hread

/-- For the record of the kind, the name of the kind is one more member to be passed over. -/
theorem decode_shape_of_enriches : (shape p.kind).decode (.object all) = .ok p := by
  have honce : ((all.map Prod.fst).filter (· ∈ (shape p.kind).names)).Nodup :=
    hall.once.sublist <| List.monotone_filter_right _ fun name hname =>
      decide_eq_true (List.mem_cons_of_mem "type" (of_decide_eq_true hname))
  have hothers : ∀ m ∈ all, m.1 ∉ (shape p.kind).names → Shape.otherFault? m.2 = none :=
    fun m hm _ => Value.other_fault_of_read_fault (read_fault_of_enriches hencode hall m hm)
  have hlookup {name : String} (hname : name ∈ memberNames p.kind) :
      all.lookup name = members.lookup name := hall.lookup_eq hname fun _ _ h => h
  cases p with
  | text t =>
      cases hencode
      dsimp only [kind] at *
      have htext : Given.Yields (all.lookup ·) "text" Decoder.string (some t) :=
        congrArg (Option.map _) (hlookup (by decide))
      have hsuits : ∀ f ∈ (shape .text).fields, Given.Suits (all.lookup ·) f := by
        simp only [shape, List.forall_mem_cons]
        exact ⟨Given.suits_of_yields htext, List.forall_mem_nil _⟩
      rw [Shape.decode_object honce hsuits hothers]
      simp [shape, Given.required_of_yields htext, bind, Except.bind, pure, Except.pure]
  | image url =>
      cases hencode
      dsimp only [kind] at *
      have hurl : Given.Yields (all.lookup ·) "url" Decoder.string (some url) :=
        congrArg (Option.map _) (hlookup (by decide))
      have hsuits : ∀ f ∈ (shape .image).fields, Given.Suits (all.lookup ·) f := by
        simp only [shape, List.forall_mem_cons]
        exact ⟨Given.suits_of_yields hurl, List.forall_mem_nil _⟩
      rw [Shape.decode_object honce hsuits hothers]
      simp [shape, Given.required_of_yields hurl, bind, Except.bind, pure, Except.pure]
  | file name mimeType =>
      cases hencode
      dsimp only [kind] at *
      have hname : Given.Yields (all.lookup ·) "name" Decoder.string (some name) :=
        congrArg (Option.map _) (hlookup (by decide))
      have hkind : Given.Yields (all.lookup ·) "mime_type" (Decoder.option Decoder.string)
          (some mimeType) := by
        refine (congrArg (Option.map _) (hlookup (by decide))).trans ?_
        cases mimeType <;> rfl
      have hsuits : ∀ f ∈ (shape .file).fields, Given.Suits (all.lookup ·) f := by
        simp only [shape, List.forall_mem_cons]
        exact ⟨Given.suits_of_yields hname, Given.suits_of_yields hkind, List.forall_mem_nil _⟩
      rw [Shape.decode_object honce hsuits hothers]
      simp [shape, Given.required_of_yields hname, Given.with_default_of_yields hkind, bind,
        Except.bind, pure, Except.pure]

end

/-- Every form of a part is read as the part. -/
theorem decode_of_has_form {p : ContentPart} {v : Value} (h : p.HasForm v) : decode v = .ok p := by
  obtain ⟨members, all, hencode, rfl, hall⟩ := h
  simp [decode, kind_of_enriches hencode hall, decode_shape_of_enriches hencode hall, bind,
    Except.bind, pure, Except.pure]

end ContentPart

/-! ## Messages -/

/-- A list is read item by item. -/
theorem Json.Decoder.list_of_forms {α : Type} {decode : Decoder α} {HasForm : α → Value → Prop}
    (hdecode : ∀ a v, HasForm a v → decode v = .ok a) {as : List α} {items : List Value}
    (h : List.Forall₂ HasForm as items) : Decoder.list decode (.array items) = .ok as := by
  show items.mapM decode = _
  induction h with
  | nil => rfl
  | cons hitem _ ih =>
      simp [List.mapM_cons, hdecode _ _ hitem, ih, bind, Except.bind, pure, Except.pure]

/-- A member that may be left out is found if it is there. -/
theorem Json.lookup_optional_member {α : Type} (name field : String) (encode : α → Value)
    (o : Option α) :
    (optionalMember field encode o).lookup name = if name = field then o.map encode else none := by
  cases o with
  | none => simp [optionalMember]
  | some a =>
      by_cases hname : name = field
      · simp [optionalMember, hname]
      · have hother : (name == field) = false := by simpa using hname
        simp [optionalMember, List.lookup_cons, hname, hother]

/-- A member that may be left out has no name but its own. -/
theorem Json.names_optional_member {α : Type} (field : String) (encode : α → Value) (o : Option α) :
    ((optionalMember field encode o).map Prod.fst).Sublist [field] := by
  cases o with
  | none => exact List.nil_sublist _
  | some a => exact .refl _

/-- If it is there, it is the form of the value. -/
theorem Json.eq_of_mem_optional_member {α : Type} {field : String} {encode : α → Value}
    {o : Option α} {m : String × Value} (h : m ∈ optionalMember field encode o) :
    ∃ a, o = some a ∧ m = (field, encode a) := by
  cases o with
  | none => exact nomatch h
  | some a => exact ⟨a, rfl, List.mem_singleton.1 h⟩

namespace Role

/-- The name of a role is read as the role. -/
theorem decode_encode (r : Role) : decode r.encode = .ok r := by cases r <;> rfl

end Role

namespace Message

/-- The parts, if a member is written for them. -/
def givenParts (m : Message) : Option (List ContentPart) :=
  if m.parts.isEmpty then none else some m.parts

/-- The members of the JSON form of a message. -/
def members (m : Message) : List (String × Value) :=
  ("role", m.role.encode) ::
    (optionalMember "content" .string m.content ++
      (optionalMember "reasoning" .string m.reasoning ++
        (optionalMember "parts" (fun parts => .array (parts.map ContentPart.encode)) m.givenParts ++
          (optionalMember "tool_calls" (fun calls => .array (calls.map ToolCall.encode))
            m.toolCalls ++
            optionalMember "tool_call_id" .string m.toolCallId))))

/-- A message is written as the object of its members. -/
theorem encode_eq (m : Message) : m.encode = .object m.members := by
  unfold encode members givenParts
  split <;> simp [optionalMember]

/-- What may stand for a field of the message whose JSON form has `w` there. -/
def FieldHasForm (m : Message) (name : String) (w v : Value) : Prop :=
  if name = "parts" then ∃ items, v = .array items ∧ List.Forall₂ ContentPart.HasForm m.parts items
  else if name = "tool_calls" then
    ∃ calls items, m.toolCalls = some calls ∧ v = .array items ∧
      List.Forall₂ ToolCall.HasForm calls items
  else v = w

/-- The value is the JSON form of the message, but for unknown fields in it, in its parts and in its
calls. -/
def HasForm (m : Message) (v : Value) : Prop :=
  m.encode.IsEnriched shape.names (Shape.otherFault? · = none) m.FieldHasForm v

section

variable {m : Message} {w v : Value}

/-- The forms of the parts of a message are those of each of them. -/
theorem field_has_form_parts : m.FieldHasForm "parts" w v ↔
    ∃ items, v = .array items ∧ List.Forall₂ ContentPart.HasForm m.parts items := by
  rw [FieldHasForm, if_pos rfl]

/-- So are the forms of its calls, if it has any. -/
theorem field_has_form_calls : m.FieldHasForm "tool_calls" w v ↔
    ∃ calls items, m.toolCalls = some calls ∧ v = .array items ∧
      List.Forall₂ ToolCall.HasForm calls items := by
  rw [FieldHasForm, if_neg (by decide), if_pos rfl]

/-- All other fields have one form. -/
theorem field_has_form_iff {name : String} (hparts : name ≠ "parts")
    (hcalls : name ≠ "tool_calls") : m.FieldHasForm name w v ↔ v = w := by
  rw [FieldHasForm, if_neg hparts, if_neg hcalls]

end

/-- If parts are written, they are those of the message. -/
theorem mem_given_parts {m : Message} {parts : List ContentPart} (h : parts ∈ m.givenParts) :
    m.parts = parts := by
  unfold givenParts at h
  split at h
  · exact nomatch h
  · exact Option.some.inj h

/-- If none are written, the message has none. -/
theorem given_parts_get (m : Message) : m.givenParts.getD [] = m.parts := by
  unfold givenParts
  split
  · rename_i hempty
    exact (List.isEmpty_iff.1 hempty).symm
  · rfl

/-- Forms of the elements, one by one, are forms of a list. -/
theorem forall₂_map {α : Type} {R : α → Value → Prop} {encode : α → Value} (h : ∀ a, R a (encode a))
    (as : List α) : List.Forall₂ R as (as.map encode) :=
  List.forall₂_map_right_iff.2 (List.forall₂_same.2 fun a _ => h a)

/-- What is written for a message is a form of it. -/
theorem has_form_encode (m : Message) : m.HasForm m.encode := by
  unfold HasForm
  rw [encode_eq]
  refine Value.is_enriched_refl (by decide) ?_ ?_
  · unfold members
    simp only [List.map_cons, List.map_append]
    exact ((names_optional_member _ _ _).append <| (names_optional_member _ _ _).append <|
      (names_optional_member _ _ _).append <| (names_optional_member _ _ _).append
        (names_optional_member _ _ _)).cons_cons _
  · intro member hmember
    simp only [members, List.mem_cons, List.mem_append] at hmember
    have hsame (name : String) {w : Value} (hparts : name ≠ "parts")
      (hcalls : name ≠ "tool_calls") :
        m.FieldHasForm name w w := (field_has_form_iff hparts hcalls).2 rfl
    rcases hmember with rfl | hmember | hmember | hmember | hmember | hmember
    · exact hsame "role" (by decide) (by decide)
    · obtain ⟨text, -, rfl⟩ := eq_of_mem_optional_member hmember
      exact hsame "content" (by decide) (by decide)
    · obtain ⟨text, -, rfl⟩ := eq_of_mem_optional_member hmember
      exact hsame "reasoning" (by decide) (by decide)
    · obtain ⟨parts, hparts, rfl⟩ := eq_of_mem_optional_member hmember
      obtain rfl := mem_given_parts hparts
      exact field_has_form_parts.2 ⟨_, rfl, forall₂_map ContentPart.has_form_encode _⟩
    · obtain ⟨calls, hcalls, rfl⟩ := eq_of_mem_optional_member hmember
      exact field_has_form_calls.2 ⟨calls, _, hcalls, rfl, forall₂_map ToolCall.has_form_encode _⟩
    · obtain ⟨text, -, rfl⟩ := eq_of_mem_optional_member hmember
      exact hsame "tool_call_id" (by decide) (by decide)

section

variable {m : Message} {all : List (String × Value)}
  (hall : Enriches shape.names (Shape.otherFault? · = none) m.FieldHasForm m.members all)

include hall

/-- The role of a message is read from every form of it. -/
theorem role_yields : Given.Yields (all.lookup ·) "role" Role.decode (some m.role) :=
  hall.given_yields_required (by decide) rfl fun v hv => by
    rw [(field_has_form_iff (by decide) (by decide)).1 hv, Role.decode_encode]

/-- A text of the message is read as it is, and none if there is none. -/
theorem text_yields {name : String} {o : Option String} (hname : name ∈ shape.names)
    (hparts : name ≠ "parts") (hcalls : name ≠ "tool_calls")
    (hlookup : m.members.lookup name = o.map .string) :
    Given.Yields (all.lookup ·) name decodeText (o.map some) :=
  hall.given_yields hname hlookup fun text _ v hv => by
    rw [(field_has_form_iff hparts hcalls).1 hv]
    rfl

/-- So are its parts. -/
theorem parts_yields : Given.Yields (all.lookup ·) "parts" decodeParts (m.givenParts.map id) := by
  refine hall.given_yields (f := fun parts => .array (parts.map ContentPart.encode))
    (by decide) ?_ ?_
  · simp [members, List.lookup_cons, List.lookup_append, lookup_optional_member]
  · intro parts hparts v hv
    obtain rfl := mem_given_parts hparts
    obtain ⟨items, rfl, hitems⟩ := field_has_form_parts.1 hv
    exact Decoder.list_of_forms (fun _ _ h => ContentPart.decode_of_has_form h) hitems

/-- So are its calls. -/
theorem calls_yields : Given.Yields (all.lookup ·) "tool_calls" decodeCalls
    (m.toolCalls.map some) := by
  refine hall.given_yields (f := fun calls => .array (calls.map ToolCall.encode)) (by decide) ?_ ?_
  · simp [members, List.lookup_cons, List.lookup_append, lookup_optional_member]
  · intro calls hcalls v hv
    obtain ⟨calls', items, hcalls', rfl, hitems⟩ := field_has_form_calls.1 hv
    obtain rfl : calls' = calls := Option.some.inj (hcalls'.symm.trans hcalls)
    have hlist := Decoder.list_of_forms (fun _ _ h => ToolCall.decode_of_has_form h) hitems
    simp [decodeCalls, Decoder.option, hlist, bind, Except.bind, pure, Except.pure]

end

/-- Every JSON form of a message is read as the message. -/
theorem decode_of_has_form {m : Message} {v : Value} (h : m.HasForm v) : decode v = .ok m := by
  obtain ⟨members, all, hencode, rfl, hall⟩ := h
  obtain rfl : m.members = members := Value.object.inj (m.encode_eq.symm.trans hencode)
  have hrole := role_yields hall
  have hcontent : Given.Yields (all.lookup ·) "content" decodeText (m.content.map some) := by
    refine text_yields hall (by decide) (by decide) (by decide) ?_
    simp [Message.members, List.lookup_cons, List.lookup_append, lookup_optional_member]
  have hreasoning : Given.Yields (all.lookup ·) "reasoning" decodeText (m.reasoning.map some) := by
    refine text_yields hall (by decide) (by decide) (by decide) ?_
    simp [Message.members, List.lookup_cons, List.lookup_append, lookup_optional_member]
  have hparts := parts_yields hall
  have hcalls := calls_yields hall
  have hcallId : Given.Yields (all.lookup ·) "tool_call_id" decodeText (m.toolCallId.map some) := by
    refine text_yields hall (by decide) (by decide) (by decide) ?_
    simp [Message.members, List.lookup_cons, List.lookup_append, lookup_optional_member]
  have hsuits : ∀ f ∈ shape.fields, Given.Suits (all.lookup ·) f := by
    simp only [shape, List.forall_mem_cons]
    exact ⟨Given.suits_of_yields hrole, Given.suits_of_yields hcontent,
      Given.suits_of_yields hreasoning, Given.suits_of_yields hparts, Given.suits_of_yields hcalls,
      Given.suits_of_yields hcallId, List.forall_mem_nil _⟩
  have hget {α : Type} (o : Option α) : (o.map some).getD none = o := by cases o <;> rfl
  rw [decode, Shape.decode_object hall.once hsuits hall.others]
  simp [shape, Given.required_of_yields hrole, Given.with_default_of_yields hcontent,
    Given.with_default_of_yields hreasoning, Given.with_default_of_yields hparts,
    Given.with_default_of_yields hcalls, Given.with_default_of_yields hcallId, hget,
    given_parts_get, bind, Except.bind, pure, Except.pure]

/-- The JSON form of a message is plain wherever there is room for the brackets in it. -/
theorem is_plain_encode (m : Message) {depth : Nat} (h : depth + 3 ≤ nestingLimit) :
    m.encode.IsPlain depth := by
  have hparts (part : ContentPart) : part.encode.IsPlain (depth + 2) := by
    refine part.rec (fun text => ?_) (fun url => ?_) fun name mimeType => ?_
    · exact ⟨h, trivial, trivial, trivial⟩
    · exact ⟨h, trivial, trivial, trivial⟩
    · cases mimeType <;> exact ⟨h, trivial, trivial, trivial, trivial⟩
  have hcalls (call : ToolCall) : call.encode.IsPlain (depth + 2) :=
    ⟨h, trivial, trivial, trivial, trivial⟩
  rw [encode_eq]
  refine ⟨by omega, Value.members_are_plain_iff.2 fun member hmember => ?_⟩
  simp only [members, List.mem_cons, List.mem_append] at hmember
  rcases hmember with rfl | hmember | hmember | hmember | hmember | hmember
  · trivial
  · obtain ⟨text, -, rfl⟩ := eq_of_mem_optional_member hmember
    trivial
  · obtain ⟨text, -, rfl⟩ := eq_of_mem_optional_member hmember
    trivial
  · obtain ⟨parts, -, rfl⟩ := eq_of_mem_optional_member hmember
    exact ⟨by omega, Value.are_plain_iff.2 (List.forall_mem_map.2 fun part _ => hparts part)⟩
  · obtain ⟨calls, -, rfl⟩ := eq_of_mem_optional_member hmember
    exact ⟨by omega, Value.are_plain_iff.2 (List.forall_mem_map.2 fun call _ => hcalls call)⟩
  · obtain ⟨text, -, rfl⟩ := eq_of_mem_optional_member hmember
    trivial

end Message

end Transcript
