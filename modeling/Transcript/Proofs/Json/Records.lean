import Mathlib.Data.List.Basic
import Transcript.Json.Decode

/-!
# Reading records

A record is read from an object by the members that are fields of the record. The object is accepted
when no field is given twice, the value of each is what its field wants and the other members can be
passed over (`Shape.decode_object`); then the record is made of what is found under the names of the
fields. So members of other names change nothing wherever they are put (`Enriches.given_yields`).
-/

namespace Transcript.Json

/-! ## Members by name -/

section

variable {names : List String} {members : List (String × Value)} {name : String} {v : Value}

/-- A field that is not given twice is found wherever its member stands. -/
theorem lookup_eq_some_iff (hname : name ∈ names)
    (honce : ((members.map Prod.fst).filter (· ∈ names)).Nodup) :
    members.lookup name = some v ↔ (name, v) ∈ members := by
  induction members with
  | nil => simp
  | cons m members ih =>
      obtain ⟨other, w⟩ := m
      rw [List.map_cons, List.filter_cons] at honce
      rw [List.lookup_cons, List.mem_cons, Prod.mk.injEq]
      by_cases hother : name = other
      · subst hother
        rw [if_pos (by simpa using hname), List.nodup_cons] at honce
        have habsent : (name, v) ∉ members := fun hmem =>
          honce.1 (List.mem_filter.2 ⟨List.mem_map.2 ⟨_, hmem, rfl⟩, by simpa using hname⟩)
        simp [habsent, eq_comm]
      · have honce' : ((members.map Prod.fst).filter (· ∈ names)).Nodup := by
          split at honce
          · exact (List.nodup_cons.1 honce).2
          · exact honce
        simp [hother, ih honce', show (name == other) = false by simpa using hother]

end

/-! ## What is given for a field -/

namespace Given

variable {α : Type} {given : Given} {name : String} {decode : Decoder α}

/-- What is given for a field is read as `r`, where nothing is given if there is nothing to read. -/
def Yields (given : Given) (name : String) (decode : Decoder α) (r : Option α) : Prop :=
  (given name).map decode = r.map Except.ok

/-- A value that is given is the value of a field that must be there. -/
theorem required_of_yields {a : α} (h : given.Yields name decode (some a)) :
    given.required name decode = .ok a := by
  unfold Yields at h
  unfold required
  cases hgiven : given name with
  | none => simp [hgiven] at h
  | some v => simpa [hgiven] using h

/-- A field that may be left out has the value that is given, or else the usual one. -/
theorem with_default_of_yields {r : Option α} (h : given.Yields name decode r) (usual : α) :
    given.withDefault name usual decode = .ok (r.getD usual) := by
  unfold Yields at h
  unfold withDefault
  cases hgiven : given name <;> cases r <;> simp_all

/-- What is given for the field, if anything is, is what the field wants. -/
def Suits (given : Given) (f : Field) : Prop := ∀ v, given f.name = some v → f.fault? v = none

/-- What a reader has read suits the field that it reads. -/
theorem suits_of_yields {r : Option α} (h : given.Yields name decode r) :
    given.Suits (.of name decode) := by
  intro v (hgiven : given name = some v)
  unfold Yields at h
  rw [hgiven] at h
  cases r with
  | none => exact nomatch h
  | some a =>
      have hread : decode v = .ok a := by simpa using h
      simp [Field.of, fault?, hread]

end Given

/-! ## Objects that are accepted -/

namespace Shape

variable {α : Type}

/-- The names of the fields of a record. -/
def names (shape : Shape α) : List String := shape.fields.map Field.name

/-- A field that is found by its name is one of the fields, and has the name. -/
theorem find_field_eq_some {fields : List Field} {name : String} {f : Field}
    (h : fields.find? (fun f => f.name == name) = some f) : f ∈ fields ∧ f.name = name :=
  ⟨List.mem_of_find?_eq_some h, by simpa using List.find?_some h⟩

/-- If no field is found, none has the name. -/
theorem find_field_eq_none {fields : List Field} {name : String}
    (h : fields.find? (fun f => f.name == name) = none) : name ∉ fields.map Field.name := by
  simpa using h

/-- Members have no fault if no field is given twice, the value of each is what its field wants, and
the other members can be passed over. -/
theorem member_fault_eq_none {fields : List Field} {members : List (String × Value)}
    {seen : List String} (honce : ((members.map Prod.fst).filter (· ∈ fields.map Field.name)).Nodup)
    (hseen : ∀ m ∈ members, m.1 ∈ fields.map Field.name → m.1 ∉ seen)
    (hfields : ∀ f ∈ fields, ∀ v, (f.name, v) ∈ members → f.fault? v = none)
    (hothers : ∀ m ∈ members, m.1 ∉ fields.map Field.name → otherFault? m.2 = none) :
    memberFault? fields seen members = none := by
  induction members generalizing seen with
  | nil => rfl
  | cons m members ih =>
      obtain ⟨name, v⟩ := m
      rw [List.map_cons, List.filter_cons] at honce
      have hfields' : ∀ f ∈ fields, ∀ v, (f.name, v) ∈ members → f.fault? v = none :=
        fun f hf v hmem => hfields f hf v (List.mem_cons_of_mem _ hmem)
      have hothers' : ∀ m ∈ members, m.1 ∉ fields.map Field.name → otherFault? m.2 = none :=
        fun m hm => hothers m (List.mem_cons_of_mem _ hm)
      rw [memberFault?]
      cases hfind : fields.find? (fun f => f.name == name) with
      | none =>
          have hname := find_field_eq_none hfind
          rw [if_neg (by simpa using hname)] at honce
          have hrest := ih honce (fun m hm => hseen m (List.mem_cons_of_mem _ hm)) hfields' hothers'
          simp [hothers _ List.mem_cons_self hname, hrest]
      | some f =>
          obtain ⟨hf, rfl⟩ := find_field_eq_some hfind
          have hname : f.name ∈ fields.map Field.name := List.mem_map_of_mem hf
          rw [if_pos (by simpa using hname), List.nodup_cons] at honce
          have hfresh := hseen _ List.mem_cons_self hname
          have hseen' : ∀ m ∈ members, m.1 ∈ fields.map Field.name → m.1 ∉ f.name :: seen := by
            intro m hm hfield hmem
            rcases List.mem_cons.1 hmem with hsame | hmem
            · -- The field would be given again.
              exact honce.1
                (List.mem_filter.2 ⟨List.mem_map.2 ⟨m, hm, hsame⟩, by simpa using hname⟩)
            · exact hseen m (List.mem_cons_of_mem _ hm) hfield hmem
          have hrest := ih honce.2 hseen' hfields' hothers'
          simp [hfresh, hfields f hf v List.mem_cons_self, hrest]

/-- An object that is accepted is made a record by what is found under the names of its fields. -/
theorem decode_object {shape : Shape α} {members : List (String × Value)}
    (honce : ((members.map Prod.fst).filter (· ∈ shape.names)).Nodup)
    (hfields : ∀ f ∈ shape.fields, Given.Suits (members.lookup ·) f)
    (hothers : ∀ m ∈ members, m.1 ∉ shape.names → otherFault? m.2 = none) :
    shape.decode (.object members) = shape.build (members.lookup ·) := by
  have hfault : memberFault? shape.fields [] members = none := by
    refine member_fault_eq_none honce (fun _ _ _ => List.not_mem_nil)
      (fun f hf v hmem => ?_) hothers
    have hname : f.name ∈ shape.names := List.mem_map_of_mem hf
    exact hfields f hf v ((lookup_eq_some_iff hname honce).2 hmem)
  simp [decode, hfault]

end Shape

/-! ## Further members -/

/-- An object whose fields have their values still, changed at most as `change` tells, and which has
further members beside them. -/
structure Enriches (names : List String) (other : Value → Prop)
    (change : String → Value → Value → Prop) (members all : List (String × Value)) : Prop where
  /-- No field is given twice. -/
  once : ((all.map Prod.fst).filter (· ∈ names)).Nodup
  /-- A field has what it had, and none is given that was not. -/
  fields : ∀ name ∈ names, Option.Rel (change name) (members.lookup name) (all.lookup name)
  /-- The values of the other members do no harm. -/
  others : ∀ m ∈ all, m.1 ∉ names → other m.2

namespace Enriches

variable {names : List String} {other : Value → Prop} {change : String → Value → Value → Prop}
  {members all : List (String × Value)}

/-- An object is itself with nothing added. -/
theorem refl (hnodup : names.Nodup) (hnames : (members.map Prod.fst).Sublist names)
    (hchange : ∀ m ∈ members, change m.1 m.2 m.2) :
    Enriches names other change members members := by
  have honce : ((members.map Prod.fst).filter (· ∈ names)).Nodup :=
    (hnodup.sublist hnames).sublist List.filter_sublist
  refine ⟨honce, fun name hname => ?_, fun m hm hother => ?_⟩
  · cases hlookup : members.lookup name with
    | none => exact .none
    | some v => exact .some (hchange _ ((lookup_eq_some_iff hname honce).1 hlookup))
  · exact absurd (hnames.subset (List.mem_map_of_mem hm)) hother

/-- Members of other names may be put anywhere. -/
theorem add {all' extra : List (String × Value)} (h : Enriches names other change members all)
    (hextra : ∀ m ∈ extra, m.1 ∉ names ∧ other m.2) (hperm : all'.Perm (all ++ extra)) :
    Enriches names other change members all' := by
  have hnone : (extra.map Prod.fst).filter (· ∈ names) = [] := by
    rw [List.filter_eq_nil_iff]
    intro name hname
    obtain ⟨m, hm, rfl⟩ := List.mem_map.1 hname
    simpa using (hextra m hm).1
  have hnames : ((all'.map Prod.fst).filter (· ∈ names)).Perm
      ((all.map Prod.fst).filter (· ∈ names)) := by
    have hmap := (hperm.map Prod.fst).filter (· ∈ names)
    rwa [List.map_append, List.filter_append, hnone, List.append_nil] at hmap
  have honce := hnames.nodup_iff.2 h.once
  refine ⟨honce, fun name hname => ?_, fun m hm hother => ?_⟩
  · have hsame : all'.lookup name = all.lookup name := by
      refine Option.ext fun v => ?_
      have hextra' : (name, v) ∉ extra := fun hmem => (hextra _ hmem).1 hname
      rw [lookup_eq_some_iff hname honce, lookup_eq_some_iff hname h.once, hperm.mem_iff,
        List.mem_append, or_iff_left hextra']
    exact hsame ▸ h.fields name hname
  · rcases List.mem_append.1 (hperm.mem_iff.1 hm) with hmem | hmem
    · exact h.others m hmem hother
    · exact (hextra m hmem).2

/-- A field of the richer object is read as what it was made of. -/
theorem given_yields {α β : Type} {name : String} {decode : Decoder α} {o : Option β}
    {f : β → Value} {g : β → α} (h : Enriches names other change members all) (hname : name ∈ names)
    (hlookup : members.lookup name = o.map f)
    (hread : ∀ b ∈ o, ∀ v, change name (f b) v → decode v = .ok (g b)) :
    Given.Yields (all.lookup ·) name decode (o.map g) := by
  have hrel := h.fields name hname
  rw [hlookup] at hrel
  unfold Given.Yields
  dsimp only
  generalize all.lookup name = found at hrel ⊢
  cases o with
  | none =>
      cases hrel
      rfl
  | some b =>
      cases hrel with
      | some hchange => exact congrArg some (hread b rfl _ hchange)

/-- The same for a field that is always given. -/
theorem given_yields_required {α : Type} {name : String} {decode : Decoder α} {w : Value} {a : α}
    (h : Enriches names other change members all) (hname : name ∈ names)
    (hlookup : members.lookup name = some w) (hread : ∀ v, change name w v → decode v = .ok a) :
    Given.Yields (all.lookup ·) name decode (some a) := by
  have hlookup' : members.lookup name = (some w).map id := hlookup
  exact h.given_yields (g := fun _ => a) hname hlookup' fun b hb v hv =>
    hread v (Option.some.inj hb ▸ hv)

/-- A field whose value may not change is given the same value. -/
theorem lookup_eq {name : String} (h : Enriches names other change members all)
    (hname : name ∈ names) (hchange : ∀ w v, change name w v → v = w) :
    all.lookup name = members.lookup name := by
  have hrel := h.fields name hname
  generalize all.lookup name = found at hrel ⊢
  generalize members.lookup name = given at hrel ⊢
  cases hrel with
  | none => rfl
  | some hsame => rw [hchange _ _ hsame]

/-- A field of the richer object was given before. -/
theorem exists_mem (h : Enriches names other change members all) {m : String × Value} (hm : m ∈ all)
    (hname : m.1 ∈ names) : ∃ w, (m.1, w) ∈ members ∧ change m.1 w m.2 := by
  have hrel := h.fields m.1 hname
  rw [(lookup_eq_some_iff hname h.once).2 hm] at hrel
  cases hlookup : members.lookup m.1 with
  | none =>
      rw [hlookup] at hrel
      exact nomatch hrel
  | some w =>
      rw [hlookup] at hrel
      obtain ⟨before, after, hmembers, -⟩ := List.lookup_eq_some_iff.1 hlookup
      cases hrel with
      | some hchange => exact ⟨w, hmembers ▸ List.mem_append_right _ List.mem_cons_self, hchange⟩

end Enriches

/-- The value is an object that enriches the one which `form` is. -/
def Value.IsEnriched (form : Value) (names : List String) (other : Value → Prop)
    (change : String → Value → Value → Prop) (v : Value) : Prop :=
  ∃ members all, form = .object members ∧ v = .object all ∧ Enriches names other change members all

/-- The richer object may be enriched further, with members of other names anywhere in it. -/
theorem Value.IsEnriched.add {names : List String} {other : Value → Prop}
    {change : String → Value → Value → Prop} {form : Value}
    {members extra all : List (String × Value)}
    (h : form.IsEnriched names other change (.object members))
    (hextra : ∀ m ∈ extra, m.1 ∉ names ∧ other m.2) (hperm : all.Perm (members ++ extra)) :
    form.IsEnriched names other change (.object all) := by
  obtain ⟨given, members', hform, hmembers, henriches⟩ := h
  obtain rfl := Value.object.inj hmembers
  exact ⟨given, all, hform, rfl, henriches.add hextra hperm⟩

/-- An object is an enriched form of itself. -/
theorem Value.is_enriched_refl {names : List String} {other : Value → Prop}
    {change : String → Value → Value → Prop} {members : List (String × Value)}
    (hnodup : names.Nodup) (hnames : (members.map Prod.fst).Sublist names)
    (hchange : ∀ m ∈ members, change m.1 m.2 m.2) :
    (Value.object members).IsEnriched names other change (.object members) :=
  ⟨members, members, rfl, rfl, Enriches.refl hnodup hnames hchange⟩

end Transcript.Json
