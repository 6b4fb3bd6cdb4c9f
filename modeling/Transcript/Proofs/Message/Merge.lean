import Transcript.Message.Merge
import Transcript.Proofs.Summary.RoundTrip

/-!
# Chunks in any grouping

It does not matter which chunks of a row are merged first. A `Bracketing` says in which groups it is
done, and all bracketings of a row come to the same (`merge_all_chunks`), which for messages is told
field by field (`Message.IsMergeOf`). Nor does a grouping bring larger sums than another one does
(`Usage.is_representable_of_part`).
-/

namespace Transcript

/-! ## Two chunks and a third -/

section

variable {α : Type}

/-- Where the values that are present can be put together in any grouping, absent ones change
nothing. -/
instance {append : α → α → α} [Std.Associative append] : Std.Associative (joined append) where
  assoc x y z := by
    cases x with
    | none => rfl
    | some a =>
        cases y with
        | none => rfl
        | some b =>
            cases z with
            | none => rfl
            | some c => exact congrArg some (Std.Associative.assoc a b c)

end

instance : Std.Associative (merge : Message → Message → Message) where
  assoc a b c := by
    show Message.merge (Message.merge a b) c = Message.merge a (Message.merge b c)
    simp only [Message.merge, Std.Associative.assoc, Option.orElse_eq_orElse, Option.orElse_eq_or]

instance : Std.Associative (merge : Usage → Usage → Usage) where
  assoc a b c := by
    show Usage.add (Usage.add a b) c = Usage.add a (Usage.add b c)
    simp only [Usage.add, Nat.add_assoc]

/-! ## Rows of chunks -/

/-- A row of chunks, in groups of which each is merged first. -/
inductive Bracketing (α : Type) where
  /-- A single chunk. -/
  | chunk (a : α)
  /-- Two groups, of which the one comes before the other. -/
  | pair (front back : Bracketing α)

namespace Bracketing

variable {α : Type}

/-- The chunks, in the order in which they came. -/
def chunks : Bracketing α → List α
  | chunk a => [a]
  | pair front back => front.chunks ++ back.chunks

/-- The chunk that the groups are merged to. -/
def merged [Merge α] : Bracketing α → α
  | chunk a => a
  | pair front back => merge front.merged back.merged

/-- The groups that are merged on the way, and the whole. -/
def parts : Bracketing α → List (Bracketing α)
  | chunk a => [chunk a]
  | pair front back => pair front back :: (front.parts ++ back.parts)

end Bracketing

section

variable {α : Type} [Merge α] [Std.Associative (merge : α → α → α)]

/-- A row may be merged in two parts. -/
theorem merge_all_append (as bs : List α) :
    mergeAll (as ++ bs) = joined merge (mergeAll as) (mergeAll bs) := by
  cases as with
  | nil => rfl
  | cons a as =>
      cases bs with
      | nil => rw [List.append_nil]; rfl
      | cons b bs =>
          show some ((as ++ b :: bs).foldl merge a) =
            some (merge (as.foldl merge a) (bs.foldl merge b))
          rw [List.foldl_append, List.foldl_cons, List.foldl_assoc]

/-- Every grouping of a row comes to what the row is merged to from the front. -/
theorem merge_all_chunks (g : Bracketing α) : mergeAll g.chunks = some g.merged := by
  induction g with
  | chunk a => rfl
  | pair front back hfront hback =>
      show mergeAll (front.chunks ++ back.chunks) = _
      rw [merge_all_append, hfront, hback]
      rfl

/-- So does merging from the back. -/
theorem merge_all_back_eq (as : List α) : mergeAllBack as = mergeAll as := by
  induction as with
  | nil => rfl
  | cons a as ih =>
      have hrest : mergeAll (a :: as) = joined merge (mergeAll [a]) (mergeAll as) :=
        merge_all_append [a] as
      rw [mergeAllBack, ih, hrest]
      cases mergeAll as with
      | none => rfl
      | some b => rfl

end

/-! ## What messages come to -/

section

variable {α : Type} {concat : List α → α}

/-- A value that has come of several of which some may be absent: it is absent if all of them are,
and otherwise it is made of those that are present, in order. -/
structure IsJoined (concat : List α → α) (value : Option α) (values : List (Option α)) : Prop where
  absent : value = none ↔ ∀ v ∈ values, v = none
  present : ∀ a, value = some a → a = concat (values.filterMap id)

/-- One value alone is joined from itself. -/
theorem is_joined_single (hone : ∀ a, concat [a] = a) (value : Option α) :
    IsJoined concat value [value] where
  absent := by simp
  present a h := by
    subst h
    exact (hone a).symm

/-- Values that are absent add nothing. -/
theorem filter_map_of_absent {values : List (Option α)} (h : ∀ v ∈ values, v = none) :
    values.filterMap id = [] :=
  List.filterMap_eq_nil_iff.2 h

/-- What is joined from some values and from more is joined from all of them. -/
theorem IsJoined.append {append : α → α → α} {x y : Option α} {xs ys : List (Option α)}
    (happend : ∀ as bs, concat (as ++ bs) = append (concat as) (concat bs))
    (hx : IsJoined concat x xs) (hy : IsJoined concat y ys) :
    IsJoined concat (joined append x y) (xs ++ ys) where
  absent := by
    rw [List.forall_mem_append, ← hx.absent, ← hy.absent]
    cases x <;> cases y <;> simp [joined]
  present c hc := by
    rw [List.filterMap_append]
    cases x with
    | none =>
        rw [filter_map_of_absent (hx.absent.1 rfl), List.nil_append]
        exact hy.present c hc
    | some a =>
        cases y with
        | none =>
            rw [filter_map_of_absent (hy.absent.1 rfl), List.append_nil]
            exact hx.present c hc
        | some b =>
            rw [happend, ← hx.present a rfl, ← hy.present b rfl]
            exact (Option.some.inj hc).symm

end

namespace Message

/-- What chunks of a message come to: it is said in the role of the first one and answers the first
call that is named; the parts follow each other, and so do the texts and the calls where there are
any. -/
structure IsMergeOf (m : Message) (chunks : List Message) : Prop where
  role : chunks.head?.map Message.role = some m.role
  content : IsJoined String.join m.content (chunks.map Message.content)
  reasoning : IsJoined String.join m.reasoning (chunks.map Message.reasoning)
  parts : m.parts = chunks.flatMap Message.parts
  toolCalls : IsJoined List.flatten m.toolCalls (chunks.map Message.toolCalls)
  toolCallId : m.toolCallId = chunks.findSome? Message.toolCallId

variable {a b : Message} {as bs : List Message}

/-- One message alone is the merge of itself. -/
theorem is_merge_of_single (m : Message) : m.IsMergeOf [m] where
  role := rfl
  content := is_joined_single (fun _ => String.empty_append) m.content
  reasoning := is_joined_single (fun _ => String.empty_append) m.reasoning
  parts := (List.append_nil m.parts).symm
  toolCalls := is_joined_single (fun _ => List.append_nil _) m.toolCalls
  toolCallId := by cases h : m.toolCallId <;> simp [h]

/-- The merge of two merges is the merge of all messages of both. -/
theorem IsMergeOf.append (ha : a.IsMergeOf as) (hb : b.IsMergeOf bs) :
    (Merge.merge a b).IsMergeOf (as ++ bs) where
  role := by
    rw [List.head?_append, Option.map_or, ha.role]
    rfl
  content := by
    rw [List.map_append]
    exact ha.content.append (fun _ _ => String.join_append) hb.content
  reasoning := by
    rw [List.map_append]
    exact ha.reasoning.append (fun _ _ => String.join_append) hb.reasoning
  parts := by
    rw [List.flatMap_append, ← ha.parts, ← hb.parts]
    rfl
  toolCalls := by
    rw [List.map_append]
    exact ha.toolCalls.append (fun _ _ => List.flatten_append) hb.toolCalls
  toolCallId := by
    rw [List.findSome?_append, ← ha.toolCallId, ← hb.toolCallId]
    exact Option.orElse_eq_or

/-- The chunks that are still to come are merged one after the other. -/
theorem IsMergeOf.foldl (h : a.IsMergeOf as) (bs : List Message) :
    (bs.foldl Merge.merge a).IsMergeOf (as ++ bs) := by
  induction bs generalizing a as with
  | nil => rwa [List.append_nil]
  | cons b bs ih =>
      have hnext := ih (h.append (is_merge_of_single b))
      rwa [List.append_assoc] at hnext

end Message

/-! ## What usages come to -/

namespace Usage

/-- A group has used no more tokens than the whole. -/
theorem le_of_part {g part : Bracketing Usage} (h : part ∈ g.parts) :
    part.merged.prompt ≤ g.merged.prompt ∧ part.merged.completion ≤ g.merged.completion := by
  induction g with
  | chunk u =>
      rw [List.mem_singleton.1 h]
      exact ⟨Nat.le_refl _, Nat.le_refl _⟩
  | pair front back hfront hback =>
      have hprompt : (Bracketing.pair front back).merged.prompt =
        front.merged.prompt + back.merged.prompt := rfl
      have hcompletion : (Bracketing.pair front back).merged.completion =
        front.merged.completion + back.merged.completion := rfl
      rcases List.mem_cons.1 h with rfl | hpart
      · exact ⟨Nat.le_refl _, Nat.le_refl _⟩
      rcases List.mem_append.1 hpart with hmem | hmem
      · have hle := hfront hmem
        omega
      · have hle := hback hmem
        omega

/-- So no sum is too large on the way if the last one is not. -/
theorem is_representable_of_part {g part : Bracketing Usage} (hg : g.merged.IsRepresentable)
    (h : part ∈ g.parts) : part.merged.IsRepresentable :=
  ⟨Nat.lt_of_le_of_lt (le_of_part h).1 hg.prompt, Nat.lt_of_le_of_lt (le_of_part h).2 hg.completion⟩

end Usage

/-! ## Any grouping -/

/-- Messages and usages can be merged in any grouping. For every row of chunks that is not empty,
every bracketing of it comes to what the row is merged to from the front, and so does merging from
the back. For messages this has the role of the first chunk, the first call that is named, all the
parts, and the texts and calls that are present; a text or the calls are absent exactly if they are
in every chunk. For usages no sum on the way is too large for a machine word, in any bracketing, if
the last one is not. -/
theorem chunks_merge_in_any_grouping :
    (∀ a b c : Message, merge (merge a b) c = merge a (merge b c)) ∧
      (∀ a b c : Usage, merge (merge a b) c = merge a (merge b c)) ∧
      (∀ (first : Message) (rest : List Message), ∃ m,
        mergeAll (first :: rest) = some m ∧ mergeAllBack (first :: rest) = some m ∧
          m.IsMergeOf (first :: rest) ∧
          ∀ g : Bracketing Message, g.chunks = first :: rest → g.merged = m) ∧
      ∀ (first : Usage) (rest : List Usage), ∃ u,
        mergeAll (first :: rest) = some u ∧ mergeAllBack (first :: rest) = some u ∧
          ∀ g : Bracketing Usage, g.chunks = first :: rest →
            g.merged = u ∧ (u.IsRepresentable → ∀ part ∈ g.parts, part.merged.IsRepresentable) := by
  refine ⟨Std.Associative.assoc, Std.Associative.assoc, fun first rest => ?_, fun first rest => ?_⟩
  · refine ⟨rest.foldl merge first, rfl, merge_all_back_eq _, ?_, fun g hg => ?_⟩
    · exact (Message.is_merge_of_single first).foldl rest
    · have hmerged := merge_all_chunks g
      rw [hg] at hmerged
      exact (Option.some.inj hmerged).symm
  · refine ⟨rest.foldl merge first, rfl, merge_all_back_eq _, fun g hg => ?_⟩
    have hmerged := merge_all_chunks g
    rw [hg] at hmerged
    have hsame : rest.foldl merge first = g.merged := Option.some.inj hmerged
    rw [hsame]
    exact ⟨rfl, fun hfits part hpart => Usage.is_representable_of_part hfits hpart⟩

/-- The last two of three chunks may come together first. An empty text is not the same as none. -/
theorem chunks_merge_in_any_grouping_last_first :
    let call : Message := { role := .assistant, toolCalls := some [] }
    let empty : Message := { role := .user, content := some "", toolCallId := some "c1" }
    let told : Message := { role := .tool, toolCallId := some "c2", parts := [.text "t"] }
    let whole : Message :=
      { role := .assistant, content := some "", parts := [.text "t"], toolCalls := some [],
        toolCallId := some "c1" }
    let g : Bracketing Message := .pair (.chunk call) (.pair (.chunk empty) (.chunk told))
    let most : Usage := ⟨Json.wordLimit - 3, 1⟩
    let costs : Bracketing Usage := .pair (.chunk most) (.pair (.chunk ⟨1, 1⟩) (.chunk ⟨1, 1⟩))
    g.chunks = [call, empty, told] ∧ g.merged = whole ∧ whole.IsMergeOf [call, empty, told] ∧
      costs.chunks = [most, ⟨1, 1⟩, ⟨1, 1⟩] ∧ costs.merged = ⟨Json.wordLimit - 1, 3⟩ ∧
      Usage.IsRepresentable ⟨2, 2⟩ := by
  intro call empty told whole g most costs
  obtain ⟨-, -, hmessages, husages⟩ := chunks_merge_in_any_grouping
  obtain ⟨m, hm, -, hmerge, hgroups⟩ := hmessages call [empty, told]
  obtain rfl : whole = m := Option.some.inj hm
  obtain ⟨u, hu, -, hcosts⟩ := husages most [⟨1, 1⟩, ⟨1, 1⟩]
  obtain rfl : ⟨Json.wordLimit - 1, 3⟩ = u := Option.some.inj hu
  obtain ⟨hsum, hfits⟩ := hcosts costs rfl
  have hwhole : Usage.IsRepresentable ⟨Json.wordLimit - 1, 3⟩ := ⟨by decide, by decide⟩
  have hpart := hfits hwhole (.pair (.chunk ⟨1, 1⟩) (.chunk ⟨1, 1⟩))
    (by simp [costs, Bracketing.parts])
  exact ⟨rfl, hgroups g rfl, hmerge, rfl, hsum, hpart⟩

end Transcript
