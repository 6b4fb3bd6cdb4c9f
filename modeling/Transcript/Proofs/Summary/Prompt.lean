import Mathlib.Data.List.ModifyLast
import Transcript.Proofs.Text.Pattern
import Transcript.Summary.Prompt

/-!
# What stands in a prompt

A prompt has the conversation between texts that the template and the greatest number of words
determine (`PromptTemplate.render_eq`). The conversation is there whatever has become of the
template's other places, since the two kinds of places never overlap, and nothing is looked for in
the conversation (`PromptTemplate.conversation_between_fixed_parts`).
-/

namespace Transcript

namespace PromptTemplate

/-- The places of the words and of the conversation never overlap. -/
theorem apart_places : Text.Apart wordLimitPlace.toList conversationPlace.toList := by
  decide +kernel

/-- The place of the limit has letters. -/
theorem word_limit_place_ne_nil : wordLimitPlace.toList ≠ [] := by decide +kernel

/-- So has the place of the conversation. -/
theorem conversation_place_ne_nil : conversationPlace.toList ≠ [] := by decide +kernel

/-! ## The place of the conversation -/

/-- A template is accepted if the place of the conversation occurs in it. -/
theorem of_make {template : String} {maxWords : Nat} {t : PromptTemplate}
    (h : make template maxWords = .ok t) :
    t = ⟨template, maxWords⟩ ∧ conversationPlace.toList <:+: template.toList := by
  unfold make at h
  split at h
  · rename_i hplace
    exact ⟨(Except.ok.inj h).symm, Text.mentions_iff.1 hplace⟩
  · cases h

/-- The line with the conversation is not left out. -/
theorem infix_without_limit {template : List Char} (h : conversationPlace.toList <:+: template) :
    conversationPlace.toList <:+: withoutLimit template := by
  have hbreak : '\n' ∉ conversationPlace.toList := by decide +kernel
  obtain ⟨line, hline, hin⟩ := Text.exists_line conversation_place_ne_nil hbreak h
  have hstays : isLimitLine line = false := by
    rw [isLimitLine, Text.mentions_iff.2 hin, Bool.not_true, Bool.and_false]
  have hkept : line ∈ (Text.lines template).filter (!isLimitLine ·) :=
    List.mem_filter.2 ⟨hline, by rw [hstays, Bool.not_false]⟩
  exact apart_places.infix_substitute word_limit_place_ne_nil
    (hin.trans (List.infix_of_mem_flatten hkept))

/-- The place of the conversation is still there when the places of the words are filled. -/
theorem infix_with_words {t : PromptTemplate}
    (h : conversationPlace.toList <:+: t.template.toList) :
    conversationPlace.toList <:+: t.withWords := by
  unfold withWords
  split
  · exact infix_without_limit h
  · exact apart_places.infix_substitute word_limit_place_ne_nil h

/-! ## The fixed parts -/

/-- The parts of a prompt around the conversation. The closing rule belongs to the last of them. -/
def fixedParts (t : PromptTemplate) : List (List Char) :=
  (Text.pieces conversationPlace.toList t.withWords).modifyLast (· ++ t.closing)

/-- The fixed parts are the pieces of the template, with the closing rule behind the last one. -/
theorem exists_last_piece (t : PromptTemplate) :
    ∃ front last, Text.pieces conversationPlace.toList t.withWords = front ++ [last] ∧
      t.fixedParts = front ++ [last ++ t.closing] := by
  obtain ⟨front, last, hpieces⟩ :=
    (List.eq_nil_or_concat' _).resolve_left
      (Text.pieces_ne_nil conversationPlace.toList t.withWords)
  refine ⟨front, last, hpieces, ?_⟩
  rw [fixedParts, hpieces, List.modifyLast_concat]

/-- What is added to the last piece comes at the end. -/
theorem intercalate_concat_append (sep : List Char) (front : List (List Char))
    (last added : List Char) :
    sep.intercalate (front ++ [last ++ added]) = sep.intercalate (front ++ [last]) ++ added := by
  by_cases hfront : front = []
  · rw [hfront, List.nil_append, List.nil_append, List.intercalate_singleton,
      List.intercalate_singleton]
  · rw [Text.intercalate_append sep hfront (List.cons_ne_nil _ _),
      Text.intercalate_append sep hfront (List.cons_ne_nil _ _), List.intercalate_singleton,
      List.intercalate_singleton, ← List.append_assoc]

/-- The conversation stands between the fixed parts, and nothing else does. -/
theorem render_eq (t : PromptTemplate) (previous : Option String) (events : List Event) :
    (t.render previous events).toList =
      (formatConversation previous events).toList.intercalate t.fixedParts := by
  obtain ⟨front, last, hpieces, hparts⟩ := t.exists_last_piece
  rw [hparts, intercalate_concat_append, ← hpieces, render, String.toList_ofList]
  rfl

/-- There are as many fixed parts as pieces. -/
theorem length_fixed_parts (t : PromptTemplate) :
    t.fixedParts.length = (Text.pieces conversationPlace.toList t.withWords).length := by
  obtain ⟨front, last, hpieces, hparts⟩ := t.exists_last_piece
  rw [hparts, hpieces, List.length_append, List.length_append, List.length_singleton,
    List.length_singleton]

/-! ## The greatest number of words -/

/-- A number has no letter in common with a place. -/
theorem apart_digits (n : Nat) : Text.Apart conversationPlace.toList (Nat.toDigits 10 n) := by
  refine Text.apart_of_disjoint conversation_place_ne_nil Nat.toDigits_ne_nil fun c hc hdigit => ?_
  have hletters : conversationPlace.toList.all (!·.isDigit) = true := by decide +kernel
  have hisDigit := Nat.isDigit_of_mem_toDigits (by decide) (by decide) hdigit
  have hnot := List.all_eq_true.1 hletters c hc
  rw [hisDigit] at hnot
  exact Bool.noConfusion hnot

/-- The greatest number of words is in a fixed part: where its place was in the template, or in the
closing rule. -/
theorem exists_limit {t : PromptTemplate} (h : 0 < t.maxWords) :
    ∃ part ∈ t.fixedParts, Nat.toDigits 10 t.maxWords <:+: part := by
  obtain ⟨front, last, hpieces, hparts⟩ := t.exists_last_piece
  have hpos : t.maxWords ≠ 0 := Nat.ne_of_gt h
  rw [hparts]
  by_cases hplace : wordLimitPlace.toList <:+: t.template.toList
  · have hwords : Nat.toDigits 10 t.maxWords <:+: t.withWords := by
      rw [withWords, if_neg hpos]
      exact Text.new_infix_substitute word_limit_place_ne_nil hplace
    obtain ⟨piece, hpiece, hin⟩ :=
      (apart_digits t.maxWords).exists_piece conversation_place_ne_nil hwords
    rw [hpieces] at hpiece
    rcases List.mem_append.1 hpiece with hfront | hlast
    · exact ⟨piece, List.mem_append_left _ hfront, hin⟩
    · rw [List.mem_singleton.1 hlast] at hin
      exact ⟨last ++ t.closing, by simp, hin.trans (List.prefix_append _ _).isInfix⟩
  · have hnone : Text.mentions wordLimitPlace.toList t.template.toList = false :=
      Bool.eq_false_iff.2 (mt Text.mentions_iff.1 hplace)
    refine ⟨last ++ t.closing, by simp, ?_⟩
    rw [closing, hnone, Bool.or_false, decide_eq_false hpos, if_neg Bool.false_ne_true]
    exact (List.infix_append _ _ _).trans (List.suffix_append _ _).isInfix

/-- The prompts of a template that was accepted have the conversation, at least once, between parts
that do not depend on it, and a greatest number of words is in one of these parts. -/
theorem conversation_between_fixed_parts {template : String} {maxWords : Nat} {t : PromptTemplate}
    (h : make template maxWords = .ok t) :
    ∃ parts : List String, 2 ≤ parts.length ∧
      (∀ previous events,
        t.render previous events = (formatConversation previous events).intercalate parts) ∧
      (0 < maxWords → ∃ part ∈ parts, (Nat.repr maxWords).toList <:+: part.toList) := by
  obtain ⟨rfl, hplace⟩ := of_make h
  refine ⟨(fixedParts ⟨template, maxWords⟩).map String.ofList, ?_, fun previous events => ?_,
    fun hpos => ?_⟩
  · rw [List.length_map, length_fixed_parts]
    exact Text.two_le_length_pieces conversation_place_ne_nil (infix_with_words hplace)
  · rw [← String.toList_inj, render_eq, String.toList_intercalate, List.map_map]
    simp
  · obtain ⟨part, hpart, hin⟩ := exists_limit (t := ⟨template, maxWords⟩) hpos
    refine ⟨String.ofList part, List.mem_map_of_mem hpart, ?_⟩
    rw [Nat.toList_repr, String.toList_ofList]
    exact hin

/-- One place of the conversation is broken by a place of the words within it, and the other is
not. -/
theorem conversation_between_fixed_parts_broken_place :
    let template := "\x7bconversation\x7bmax_summary_words\x7d_text\x7d" ++ conversationPlace
    make template 12 = .ok ⟨template, 12⟩ ∧ 0 < 12 ∧ ∃ parts : List String, 2 ≤ parts.length ∧
      (∀ previous events, render ⟨template, 12⟩ previous events =
        (formatConversation previous events).intercalate parts) ∧
      ∃ part ∈ parts, "12".toList <:+: part.toList := by
  intro template
  have hmake : make template 12 = .ok ⟨template, 12⟩ := by decide +kernel
  obtain ⟨parts, hlength, hrender, hlimit⟩ := conversation_between_fixed_parts hmake
  exact ⟨hmake, by decide, parts, hlength, hrender, hlimit (by decide)⟩

end PromptTemplate

end Transcript
