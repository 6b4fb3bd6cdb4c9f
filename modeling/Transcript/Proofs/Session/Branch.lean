import Transcript.Proofs.Text.Pattern
import Transcript.Session.Log

/-!
# Branches and their segments

A branch is named by segments with slashes between them. A filter lets the branch through if its own
segments are the first ones of the branch (`Branch.is_within_iff`), empty segments included. So
filters are in the order of what they let through, and whatever a filter lets through is let through
by the filters above it (`Branch.filters_ordered_by_segments`).
-/

namespace Transcript

namespace Branch

/-- The segments of a name, which lie between its slashes. -/
def segments (name : String) : List (List Char) := name.toList.splitOn '/'

/-! ## Segments of texts -/

section Split

variable {a b : List Char}

/-- The segments with slashes between them are the text again. -/
theorem join_split (a : List Char) : ['/'].intercalate (a.splitOn '/') = a :=
  List.intercalate_splitOn '/'

/-- A text is known by its pieces. -/
theorem split_injective (h : a.splitOn '/' = b.splitOn '/') : a = b := by
  rw [← join_split a, h, join_split]

/-- A slash parts the segments in front of it from those behind it. -/
theorem split_append_slash (a b : List Char) :
    (a ++ '/' :: b).splitOn '/' = a.splitOn '/' ++ b.splitOn '/' := by
  simp only [List.splitOn_eq_splitOnP]
  exact List.splitOnP_append_cons _ _ (beq_self_eq_true '/')

/-- Segments are the first ones of a text if it is the same text, or goes on with a slash. -/
theorem split_prefix_iff :
    a.splitOn '/' <+: b.splitOn '/' ↔ b = a ∨ ∃ rest, b = a ++ '/' :: rest := by
  constructor
  · rintro ⟨more, hmore⟩
    by_cases hnone : more = []
    · rw [hnone, List.append_nil] at hmore
      exact .inl (split_injective hmore).symm
    · refine .inr ⟨['/'].intercalate more, ?_⟩
      rw [← join_split b, ← hmore, Text.intercalate_append _ (List.splitOn_ne_nil '/' a) hnone,
        join_split, List.append_assoc]
      rfl
  · rintro (rfl | ⟨rest, rfl⟩)
    · exact List.prefix_rfl
    · rw [split_append_slash]
      exact List.prefix_append _ _

end Split

/-! ## Filters -/

/-- A segment ends at the end of the text or at a slash. -/
theorem ends_segment_iff {s : List Char} :
    endsSegment s = true ↔ s = [] ∨ ∃ rest, s = '/' :: rest := by
  cases s with
  | nil => simp [endsSegment]
  | cons c s => simp [endsSegment]

/-- What is left behind the filter is nothing, or goes on with a slash. -/
theorem continues_iff {branch filter : List Char} :
    continues branch filter = true ↔ branch = filter ∨ ∃ rest, branch = filter ++ '/' :: rest := by
  unfold continues
  split
  · rename_i rest hrest
    rw [List.isPrefixOf?_eq_some_iff_append_eq] at hrest
    subst hrest
    rw [ends_segment_iff]
    simp
  · rename_i hnone
    have hno : ∀ rest, branch ≠ filter ++ rest := fun rest heq =>
      Option.some_ne_none rest
        ((List.isPrefixOf?_eq_some_iff_append_eq.2 heq.symm).symm.trans hnone)
    refine iff_of_false Bool.false_ne_true ?_
    rintro (heq | ⟨rest, heq⟩)
    · exact hno [] (heq.trans (List.append_nil _).symm)
    · exact hno _ heq

/-- A filter lets a branch through if it is empty or has the first segments of the branch. -/
theorem is_within_iff (branch filter : String) :
    isWithin branch filter = true ↔ filter = "" ∨ segments filter <+: segments branch := by
  rw [isWithin, Bool.or_eq_true, String.isEmpty_iff, continues_iff]
  exact or_congr_right split_prefix_iff.symm

/-! ## The order of filters -/

section Order

variable {a b c : String}

/-- A name is known by its segments. -/
theorem segments_injective : Function.Injective segments := fun _ _ h =>
  String.toList_inj.1 (split_injective h)

/-- Only the empty name has no more segments than the empty name. -/
theorem eq_empty_of_segments_below (h : segments a <+: segments "") : a = "" := by
  refine segments_injective (h.eq_of_length_le ?_)
  exact List.length_pos_iff.2 (List.splitOn_ne_nil _ _)

/-- Every branch is within itself. -/
theorem is_within_refl (a : String) : isWithin a a = true :=
  (is_within_iff a a).2 (.inr List.prefix_rfl)

/-- Only the empty filter lets the empty branch through. -/
theorem eq_empty_of_is_within (h : isWithin "" a = true) : a = "" :=
  ((is_within_iff _ _).1 h).elim id eq_empty_of_segments_below

/-- Two branches that are within each other are the same. -/
theorem is_within_antisymm (hab : isWithin a b = true) (hba : isWithin b a = true) : a = b := by
  rcases (is_within_iff a b).1 hab with rfl | hbegins
  · exact eq_empty_of_is_within hba
  · rcases (is_within_iff b a).1 hba with rfl | hbegins'
    · exact (eq_empty_of_is_within hab).symm
    · exact segments_injective (hbegins'.eq_of_length_le hbegins.length_le)

/-- What a filter lets through, the filters above it let through. -/
theorem is_within_trans (hab : isWithin a b = true) (hbc : isWithin b c = true) :
    isWithin a c = true := by
  rw [is_within_iff]
  rcases (is_within_iff b c).1 hbc with hempty | hbegins
  · exact .inl hempty
  · rcases (is_within_iff a b).1 hab with rfl | hbegins'
    · exact .inl (eq_empty_of_segments_below hbegins)
    · exact .inr (hbegins.trans hbegins')

/-- Of two filters that let a branch through, one is above the other. -/
theorem is_within_total (hb : isWithin a b = true) (hc : isWithin a c = true) :
    isWithin b c = true ∨ isWithin c b = true := by
  rw [is_within_iff, is_within_iff]
  rcases (is_within_iff a b).1 hb with hempty | hbegins
  · exact .inr (.inl hempty)
  · rcases (is_within_iff a c).1 hc with hempty | hbegins'
    · exact .inl (.inl hempty)
    · exact (List.prefix_or_prefix_of_prefix hbegins hbegins').symm.imp .inr .inr

/-- A filter lets no more events through than the filters above it. -/
theorem events_after_sublist (s : Session) (boundary : Option Nat) (hab : isWithin a b = true) :
    (s.eventsAfter a boundary).Sublist (s.eventsAfter b boundary) :=
  List.monotone_filter_right _ fun _ he => is_within_trans he hab

end Order

/-- A filter lets a branch through if it is empty or its segments are the first ones of the branch.
With that filters are ordered, those above a branch one after the other, and in any session the
events of a filter are found, in the same order, among those of the filters above it. -/
theorem filters_ordered_by_segments :
    (∀ branch filter : String,
      isWithin branch filter = true ↔ filter = "" ∨ segments filter <+: segments branch) ∧
    (∀ a, isWithin a a = true) ∧
    (∀ a b, isWithin a b = true → isWithin b a = true → a = b) ∧
    (∀ a b c, isWithin a b = true → isWithin b c = true → isWithin a c = true) ∧
    (∀ branch a b, isWithin branch a = true → isWithin branch b = true →
      isWithin a b = true ∨ isWithin b a = true) ∧
    ∀ (s : Session) (boundary : Option Nat) (a b : String), isWithin a b = true →
      (s.eventsAfter a boundary).Sublist (s.eventsAfter b boundary) :=
  ⟨is_within_iff, is_within_refl, fun _ _ => is_within_antisymm, fun _ _ _ => is_within_trans,
    fun _ _ _ => is_within_total, fun s boundary _ _ => events_after_sublist s boundary⟩

/-- With two slashes in a row there is an empty segment between them, and the name that ends with
the first of them is above that of the branch. -/
theorem filters_ordered_by_segments_empty_segment :
    let e : Event :=
      { author := "u", branch := "plan//draft", message := .user "x", timestamp := ⟨0, 0⟩ }
    let s : Session := Session.append {} e
    segments "plan//draft" = [['p', 'l', 'a', 'n'], [], ['d', 'r', 'a', 'f', 't']] ∧
      isWithin "plan//draft" "plan/" = true ∧ isWithin "plan/" "plan" = true ∧
      isWithin "plan//draft" "plan" = true ∧
      (isWithin "plan/" "plan" = true ∨ isWithin "plan" "plan/" = true) ∧
      (s.eventsAfter "plan/" none).Sublist (s.eventsAfter "plan" none) ∧
      s.eventsAfter "plan/" none ≠ [] := by
  intro e s
  obtain ⟨hiff, -, -, htrans, htotal, hevents⟩ := filters_ordered_by_segments
  have hlow : isWithin "plan//draft" "plan/" = true := (hiff _ _).2 (.inr (by decide +kernel))
  have hhigh : isWithin "plan/" "plan" = true := (hiff _ _).2 (.inr (by decide +kernel))
  have hboth : isWithin "plan//draft" "plan" = true := htrans _ _ _ hlow hhigh
  exact ⟨by decide +kernel, hlow, hhigh, hboth, htotal _ _ _ hlow hboth,
    hevents s none "plan/" "plan" hhigh, by decide +kernel⟩

end Branch

end Transcript
