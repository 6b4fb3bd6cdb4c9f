import Mathlib.Data.List.Infix
import Transcript.Text.Pattern

/-!
# What is cut and what is not

A text is cut where a pattern occurs, or at the ends of its lines. A second text that can never
overlap with an occurrence of the pattern (`Apart`) is not touched by that: where it occurred in the
whole, it occurs in one of the pieces (`Apart.exists_piece`), and still after something has been put
in the place of the pattern (`Apart.infix_substitute`).
-/

namespace Transcript.Text

/-! ## Texts that never overlap -/

/-- One of the two texts begins with the other. -/
def BeginAlike (a b : List Char) : Prop := a <+: b ∨ b <+: a

instance (a b : List Char) : Decidable (BeginAlike a b) := inferInstanceAs (Decidable (_ ∨ _))

/-- Texts that another text begins with begin alike. -/
theorem begin_alike {a b s : List Char} (ha : a <+: s) (hb : b <+: s) : BeginAlike a b :=
  List.prefix_or_prefix_of_prefix ha hb

/-- Occurrences of the two texts never overlap: no end of one of them begins like the other. -/
def Apart (a b : List Char) : Prop :=
  (∀ u ∈ a.tails, u ≠ [] → ¬ BeginAlike u b) ∧ ∀ u ∈ b.tails, u ≠ [] → ¬ BeginAlike u a

instance (a b : List Char) : Decidable (Apart a b) := inferInstanceAs (Decidable (_ ∧ _))

/-- No end of a text begins like another one, if they have no letter in common. -/
theorem not_begin_alike_of_disjoint {a b u : List Char} (hb : b ≠ []) (h : ∀ c ∈ a, c ∉ b)
    (hu : u <:+ a) (hne : u ≠ []) : ¬ BeginAlike u b := by
  obtain ⟨c, u, rfl⟩ := List.exists_cons_of_ne_nil hne
  obtain ⟨d, b, rfl⟩ := List.exists_cons_of_ne_nil hb
  have hc : c ∈ a := hu.subset List.mem_cons_self
  have hcd : c ≠ d := fun heq => h c hc (heq ▸ List.mem_cons_self)
  rintro (hpre | hpre)
  · exact hcd (List.cons_prefix_cons.1 hpre).1
  · exact hcd (List.cons_prefix_cons.1 hpre).1.symm

/-- Texts without a common letter never overlap. -/
theorem apart_of_disjoint {a b : List Char} (ha : a ≠ []) (hb : b ≠ []) (h : ∀ c ∈ a, c ∉ b) :
    Apart a b :=
  ⟨fun _ hu => not_begin_alike_of_disjoint hb h ((List.mem_tails _ _).1 hu),
    fun _ hu => not_begin_alike_of_disjoint ha (fun c hc hca => h c hca hc)
      ((List.mem_tails _ _).1 hu)⟩

/-- Behind an occurrence of the first text the second one occurs, if it occurs at all. -/
theorem Apart.infix_of_infix_append {a b s : List Char} (h : Apart a b) (hb : b <:+: a ++ s) :
    b <:+: s := by
  rcases List.infix_append_iff.1 hb with hfirst | hrest | ⟨u, v, rfl, hu, hv⟩
  · -- It would begin within the first text, with one of its ends.
    obtain ⟨front, back, rfl⟩ := hfirst
    by_cases hne : b ++ back = []
    · rw [List.append_eq_nil_iff.1 hne |>.1]
      exact List.nil_infix
    · refine absurd (.inr (List.prefix_append b back)) (h.1 (b ++ back) ?_ hne)
      rw [List.append_assoc, List.mem_tails]
      exact List.suffix_append _ _
  · exact hrest
  · by_cases hne : u = []
    · rw [hne, List.nil_append]
      exact hv.isInfix
    · exact absurd (.inl (List.prefix_append u v)) (h.1 u ((List.mem_tails _ _).2 hu) hne)

/-! ## Mentions -/

/-- A pattern is mentioned where it occurs. -/
theorem mentions_iff {pattern s : List Char} : mentions pattern s = true ↔ pattern <:+: s := by
  induction s with
  | nil => simp [mentions]
  | cons c s ih =>
      rw [mentions, Bool.or_eq_true, List.isPrefixOf_iff_prefix, ih]
      exact List.infix_cons_iff.symm

/-! ## Pieces -/

section Pieces

variable {pattern : List Char}

/-- What belongs to an occurrence that has been found is passed over. -/
theorem pieces_from_eq (pattern : List Char) (skip : Nat) (s : List Char) :
    piecesFrom pattern skip s = pieces pattern (s.drop skip) := by
  induction skip generalizing s with
  | zero => rfl
  | succ skip ih =>
      cases s with
      | nil => rfl
      | cons c s => exact ih s

/-- A text that begins with the pattern has an empty piece in front of it. -/
theorem pieces_append (hne : pattern ≠ []) (s : List Char) :
    pieces pattern (pattern ++ s) = [] :: pieces pattern s := by
  obtain ⟨c, rest, rfl⟩ := List.exists_cons_of_ne_nil hne
  have hpre : (c :: rest).isPrefixOf (c :: (rest ++ s)) = true :=
    List.isPrefixOf_iff_prefix.2 (List.prefix_append (c :: rest) s)
  show piecesFrom (c :: rest) 0 (c :: (rest ++ s)) = _
  rw [piecesFrom, if_pos hpre, pieces_from_eq]
  show [] :: pieces (c :: rest) ((rest ++ s).drop rest.length) = _
  rw [List.drop_left]

/-- There is always a piece. -/
theorem pieces_ne_nil (pattern s : List Char) : pieces pattern s ≠ [] := by
  induction s with
  | nil => exact List.cons_ne_nil _ _
  | cons c s ih =>
      show piecesFrom pattern 0 (c :: s) ≠ []
      rw [piecesFrom]
      split
      · exact List.cons_ne_nil _ _
      · split <;> exact List.cons_ne_nil _ _

/-- Any other text has its first letter in its first piece. -/
theorem exists_pieces_cons {c : Char} {s : List Char} (hpre : ¬ pattern <+: c :: s) :
    ∃ piece more, pieces pattern s = piece :: more ∧
      pieces pattern (c :: s) = (c :: piece) :: more := by
  obtain ⟨piece, more, hs⟩ := List.exists_cons_of_ne_nil (pieces_ne_nil pattern s)
  refine ⟨piece, more, hs, ?_⟩
  unfold pieces at hs ⊢
  rw [piecesFrom, if_neg (mt List.isPrefixOf_iff_prefix.1 hpre), hs]

/-- A text is searched from its front: either it is at its end, or it begins with the pattern, or
one letter is passed over. -/
theorem pieces_induction {motive : List Char → Prop} (hne : pattern ≠ []) (nil : motive [])
    (found : ∀ s, motive s → motive (pattern ++ s))
    (letter : ∀ c s, ¬ pattern <+: c :: s → motive s → motive (c :: s)) (s : List Char) :
    motive s := by
  by_cases hpre : pattern <+: s
  · obtain ⟨rest, rfl⟩ := hpre
    have hshorter : rest.length < (pattern ++ rest).length := by
      have := List.length_pos_iff.2 hne
      rw [List.length_append]
      omega
    exact found rest (pieces_induction hne nil found letter rest)
  · match s with
    | [] => exact nil
    | c :: s => exact letter c s hpre (pieces_induction hne nil found letter s)
termination_by s.length

/-- There is more than one piece, if the pattern occurs. -/
theorem two_le_length_pieces (hne : pattern ≠ []) {s : List Char} (h : pattern <:+: s) :
    2 ≤ (pieces pattern s).length := by
  induction s using pieces_induction hne with
  | nil => exact absurd (List.infix_nil.1 h) hne
  | found s _ =>
      have := List.length_pos_iff.2 (pieces_ne_nil pattern s)
      rw [pieces_append hne, List.length_cons]
      omega
  | letter c s hpre ih =>
      obtain ⟨piece, more, hs, hcons⟩ := exists_pieces_cons hpre
      have hlater := ih ((List.infix_cons_iff.1 h).resolve_left hpre)
      rw [hs] at hlater
      rw [hcons]
      exact hlater

/-- What a text begins with, its first piece begins with, if no end of that begins like the
pattern. -/
theorem exists_first_piece {a s : List Char} (ha : ∀ u ∈ a.tails, u ≠ [] → ¬ BeginAlike u pattern)
    (h : a <+: s) : ∃ piece more, pieces pattern s = piece :: more ∧ a <+: piece := by
  induction a generalizing s with
  | nil =>
      obtain ⟨piece, more, hs⟩ := List.exists_cons_of_ne_nil (pieces_ne_nil pattern s)
      exact ⟨piece, more, hs, List.nil_prefix⟩
  | cons c a ih =>
      obtain ⟨rest, rfl⟩ := h
      have hpre : ¬ pattern <+: c :: (a ++ rest) := fun hfound =>
        ha (c :: a) ((List.mem_tails _ _).2 List.suffix_rfl) (List.cons_ne_nil _ _)
          (begin_alike (List.prefix_append (c :: a) rest) hfound)
      have htails : ∀ u ∈ a.tails, u ≠ [] → ¬ BeginAlike u pattern := fun u hu =>
        ha u ((List.mem_tails _ _).2 (((List.mem_tails _ _).1 hu).trans (List.suffix_cons c a)))
      obtain ⟨piece, more, hs, hcons⟩ := exists_pieces_cons hpre
      obtain ⟨first, others, hs', hfirst⟩ := ih htails (List.prefix_append a rest)
      obtain ⟨rfl, rfl⟩ := List.cons.inj (hs.symm.trans hs')
      exact ⟨c :: piece, more, hcons, List.cons_prefix_cons.2 ⟨rfl, hfirst⟩⟩

/-- A text that never overlaps with the pattern is not cut. -/
theorem Apart.exists_piece {a s : List Char} (h : Apart pattern a) (hne : pattern ≠ [])
    (ha : a <:+: s) : ∃ piece ∈ pieces pattern s, a <:+: piece := by
  induction s using pieces_induction hne with
  | nil => exact ⟨[], List.mem_singleton_self [], ha⟩
  | found s ih =>
      obtain ⟨piece, hpiece, hin⟩ := ih (h.infix_of_infix_append ha)
      rw [pieces_append hne]
      exact ⟨piece, List.mem_cons_of_mem _ hpiece, hin⟩
  | letter c s hpre ih =>
      rcases List.infix_cons_iff.1 ha with hfront | hlater
      · obtain ⟨piece, more, hs, hin⟩ := exists_first_piece h.2 hfront
        rw [hs]
        exact ⟨piece, List.mem_cons_self, hin.isInfix⟩
      · obtain ⟨piece, more, hs, hcons⟩ := exists_pieces_cons hpre
        obtain ⟨other, hother, hin⟩ := ih hlater
        rw [hs] at hother
        rw [hcons]
        rcases List.mem_cons.1 hother with rfl | hmore
        · exact ⟨c :: other, List.mem_cons_self, hin.trans (List.suffix_cons c other).isInfix⟩
        · exact ⟨other, List.mem_cons_of_mem _ hmore, hin⟩

/-- A single letter parts the pieces in front of it from those behind it. -/
theorem pieces_append_cons (c : Char) (a b : List Char) :
    pieces [c] (a ++ c :: b) = pieces [c] a ++ pieces [c] b := by
  have hne : [c] ≠ [] := List.cons_ne_nil _ _
  induction a with
  | nil => exact pieces_append hne b
  | cons d a ih =>
      by_cases hd : d = c
      · subst hd
        have hfront : pieces [d] (d :: (a ++ d :: b)) = [] :: pieces [d] (a ++ d :: b) :=
          pieces_append hne _
        have hback : pieces [d] (d :: a) = [] :: pieces [d] a := pieces_append hne a
        rw [List.cons_append, hfront, hback, ih, List.cons_append]
      · have hpre (s : List Char) : ¬ [c] <+: d :: s := fun h =>
          hd (List.cons_prefix_cons.1 h).1.symm
        obtain ⟨piece, more, hall, hcons⟩ := exists_pieces_cons (hpre (a ++ c :: b))
        obtain ⟨first, others, ha, hfirst⟩ := exists_pieces_cons (hpre a)
        rw [ih, ha, List.cons_append] at hall
        obtain ⟨rfl, rfl⟩ := List.cons.inj hall
        rw [List.cons_append, hcons, hfirst, List.cons_append]

/-- A text without the letter is one piece. -/
theorem pieces_of_not_mem {c : Char} {a : List Char} (h : c ∉ a) : pieces [c] a = [a] := by
  induction a with
  | nil => rfl
  | cons d a ih =>
      rw [List.mem_cons, not_or] at h
      have hpre : ¬ [c] <+: d :: a := fun hfound => h.1 (List.cons_prefix_cons.1 hfound).1
      obtain ⟨piece, more, ha, hcons⟩ := exists_pieces_cons hpre
      rw [ih h.2] at ha
      obtain ⟨rfl, rfl⟩ := List.cons.inj ha
      exact hcons

end Pieces

/-! ## Rows of pieces -/

/-- Two rows of pieces have a separator between them. -/
theorem intercalate_append (sep : List Char) {l m : List (List Char)} (hl : l ≠ []) (hm : m ≠ []) :
    sep.intercalate (l ++ m) = sep.intercalate l ++ sep ++ sep.intercalate m := by
  induction l with
  | nil => exact absurd rfl hl
  | cons piece l ih =>
      by_cases hlast : l = []
      · subst hlast
        rw [List.singleton_append, List.intercalate_cons_of_ne_nil hm, List.intercalate_singleton]
      · rw [List.cons_append,
          List.intercalate_cons_of_ne_nil (List.append_ne_nil_of_left_ne_nil hlast _),
          List.intercalate_cons_of_ne_nil hlast, ih hlast]
        simp only [List.append_assoc]

/-! ## Substitutions -/

section Substitutions

variable {pattern new : List Char}

/-- What lies between the separators is not lost. -/
theorem infix_intercalate_of_mem {piece : List Char} {l : List (List Char)} (h : piece ∈ l) :
    piece <:+: new.intercalate l := by
  induction l with
  | nil => exact absurd h List.not_mem_nil
  | cons first l ih =>
      by_cases hl : l = []
      · subst hl
        rw [List.mem_singleton.1 h, List.intercalate_singleton]
      · rw [List.intercalate_cons_of_ne_nil hl]
        rcases List.mem_cons.1 h with rfl | hrest
        · rw [List.append_assoc]
          exact (List.prefix_append _ _).isInfix
        · exact (ih hrest).trans (List.suffix_append _ _).isInfix

/-- Between two pieces there is a separator. -/
theorem infix_intercalate {l : List (List Char)} (h : 2 ≤ l.length) :
    new <:+: new.intercalate l := by
  match l with
  | first :: second :: l =>
      rw [List.intercalate_cons_cons, List.append_assoc]
      exact (List.prefix_append new _).isInfix.trans (List.suffix_append first _).isInfix

/-- A text that never overlaps with the pattern is still there when the pattern has been
replaced. -/
theorem Apart.infix_substitute {a s : List Char} (h : Apart pattern a) (hne : pattern ≠ [])
    (ha : a <:+: s) : a <:+: substitute pattern new s := by
  obtain ⟨piece, hpiece, hin⟩ := h.exists_piece hne ha
  exact hin.trans (infix_intercalate_of_mem hpiece)

/-- What the pattern is replaced by is there, if the pattern was. -/
theorem new_infix_substitute (hne : pattern ≠ []) {s : List Char} (h : pattern <:+: s) :
    new <:+: substitute pattern new s :=
  infix_intercalate (two_le_length_pieces hne h)

end Substitutions

/-! ## Lines -/

/-- What a text begins with, its first line begins with, if there is no line break in that. -/
theorem exists_first_line {a s : List Char} (hne : a ≠ []) (ha : '\n' ∉ a) (h : a <+: s) :
    ∃ line more, lines s = line :: more ∧ a <+: line := by
  induction a generalizing s with
  | nil => exact absurd rfl hne
  | cons c a ih =>
      obtain ⟨rest, rfl⟩ := h
      have hc : c ≠ '\n' := fun heq => ha (heq ▸ List.mem_cons_self)
      rw [List.cons_append, lines, if_neg hc]
      by_cases hlast : a = []
      · subst hlast
        split
        · exact ⟨_, _, rfl, List.cons_prefix_cons.2 ⟨rfl, List.nil_prefix⟩⟩
        · exact ⟨_, _, rfl, List.prefix_rfl⟩
      · obtain ⟨line, more, hlines, hfirst⟩ :=
          ih hlast (fun hmem => ha (List.mem_cons_of_mem _ hmem)) (List.prefix_append a rest)
        rw [hlines]
        exact ⟨c :: line, more, rfl, List.cons_prefix_cons.2 ⟨rfl, hfirst⟩⟩

/-- A text without line breaks lies on one line. -/
theorem exists_line {a s : List Char} (hne : a ≠ []) (ha : '\n' ∉ a) (h : a <:+: s) :
    ∃ line ∈ lines s, a <:+: line := by
  induction s with
  | nil => exact absurd (List.infix_nil.1 h) hne
  | cons c s ih =>
      rcases List.infix_cons_iff.1 h with hfront | hlater
      · obtain ⟨line, more, hlines, hin⟩ := exists_first_line hne ha hfront
        rw [hlines]
        exact ⟨line, List.mem_cons_self, hin.isInfix⟩
      · obtain ⟨line, hline, hin⟩ := ih hlater
        rw [lines]
        split
        · exact ⟨line, List.mem_cons_of_mem _ hline, hin⟩
        · split
          · rename_i first more hlines
            rw [hlines] at hline
            rcases List.mem_cons.1 hline with rfl | hmore
            · exact ⟨c :: line, List.mem_cons_self, hin.trans (List.suffix_cons c line).isInfix⟩
            · exact ⟨line, List.mem_cons_of_mem _ hmore, hin⟩
          · rename_i hlines
            rw [hlines] at hline
            exact absurd hline List.not_mem_nil

end Transcript.Text
