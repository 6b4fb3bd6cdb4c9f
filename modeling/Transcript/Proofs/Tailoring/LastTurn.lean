import Mathlib.Order.Bounds.Basic
import Transcript.Proofs.Tailoring.Segments

/-!
# The last turn

The segments of a conversation are told by where in it somebody speaks, without the search from its
end (`Segments.describes_last_turn_iff`). What bounds a turn is a message of the user or of the
system, a mark. Behind the last mark there are answers only, so the search passes over all of them
and stops at the mark (`Segments.turn_length_append`), and without a mark it ends at the head.
-/

namespace Transcript

namespace Segments

/-- A message of the user or of the system. -/
def IsMark (m : Message) : Prop := m.role = .user ∨ m.role = .system

/-- The message at the position `p` is the last mark at or behind the position `head`. -/
structure IsLastMark (messages : List Message) (head p : Nat) (m : Message) : Prop where
  le : head ≤ p
  at_position : messages[p]? = some m
  is_mark : IsMark m
  answers : ∀ m' ∈ messages.drop (p + 1), ¬ IsMark m'

/-- The segments are the leading system messages and the last turn of a conversation. -/
structure DescribesLastTurn (messages : List Message) (s : Segments) : Prop where
  /-- The head is the longest row of system messages at the front. -/
  head : IsGreatest {k | k ≤ messages.length ∧ ∀ m ∈ messages.take k, m.role = .system} s.head
  /-- Head and tail do not overlap. -/
  apart : s.head + s.tail ≤ messages.length
  /-- Nothing but system messages has no turn. -/
  silent : s.tail = 0 ↔ ∀ m ∈ messages, m.role = .system
  /-- Before the assistant has said anything, the turn is the last message. -/
  pending : (∃ m ∈ messages, m.role ≠ .system) →
    (∀ m ∈ messages.drop s.head, m.role ≠ .assistant) → s.tail = 1
  /-- A turn starts with the user's message. -/
  asked : (∃ m ∈ messages.drop s.head, m.role = .assistant) →
    ∀ p m, IsLastMark messages s.head p m → m.role = .user → messages.length - s.tail = p
  /-- Or behind a system message, if anything is left there. -/
  ruled : (∃ m ∈ messages.drop s.head, m.role = .assistant) →
    ∀ p m, IsLastMark messages s.head p m → m.role = .system → p + 1 < messages.length →
      messages.length - s.tail = p + 1
  /-- A last message that is a mark is a turn by itself. -/
  closed : (∃ m ∈ messages.drop s.head, m.role = .assistant) →
    ∀ p m, IsLastMark messages s.head p m → p + 1 = messages.length → messages.length - s.tail = p
  /-- Without a mark all that follows the head is one turn. -/
  unmarked : (∃ m ∈ messages.drop s.head, m.role = .assistant) →
    (∀ p m, ¬ IsLastMark messages s.head p m) → messages.length - s.tail = s.head
  /-- No system message stands in a turn of several messages, nor does the user speak again. -/
  whole : 1 < s.tail →
    (∀ m ∈ messages.drop (messages.length - s.tail), m.role ≠ .system) ∧
      ∀ m ∈ messages.drop (messages.length - s.tail + 1), m.role ≠ .user

/-! ## The search from the end -/

/-- The search passes over answers. -/
theorem turn_length_append {answers : List Message} (h : ∀ m ∈ answers, ¬ IsMark m)
    (messages : List Message) :
    turnLength (answers ++ messages) = answers.length + turnLength messages := by
  induction answers with
  | nil => simp
  | cons m answers ih =>
      have hm : ¬ IsMark m := h m List.mem_cons_self
      have hrest := ih fun m' hm' => h m' (List.mem_cons_of_mem _ hm')
      cases hrole : m.role with
      | system => exact absurd (.inr hrole) hm
      | user => exact absurd (.inl hrole) hm
      | assistant | tool =>
          simp only [List.cons_append, turnLength, hrole, hrest, List.length_cons]
          omega

/-- And it stops at a mark, which belongs to the turn if it is the user's. -/
theorem turn_length_mark {m : Message} (h : IsMark m) (messages : List Message) :
    turnLength (m :: messages) = if m.role = .user then 1 else 0 := by
  rcases h with hrole | hrole <;> simp [turnLength, hrole]

/-- Either there are answers only, or there is a last mark. -/
theorem all_answers_or_exists_last_mark (messages : List Message) :
    (∀ m ∈ messages, ¬ IsMark m) ∨
      ∃ before m after, messages = before ++ m :: after ∧ IsMark m ∧ ∀ m' ∈ after, ¬ IsMark m' := by
  induction messages with
  | nil => exact .inl fun _ h => nomatch h
  | cons m messages ih =>
      rcases ih with hanswers | ⟨before, last, after, rfl, hlast, hafter⟩
      · by_cases hm : IsMark m
        · exact .inr ⟨[], m, messages, rfl, hm, hanswers⟩
        · refine .inl fun m' hm' => ?_
          rcases List.mem_cons.1 hm' with rfl | hmem
          · exact hm
          · exact hanswers m' hmem
      · exact .inr ⟨m :: before, last, after, rfl, hlast, hafter⟩

section

variable {body : List Message}

/-- Only where there is no body there is no tail. -/
theorem tail_length_eq_zero_iff : tailLength body = 0 ↔ body = [] := by
  unfold tailLength
  split
  · rename_i hempty
    exact iff_of_true rfl (List.isEmpty_iff.1 hempty)
  · rename_i hempty
    refine iff_of_false ?_ fun hnil => hempty (List.isEmpty_iff.2 hnil)
    split <;> omega

/-- Without an answer the tail is the last message. -/
theorem tail_length_pending (hne : body ≠ []) (h : ∀ m ∈ body, m.role ≠ .assistant) :
    tailLength body = 1 := by
  have hany : body.any (·.role == .assistant) = false := by simpa using h
  simp [tailLength, hne, hany]

/-- With an answer it is the last turn, or the last message if that is empty. -/
theorem tail_length_answered (h : ∃ m ∈ body, m.role = .assistant) :
    tailLength body = max 1 (turnLength body.reverse) := by
  obtain ⟨m, hmem, hrole⟩ := h
  have hany : body.any (·.role == .assistant) = true :=
    List.any_eq_true.2 ⟨m, hmem, by simp [hrole]⟩
  simp [tailLength, List.ne_nil_of_mem hmem, hany]

/-- A turn that no mark bounds is the whole body. -/
theorem tail_length_unmarked (h : ∃ m ∈ body, m.role = .assistant)
    (hanswers : ∀ m ∈ body, ¬ IsMark m) : tailLength body = body.length := by
  have hback : ∀ m ∈ body.reverse, ¬ IsMark m := by simpa using hanswers
  have hturn := turn_length_append hback []
  rw [List.append_nil, List.length_reverse] at hturn
  obtain ⟨m, hmem, -⟩ := id h
  have hpos : 0 < body.length := List.length_pos_of_mem hmem
  rw [tail_length_answered h, hturn, turnLength]
  omega

/-- A turn is what follows the last mark, with the mark if it is the user's, and it is not empty. -/
theorem tail_length_marked {before after : List Message} {m : Message}
    (h : ∃ m' ∈ before ++ m :: after, m'.role = .assistant) (hmark : IsMark m)
    (hanswers : ∀ m' ∈ after, ¬ IsMark m') :
    tailLength (before ++ m :: after) = max 1 (after.length + if m.role = .user then 1 else 0) := by
  have hreverse : (before ++ m :: after).reverse = after.reverse ++ m :: before.reverse := by simp
  rw [tail_length_answered h, hreverse, turn_length_append (by simpa using hanswers),
    List.length_reverse, turn_length_mark hmark]

end

/-! ## Positions -/

section

variable {messages : List Message}

/-- A system message is one of the role. -/
theorem is_system_iff {m : Message} : isSystem m = true ↔ m.role = .system := beq_iff_eq

/-- The tail is that of the messages behind the head. -/
theorem tail_eq (messages : List Message) :
    (of messages).tail = tailLength (messages.drop (of messages).head) := by
  rw [drop_head_eq_drop_while]
  rfl

/-- Messages are system messages as far as the head reaches, and no further. -/
theorem is_greatest_head (messages : List Message) :
    IsGreatest {k | k ≤ messages.length ∧ ∀ m ∈ messages.take k, m.role = .system}
      (of messages).head := by
  have hfront : messages.take (of messages).head = messages.takeWhile isSystem :=
    front_eq_take_while messages
  refine ⟨⟨head_le_length messages, fun m hm => ?_⟩, fun k hk => ?_⟩
  · rw [hfront] at hm
    exact is_system_iff.1 (List.mem_takeWhile_imp hm)
  · obtain ⟨hle, hsystem⟩ := hk
    have hall : ∀ m ∈ messages.take k, isSystem m = true :=
      fun m hm => is_system_iff.2 (hsystem m hm)
    have hprefix : messages.take k <+: messages.takeWhile isSystem := by
      nth_rewrite 2 [← List.take_append_drop k messages]
      rw [List.takeWhile_append_of_pos hall]
      exact List.prefix_append _ _
    have hlength := hprefix.length_le
    rwa [List.length_take, Nat.min_eq_left hle] at hlength

namespace IsLastMark

variable {head p : Nat} {m : Message} (h : IsLastMark messages head p m)

include h

/-- The last mark is one of the messages. -/
theorem lt : p < messages.length := (List.getElem?_eq_some_iff.1 h.at_position).1

/-- From the last mark on there are the mark and what follows it. -/
theorem drop_eq : messages.drop p = m :: messages.drop (p + 1) := by
  obtain ⟨hlt, hget⟩ := List.getElem?_eq_some_iff.1 h.at_position
  rw [List.drop_eq_getElem_cons hlt, hget]

/-- A last mark parts what follows the head. -/
theorem drop_head_eq :
    messages.drop head = (messages.drop head).take (p - head) ++ m :: messages.drop (p + 1) := by
  have hdrop : (messages.drop head).drop (p - head) = m :: messages.drop (p + 1) := by
    rw [List.drop_drop, Nat.add_sub_cancel' h.le, h.drop_eq]
  rw [← hdrop, List.take_append_drop]

end IsLastMark

/-- And where what follows the head has a last mark, that is one. -/
theorem is_last_mark_of_drop {head : Nat} {before after : List Message} {m : Message}
    (h : messages.drop head = before ++ m :: after) (hmark : IsMark m)
    (hanswers : ∀ m' ∈ after, ¬ IsMark m') :
    IsLastMark messages head (head + before.length) m where
  le := Nat.le_add_right _ _
  at_position := by
    rw [← List.getElem?_drop, h]
    simp
  is_mark := hmark
  answers := by
    have hdrop : messages.drop (head + before.length + 1) = after := by
      rw [Nat.add_assoc, ← List.drop_drop, h]
      simp
    rwa [hdrop]

/-- The tail starts at the last mark if a user speaks there, and behind it if not. -/
theorem tail_of_last_mark {p : Nat} {m : Message}
    (h : ∃ m' ∈ messages.drop (of messages).head, m'.role = .assistant)
    (hlast : IsLastMark messages (of messages).head p m) :
    (of messages).tail = max 1 (messages.length - (p + 1) + if m.role = .user then 1 else 0) := by
  rw [hlast.drop_head_eq] at h
  rw [tail_eq, hlast.drop_head_eq, tail_length_marked h hlast.is_mark hlast.answers,
    List.length_drop]

/-- Without marks the tail is all that is behind the head. -/
theorem tail_of_unmarked (h : ∃ m ∈ messages.drop (of messages).head, m.role = .assistant)
    (hanswers : ∀ m ∈ messages.drop (of messages).head, ¬ IsMark m) :
    (of messages).tail = messages.length - (of messages).head := by
  rw [tail_eq, tail_length_unmarked h hanswers, List.length_drop]

/-- The last turn is empty if there is nothing behind the system messages of the head. -/
theorem tail_eq_zero_iff (messages : List Message) :
    (of messages).tail = 0 ↔ ∀ m ∈ messages, m.role = .system := by
  rw [tail_eq, tail_length_eq_zero_iff, drop_head_eq_drop_while, List.dropWhile_eq_nil_iff]
  exact forall₂_congr fun m _ => is_system_iff

/-- A turn of several messages has an answer in it. -/
theorem exists_assistant_of_one_lt_tail (h : 1 < (of messages).tail) :
    ∃ m ∈ messages.drop (of messages).head, m.role = .assistant := by
  by_contra hnone
  have hpending : ∀ m ∈ messages.drop (of messages).head, m.role ≠ .assistant :=
    fun m hm hrole => hnone ⟨m, hm, hrole⟩
  rw [tail_eq] at h
  by_cases hempty : messages.drop (of messages).head = []
  · rw [hempty] at h
    exact absurd h (by decide)
  · rw [tail_length_pending hempty hpending] at h
    exact absurd h (by decide)

end

/-! ## The description -/

/-- The segments of a conversation are as they are described. -/
theorem of_describes_last_turn (messages : List Message) :
    DescribesLastTurn messages (of messages) where
  head := is_greatest_head messages
  apart := head_add_tail_le messages
  silent := tail_eq_zero_iff messages
  pending := by
    rintro ⟨m, hmem, hrole⟩ hpending
    have hne : messages.drop (of messages).head ≠ [] := by
      rw [drop_head_eq_drop_while]
      exact fun hnil => hrole (is_system_iff.1 (List.dropWhile_eq_nil_iff.1 hnil m hmem))
    rw [tail_eq, tail_length_pending hne hpending]
  asked := by
    intro h p m hlast hrole
    have hlt := hlast.lt
    rw [tail_of_last_mark h hlast, if_pos hrole]
    omega
  ruled := by
    intro h p m hlast hrole hlt
    have huser : m.role ≠ .user := by simp [hrole]
    rw [tail_of_last_mark h hlast, if_neg huser]
    omega
  closed := by
    intro h p m hlast hend
    rw [tail_of_last_mark h hlast]
    split <;> omega
  unmarked := by
    intro h hnone
    have hanswers : ∀ m ∈ messages.drop (of messages).head, ¬ IsMark m := by
      rcases all_answers_or_exists_last_mark (messages.drop (of messages).head) with
        hanswers | hmark
      · exact hanswers
      · obtain ⟨before, m, after, hdrop, hm, hafter⟩ := hmark
        exact absurd (is_last_mark_of_drop hdrop hm hafter) (hnone _ m)
    have hle := head_le_length messages
    rw [tail_of_unmarked h hanswers]
    omega
  whole := by
    intro hseveral
    have h := exists_assistant_of_one_lt_tail hseveral
    rcases all_answers_or_exists_last_mark (messages.drop (of messages).head) with hanswers | hmark
    · have hstart : messages.length - (of messages).tail = (of messages).head := by
        have hle := head_le_length messages
        rw [tail_of_unmarked h hanswers]
        omega
      rw [hstart]
      exact ⟨fun m hm hrole => hanswers m hm (.inr hrole),
        fun m hm hrole => hanswers m (List.drop_subset_drop_left _ (Nat.le_succ _) hm) (.inl hrole)⟩
    · obtain ⟨before, m, after, hdrop, hm, hafter⟩ := hmark
      have hlast := is_last_mark_of_drop hdrop hm hafter
      have hlt := hlast.lt
      have htail := tail_of_last_mark h hlast
      rcases hm with hrole | hrole
      · have hstart : messages.length - (of messages).tail =
            (of messages).head + before.length := by
          rw [htail, if_pos hrole]
          omega
        rw [hstart, hlast.drop_eq]
        refine ⟨fun m' hm' => ?_, fun m' hm' hrole' => hlast.answers m' hm' (.inl hrole')⟩
        rcases List.mem_cons.1 hm' with rfl | hmem
        · simp [hrole]
        · exact fun hrole' => hlast.answers m' hmem (.inr hrole')
      · -- A turn of one message may be a system message, but this one is longer.
        have hstart : messages.length - (of messages).tail =
            (of messages).head + before.length + 1 := by
          have huser : m.role ≠ .user := by simp [hrole]
          rw [if_neg huser] at htail
          omega
        rw [hstart]
        exact ⟨fun m' hm' hrole' => hlast.answers m' hm' (.inr hrole'), fun m' hm' hrole' =>
          hlast.answers m' (List.drop_subset_drop_left _ (Nat.le_succ _) hm') (.inl hrole')⟩

/-- No other segments are. -/
theorem DescribesLastTurn.unique {messages : List Message} {s s' : Segments}
    (h : DescribesLastTurn messages s) (h' : DescribesLastTurn messages s') : s = s' := by
  obtain ⟨head, tail⟩ := s
  obtain ⟨head', tail'⟩ := s'
  obtain rfl : head = head' := h.head.unique h'.head
  have hapart : head + tail ≤ messages.length := h.apart
  have hapart' : head + tail' ≤ messages.length := h'.apart
  -- Tails that start at the same position have the same length.
  have hstart (p : Nat) (htail : messages.length - tail = p)
    (htail' : messages.length - tail' = p) :
      tail = tail' := by omega
  have htail : tail = tail' := by
    by_cases hsystem : ∀ m ∈ messages, m.role = .system
    · exact (h.silent.2 hsystem).trans (h'.silent.2 hsystem).symm
    by_cases hanswered : ∃ m ∈ messages.drop head, m.role = .assistant
    · by_cases hmarked : ∃ p m, IsLastMark messages head p m
      · obtain ⟨p, m, hlast⟩ := hmarked
        rcases hlast.is_mark with hrole | hrole
        · exact hstart p (h.asked hanswered p m hlast hrole) (h'.asked hanswered p m hlast hrole)
        rcases Nat.lt_or_eq_of_le (Nat.succ_le_of_lt hlast.lt) with hlt | hend
        · exact hstart (p + 1) (h.ruled hanswered p m hlast hrole hlt)
            (h'.ruled hanswered p m hlast hrole hlt)
        · exact hstart p (h.closed hanswered p m hlast hend) (h'.closed hanswered p m hlast hend)
      · have hnone : ∀ p m, ¬ IsLastMark messages head p m := fun p m hlast => hmarked ⟨p, m, hlast⟩
        exact hstart head (h.unmarked hanswered hnone) (h'.unmarked hanswered hnone)
    · have hother : ∃ m ∈ messages, m.role ≠ .system := by simpa using hsystem
      have hpending : ∀ m ∈ messages.drop head, m.role ≠ .assistant :=
        fun m hm hrole => hanswered ⟨m, hm, hrole⟩
      exact (h.pending hother hpending).trans (h'.pending hother hpending).symm
  rw [htail]

/-- A conversation has one head and one last turn, and they are its segments. The head is the
longest row of system messages at the front, and the tail does not reach into it. The tail is empty
exactly if there are only system messages, and it is the last message if the assistant has not
answered behind the head. Otherwise it goes by the last message of the user or the system behind the
head: it starts at that message if it is the user's or the last one of all, and right behind it if
it is a system message that others follow; if there is none, it starts at the head. So no system
message stands in a tail of several messages, and none of the user but for its first. -/
theorem describes_last_turn_iff (messages : List Message) (s : Segments) :
    DescribesLastTurn messages s ↔ s = of messages := by
  constructor
  · exact fun h => h.unique (of_describes_last_turn messages)
  · rintro rfl
    exact of_describes_last_turn messages

/-- A system message that nothing follows is a turn by itself. -/
example :
    of [.system "rule", .user "question", .assistant "answer", .system "note"] = ⟨1, 1⟩ := by decide

end Segments

end Transcript
