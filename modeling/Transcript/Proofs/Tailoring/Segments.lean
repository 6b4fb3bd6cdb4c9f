import Mathlib.Data.List.Basic
import Mathlib.Data.List.TakeWhile
import Transcript.Tailoring.Segments

/-!
# The three parts of a conversation

The segments part a conversation into its front, its middle and its back. They never overlap
(`head_le_tail_start`), so the parts make up the conversation (`parts_append`).
-/

namespace Transcript

namespace Segments

/-- Whether a message belongs to a row of leading system messages. -/
def isSystem (m : Message) : Bool := m.role == .system

/-- The position of the first message of the last turn. -/
def tailStart (messages : List Message) : Nat := messages.length - (Segments.of messages).tail

/-- The leading system messages. -/
def front (messages : List Message) : List Message := messages.take (Segments.of messages).head

/-- The messages between the leading system messages and the last turn. -/
def middle (messages : List Message) : List Message :=
  (messages.take (tailStart messages)).drop (Segments.of messages).head

/-- The last turn. -/
def back (messages : List Message) : List Message := messages.drop (tailStart messages)

/-- A turn is no longer than the conversation. -/
theorem turn_length_le (messages : List Message) : turnLength messages ≤ messages.length := by
  induction messages with
  | nil => exact Nat.le_refl 0
  | cons m ms ih =>
      cases h : m.role <;> simp only [turnLength, h, List.length_cons] <;> omega

/-- Nor is the tail longer than the body. -/
theorem tail_length_le (body : List Message) : tailLength body ≤ body.length := by
  unfold tailLength
  split
  · exact Nat.zero_le _
  · rename_i hbody
    have hpos : 0 < body.length := List.length_pos_iff.2 (by simpa using hbody)
    have hturn := turn_length_le body.reverse
    rw [List.length_reverse] at hturn
    split <;> omega

/-- The head is the row of leading system messages. -/
theorem front_eq_take_while (messages : List Message) :
    front messages = messages.takeWhile isSystem :=
  (List.prefix_iff_eq_take.1 (List.takeWhile_prefix isSystem)).symm

/-- What follows the head is left when the leading system messages are taken away. -/
theorem drop_head_eq_drop_while (messages : List Message) :
    messages.drop (Segments.of messages).head = messages.dropWhile isSystem := by
  have h : messages.takeWhile isSystem ++ messages.dropWhile isSystem = messages :=
    List.takeWhile_append_dropWhile
  show messages.drop (messages.takeWhile isSystem).length = _
  nth_rewrite 2 [← h]
  exact List.drop_left

/-- Nor is the head longer than the conversation. -/
theorem head_le_length (messages : List Message) : (Segments.of messages).head ≤ messages.length :=
  (List.takeWhile_prefix isSystem).length_le

/-- Neither segment reaches into the other. -/
theorem head_add_tail_le (messages : List Message) :
    (Segments.of messages).head + (Segments.of messages).tail ≤ messages.length := by
  have htail := tail_length_le (messages.dropWhile isSystem)
  rw [← drop_head_eq_drop_while, List.length_drop] at htail
  have hhead := head_le_length messages
  have htail' : (Segments.of messages).tail ≤ messages.length - (Segments.of messages).head := by
    rw [drop_head_eq_drop_while] at htail
    exact htail
  omega

/-- The tail starts behind the head. -/
theorem head_le_tail_start (messages : List Message) :
    (Segments.of messages).head ≤ tailStart messages := by
  have h := head_add_tail_le messages
  unfold tailStart
  omega

/-- It starts within the conversation. -/
theorem tail_start_le_length (messages : List Message) : tailStart messages ≤ messages.length :=
  Nat.sub_le _ _

/-- The front is as long as the head. -/
theorem front_length (messages : List Message) :
    (front messages).length = (Segments.of messages).head := by
  rw [front, List.length_take, Nat.min_eq_left (head_le_length messages)]

/-- The middle is what lies between the head and the tail. -/
theorem middle_length (messages : List Message) :
    (middle messages).length = tailStart messages - (Segments.of messages).head := by
  rw [middle, List.length_drop, List.length_take,
    Nat.min_eq_left (tail_start_le_length messages)]

/-- The middle and the back follow the head. -/
theorem middle_append_back (messages : List Message) :
    middle messages ++ back messages = messages.drop (Segments.of messages).head := by
  have hle : (Segments.of messages).head ≤ (messages.take (tailStart messages)).length := by
    rw [List.length_take, Nat.min_eq_left (tail_start_le_length messages)]
    exact head_le_tail_start messages
  rw [middle, back, ← List.drop_append_of_le_length hle, List.take_append_drop]

/-- The three parts make up the conversation. -/
theorem parts_append (messages : List Message) :
    front messages ++ (middle messages ++ back messages) = messages := by
  rw [middle_append_back]
  exact List.take_append_drop _ _

end Segments

end Transcript
