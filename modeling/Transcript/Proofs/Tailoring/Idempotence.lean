import Transcript.Proofs.Tailoring.Selection

/-!
# Tailoring what has been tailored

What fits the budget loses nothing but the tool results that follow its head (`tailor_fitting`). A
conversation that has been tailored has no tool results behind the head it had before, but its own
head may be longer: where the messages behind the old head are gone, a system message of the middle
may come next. The tool results behind that message are lost the second time
(`tailor_not_idempotent`), and this is the only way in which tailoring goes on
(`tailor_tailor_iff`).
-/

namespace Transcript

/-- Whether the first message that is no system message is a tool result. -/
def OpensWithTool (messages : List Message) : Prop :=
  ∃ m ∈ (messages.dropWhile Segments.isSystem).head?, m.isToolResult = true

instance (messages : List Message) : Decidable (OpensWithTool messages) :=
  inferInstanceAs (Decidable (∃ m ∈ (messages.dropWhile Segments.isSystem).head?, _))

/-- Nothing is dropped exactly if the first element is not to be dropped. -/
theorem drop_while_eq_self_iff {α : Type} {p : α → Bool} (xs : List α) :
    xs.dropWhile p = xs ↔ ¬ ∃ x ∈ xs.head?, p x = true := by
  cases xs with
  | nil => simp
  | cons x xs =>
      rw [List.dropWhile_eq_self_iff]
      simp

namespace Tailor

variable {t : Tailor} {messages : List Message} {budget : Nat}

/-- If all messages fit, the whole middle is kept. -/
theorem kept_fitting (hfit : t.cost.total messages ≤ budget) :
    t.kept messages budget = Segments.middle messages := by
  have hparts := total_parts t messages
  have hmiddle : t.cost.total (Segments.middle messages) ≤ budget - t.preserved messages := by
    omega
  rw [kept, if_neg (by omega), Strategy.room_eq_length t.strategy hmiddle, Strategy.keep_length]

/-- If all messages fit, only tool results behind the head are lost. -/
theorem tailor_fitting (hfit : t.cost.total messages ≤ budget) :
    t.tailor messages budget = messages.takeWhile Segments.isSystem ++
      (messages.dropWhile Segments.isSystem).dropWhile Message.isToolResult := by
  rw [tailor_eq_drop_while, kept_fitting hfit, Segments.middle_append_back,
    Segments.front_eq_take_while, Segments.drop_head_eq_drop_while]

/-- A conversation that fits is left as it is exactly if no tool result follows its head. -/
theorem tailor_eq_self_iff (hfit : t.cost.total messages ≤ budget) :
    t.tailor messages budget = messages ↔ ¬ OpensWithTool messages := by
  have hsplit : messages.takeWhile Segments.isSystem ++ messages.dropWhile Segments.isSystem =
      messages := List.takeWhile_append_dropWhile
  rw [tailor_fitting hfit, OpensWithTool, ← drop_while_eq_self_iff]
  constructor
  · intro h
    exact List.append_cancel_left (h.trans hsplit.symm)
  · intro h
    rw [h, hsplit]

/-- If what tailoring gives fits the budget, tailoring it once more changes nothing, unless a tool
result is its first message that is no system message. -/
theorem tailor_tailor_iff (t : Tailor) (messages : List Message) (budget : Nat)
    (hfit : t.cost.total (t.tailor messages budget) ≤ budget) :
    t.tailor (t.tailor messages budget) budget = t.tailor messages budget ↔
      ¬ OpensWithTool (t.tailor messages budget) :=
  tailor_eq_self_iff hfit

/-- A system message that is kept without a tool result behind it does no harm. -/
theorem tailor_tailor_iff_two_turns :
    let t : Tailor := { strategy := .middleOut, cost := fun _ => 10 }
    let messages : List Message :=
      [.system "s", .user "u1", .assistant "a1", .system "n", .user "u2", .assistant "a2"]
    t.cost.total (t.tailor messages 55) ≤ 55 ∧ ¬ OpensWithTool (t.tailor messages 55) ∧
      t.tailor (t.tailor messages 55) 55 = t.tailor messages 55 := by
  intro t messages
  have hkept : t.tailor messages 55 =
      [.system "s", .user "u1", .system "n", .user "u2", .assistant "a2"] :=
    (tailor_eq_drop_while t messages 55).trans (by decide)
  have hfit : t.cost.total (t.tailor messages 55) ≤ 55 := by
    rw [hkept]
    decide
  have hopens : ¬ OpensWithTool (t.tailor messages 55) := by
    rw [hkept]
    decide
  exact ⟨hfit, hopens, (tailor_tailor_iff t messages 55 hfit).2 hopens⟩

/-- A conversation in which the system speaks between the call of a tool and its answer. -/
def interrupted : List Message :=
  [.system "rule", .user "ask1",
    { Message.calling [⟨"c1", "read", "{}"⟩] with content := some "look" },
    .system "note", .toolResult "c1" "data", .user "ask2"]

/-- The answer of the tool is kept at first, behind the system message, but it is lost the second
time, although everything fits. -/
theorem tailor_not_idempotent :
    let t : Tailor := { strategy := .headOut }
    t.cost.total (t.tailor interrupted 4) ≤ 4 ∧
      t.tailor (t.tailor interrupted 4) 4 ≠ t.tailor interrupted 4 := by
  intro t
  have hfirst : t.tailor interrupted 4 =
      [.system "rule", .system "note", .toolResult "c1" "data", .user "ask2"] :=
    (tailor_eq_drop_while t interrupted 4).trans (by decide)
  have hfit : t.cost.total (t.tailor interrupted 4) ≤ 4 := by
    rw [hfirst]
    decide
  refine ⟨hfit, fun h => ?_⟩
  rw [tailor_fitting hfit, hfirst] at h
  exact absurd h (by decide)

end Tailor

end Transcript
