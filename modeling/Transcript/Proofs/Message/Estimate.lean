import Transcript.Proofs.Message.Merge
import Transcript.Proofs.Tailoring.Costs

/-!
# Estimates of merged chunks

The characters of chunks add up when they are merged, but their tokens do not quite: a chunk is
estimated on its own, and what is left over of its characters is dropped, or counted as a whole
token if there is nothing else. Each merge puts the estimate off by one token at most, up or down
(`TokenCounter.estimate_add_le`, `TokenCounter.le_estimate_add`), and so k chunks by k - 1 tokens
(`TokenCounter.merged_cost_near_total`).
-/

namespace Transcript

/-! ## Characters -/

namespace Message

/-- Joined texts are as long as both of them together. -/
theorem optional_length_joined (x y : Option String) :
    optionalLength (joined (· ++ ·) x y) = optionalLength x + optionalLength y := by
  cases x with
  | none => exact (Nat.zero_add _).symm
  | some a =>
      cases y with
      | none => rfl
      | some b => exact String.length_append a b

/-- The characters of two chunks are those of the message that they are merged to. -/
theorem characters_merge (a b : Message) :
    (Merge.merge a b).characters = a.characters + b.characters := by
  have hcontent := optional_length_joined a.content b.content
  have hreasoning := optional_length_joined a.reasoning b.reasoning
  have hparts : sumOver String.length (Merge.merge a b).partTexts =
      sumOver String.length a.partTexts + sumOver String.length b.partTexts := by
    show sumOver String.length ((a.parts ++ b.parts).filterMap ContentPart.text?) = _
    rw [List.filterMap_append, sum_over_append]
    rfl
  show optionalLength (joined (· ++ ·) a.content b.content) +
    optionalLength (joined (· ++ ·) a.reasoning b.reasoning) + _ = _
  rw [hcontent, hreasoning, hparts]
  unfold characters
  omega

/-- Merged messages have the characters of all of them. -/
theorem characters_foldl (first : Message) (rest : List Message) :
    (rest.foldl Merge.merge first).characters = sumOver characters (first :: rest) := by
  induction rest generalizing first with
  | nil => rfl
  | cons next rest ih =>
      show (rest.foldl Merge.merge (Merge.merge first next)).characters = _
      rw [ih]
      simp only [sumOver, characters_merge]
      omega

end Message

namespace TokenCounter

/-! ## Tokens -/

/-- The tokens that are estimated for a number of characters. -/
def estimate (ratio : Nat) : Nat → Nat
  | 0 => 0
  | n => max (n / max ratio 1) 1

/-- A message costs what its characters are estimated at. -/
theorem per_characters_eq (ratio : Nat) (m : Message) :
    perCharacters ratio m = estimate ratio m.characters := by
  unfold perCharacters estimate
  cases m.characters <;> rfl

/-- The estimate of some characters is their number over the ratio, but one at least. -/
theorem estimate_of_pos {ratio n : Nat} (h : 0 < n) :
    estimate ratio n = max (n / max ratio 1) 1 := by
  cases n with
  | zero => exact absurd h (Nat.lt_irrefl 0)
  | succ n => rfl

/-- One token may be made of what two texts leave over. -/
theorem estimate_add_le (ratio a b : Nat) :
    estimate ratio (a + b) ≤ estimate ratio a + estimate ratio b + 1 := by
  rcases Nat.eq_zero_or_pos a with rfl | ha
  · rw [Nat.zero_add]
    omega
  rcases Nat.eq_zero_or_pos b with rfl | hb
  · rw [Nat.add_zero]
    omega
  rw [estimate_of_pos ha, estimate_of_pos hb, estimate_of_pos (Nat.add_pos_left ha b)]
  have hratio : 0 < max ratio 1 := Nat.lt_of_lt_of_le Nat.one_pos (Nat.le_max_right _ _)
  have hcarry := Nat.add_div (a := a) (b := b) hratio
  split at hcarry <;> omega

/-- One token may be lost where a text that is shorter than a token was counted as one. -/
theorem le_estimate_add (ratio a b : Nat) :
    estimate ratio a + estimate ratio b ≤ estimate ratio (a + b) + 1 := by
  rcases Nat.eq_zero_or_pos a with rfl | ha
  · rw [Nat.zero_add]
    show 0 + estimate ratio b ≤ estimate ratio b + 1
    omega
  rcases Nat.eq_zero_or_pos b with rfl | hb
  · show estimate ratio a + 0 ≤ estimate ratio a + 1
    omega
  rw [estimate_of_pos ha, estimate_of_pos hb, estimate_of_pos (Nat.add_pos_left ha b)]
  have hsum : a / max ratio 1 + b / max ratio 1 ≤ (a + b) / max ratio 1 :=
    Nat.div_add_div_le_add_div
  generalize a / max ratio 1 = x at hsum ⊢
  generalize b / max ratio 1 = y at hsum ⊢
  omega

/-! ## Rows of chunks -/

variable {cost : TokenCounter}

/-- If each merge puts a cost off by one at most, a row of chunks is off by one less than their
number. -/
theorem foldl_cost_near (hup : ∀ a b, cost (merge a b) ≤ cost a + cost b + 1)
    (hdown : ∀ a b, cost a + cost b ≤ cost (merge a b) + 1) (first : Message)
    (rest : List Message) :
    cost (rest.foldl merge first) ≤ total cost (first :: rest) + rest.length ∧
      total cost (first :: rest) ≤ cost (rest.foldl merge first) + rest.length := by
  induction rest generalizing first with
  | nil => exact ⟨Nat.le_refl _, Nat.le_refl _⟩
  | cons next rest ih =>
      -- The first two are merged to one chunk, with which the rest begins.
      obtain ⟨hle, hge⟩ := ih (merge first next)
      have hmore := hup first next
      have hless := hdown first next
      have hsplit (m : Message) (ms : List Message) :
          total cost (m :: ms) = cost m + total cost ms := rfl
      rw [hsplit] at hle hge
      rw [hsplit, hsplit, List.foldl_cons, List.length_cons]
      omega

/-- Whatever the characters of a token are, chunks have as many characters as the message that they
are merged to, and the estimate of that differs from the sum of theirs by less than their number. -/
theorem merged_cost_near_total (ratio : Nat) (first : Message) (rest : List Message) :
    ∃ m, mergeAll (first :: rest) = some m ∧
      m.characters = sumOver Message.characters (first :: rest) ∧
      perCharacters ratio m ≤ total (perCharacters ratio) (first :: rest) + rest.length ∧
      total (perCharacters ratio) (first :: rest) ≤ perCharacters ratio m + rest.length := by
  refine ⟨rest.foldl merge first, rfl, Message.characters_foldl first rest, ?_⟩
  refine foldl_cost_near (fun a b => ?_) (fun a b => ?_) first rest
  · rw [per_characters_eq, per_characters_eq, per_characters_eq, Message.characters_merge]
    exact estimate_add_le ratio a.characters b.characters
  · rw [per_characters_eq, per_characters_eq, per_characters_eq, Message.characters_merge]
    exact le_estimate_add ratio a.characters b.characters

/-- Three short chunks are counted as a token each and make one token together, and what three
longer ones leave over makes two more. -/
example :
    total standard [.user "a", .user "b", .user "c"] = 3 ∧
      (mergeAll [Message.user "a", .user "b", .user "c"]).map standard = some 1 ∧
      total standard [.user "1234567", .user "1234567", .user "123456"] = 3 ∧
      (mergeAll [Message.user "1234567", .user "1234567", .user "123456"]).map standard =
        some 5 := by
  decide

end TokenCounter

end Transcript
