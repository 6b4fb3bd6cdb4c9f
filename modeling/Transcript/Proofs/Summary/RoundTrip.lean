import Transcript.Proofs.Json.RoundTrip
import Transcript.Proofs.Time.Notation
import Transcript.Summary.Basic

/-!
# Reading back summaries

A summary whose numbers fit a machine word and whose time can be written is read back from its JSON
text (`Summary.decode_text_encode`).
-/

namespace Transcript

open Json

/-- A count that fits a machine word is read back. -/
theorem Json.Decoder.count_count {n : Nat} (h : n < wordLimit) :
    Decoder.count (.count n) = .ok n := by
  simp [Decoder.count, Value.count, Number.toCount?, h]

/-- Its form is plain. -/
theorem Json.Value.is_plain_count {n : Nat} (h : n < wordLimit) (depth : Nat) :
    (Value.count n).IsPlain depth :=
  ⟨n, h, rfl⟩

/-- The usage is one of numbers that fit a machine word. -/
structure Usage.IsRepresentable (u : Usage) : Prop where
  prompt : u.prompt < wordLimit
  completion : u.completion < wordLimit

/-- Nothing used is a usage that can be written. -/
theorem Usage.is_representable_zero : IsRepresentable {} := ⟨by decide, by decide⟩

/-- A usage is read back from its form. -/
theorem Usage.decode_encode {u : Usage} (h : u.IsRepresentable) : decode u.encode = .ok u := by
  have hprompt := Decoder.count_count h.prompt
  have hcompletion := Decoder.count_count h.completion
  simp [decode, encode, shape, Shape.decode, Shape.memberFault?, Field.of, fault?, Given.required,
    hprompt, hcompletion, List.lookup_cons, bind, Except.bind, pure, Except.pure]

namespace Summary

/-- The summary can be written: its numbers fit a machine word, and its time has a date in the
calendar. -/
structure IsRepresentable (s : Summary) : Prop where
  coveredUntil : s.coveredUntil < wordLimit
  generatedAt : s.generatedAt.IsCivil
  usage : s.usage.IsRepresentable

/-- A summary of the start of 1970 can be written. -/
theorem is_representable_at_epoch (text : String) {n : Nat} (h : n < wordLimit) :
    IsRepresentable ⟨text, n, ⟨0, 0⟩, {}⟩ where
  coveredUntil := h
  generatedAt := Timestamp.is_civil_epoch
  usage := Usage.is_representable_zero

/-- The JSON form of a summary is plain. -/
theorem is_plain_encode {s : Summary} (h : s.IsRepresentable) : s.encode.IsPlain 0 := by
  have hcovered := Value.is_plain_count h.coveredUntil 1
  have hprompt := Value.is_plain_count h.usage.prompt 2
  have hcompletion := Value.is_plain_count h.usage.completion 2
  have husage : s.usage.encode.IsPlain 1 := ⟨by decide, hprompt, hcompletion, trivial⟩
  exact ⟨by decide, trivial, hcovered, trivial, husage, trivial⟩

/-- A summary is read back from its form. -/
theorem decode_encode {s : Summary} (h : s.IsRepresentable) : decode s.encode = .ok s := by
  have hcovered := Decoder.count_count h.coveredUntil
  have hgenerated := Timestamp.decode_encode h.generatedAt
  have husage := Usage.decode_encode h.usage
  simp [decode, encode, shape, Shape.decode, Shape.memberFault?, Field.of, fault?, Given.required,
    Given.withDefault, Decoder.string, hcovered, hgenerated, husage, List.lookup_cons, bind,
    Except.bind, pure, Except.pure]

/-- A summary is read back from its text. -/
theorem decode_text_encode {s : Summary} (h : s.IsRepresentable) :
    decodeText decode s.encode.pretty = .ok s := by
  rw [decode_text_pretty decode (is_plain_encode h), decode_encode h]

end Summary

end Transcript
