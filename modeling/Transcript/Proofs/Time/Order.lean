import Transcript.Time.Timestamp

/-!
# The order of points in time

Points in time are in order of their seconds, and then of their nanoseconds. A later point is
further away from a given start, as long as there are no leap seconds: one that an end of the span
lies in is counted, and one that lies between the ends is not.
-/

namespace Transcript.Timestamp

/-- One point comes before another, or they are the same. -/
instance : LE Timestamp where
  le t t' := t.seconds < t'.seconds ∨ t.seconds = t'.seconds ∧ t.nanos ≤ t'.nanos

instance (t t' : Timestamp) : Decidable (t ≤ t') :=
  inferInstanceAs (Decidable (t.seconds < t'.seconds ∨ t.seconds = t'.seconds ∧ t.nanos ≤ t'.nanos))

/-- Without leap seconds the distance is that of the seconds and the nanoseconds. -/
theorem nanos_to_of_no_leap {start t : Timestamp} (hstart : start.isLeap = false)
    (ht : t.isLeap = false) :
    start.nanosTo t = (t.seconds - start.seconds) * nanosPerSecond + (t.nanos - start.nanos) := by
  unfold nanosTo leapBetween
  simp [hstart, ht]

/-- A later point is further away. -/
theorem span_to_mono {start t t' : Timestamp} (hstart : start.isLeap = false)
    (ht : t.isLeap = false) (ht' : t'.isLeap = false) (hle : t ≤ t') :
    (start.spanTo t).nanoseconds ≤ (start.spanTo t').nanoseconds := by
  have hnanos : t.nanos < nanosPerSecond := Nat.not_le.1 (of_decide_eq_false ht)
  refine Int.toNat_le_toNat ?_
  rw [nanos_to_of_no_leap hstart ht, nanos_to_of_no_leap hstart ht']
  unfold nanosPerSecond at *
  rcases hle with hlt | ⟨heq, hle⟩
  · omega
  · rw [heq]
    omega

/-- An hour and half a second before is a point in the leap second at the end of 2016, but the point
after the leap second comes only an hour later. -/
example :
    let start : Timestamp := ⟨1483225200, 0⟩
    let leap : Timestamp := ⟨1483228799, 1500000000⟩
    let next : Timestamp := ⟨1483228800, 0⟩
    leap ≤ next ∧ (start.spanTo leap).milliseconds = 3600500 ∧
      (start.spanTo next).seconds = 3600 := by
  decide +kernel

end Transcript.Timestamp
