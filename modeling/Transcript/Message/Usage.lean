/-!
# Token usage

What a call of a model has cost, as the model itself reports it.
-/

namespace Transcript

/-- The tokens that a call of a model has used. -/
structure Usage where
  /-- The tokens of the question. -/
  prompt : Nat := 0
  /-- The tokens of the answer. -/
  completion : Nat := 0
deriving DecidableEq, Repr

namespace Usage

/-- All the tokens of a call. -/
def total (u : Usage) : Nat := u.prompt + u.completion

/-- The tokens of two calls. -/
def add (u v : Usage) : Usage := ⟨u.prompt + v.prompt, u.completion + v.completion⟩

end Usage

end Transcript
