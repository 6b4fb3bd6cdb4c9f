import Transcript.Pipeline.Timeline

/-!
# Schedules are made of turns

The order that `Transcript.Pipeline.Timeline` puts the steps of a pipeline in is one of many. Each
part of it is put together from the same few things: the clock is turned, a run goes on, a worker
takes a job. `IsScheduled setup R` says that `R` relates a pipeline to what comes of it through each
of these, and through any number of them. Then `R` relates it to what comes of it through any part
of the schedule.
-/

namespace Transcript.Pipeline

variable {σ : Type} [SummaryStore σ]

/-- A relation that schedules keep to. -/
structure IsScheduled (setup : Setup) (R : Pipeline σ → Pipeline σ → Prop) : Prop where
  refl : ∀ p, R p p
  trans : ∀ {p p' p''}, R p p' → R p' p'' → R p p''
  turn : ∀ p clock, R p (p.turn clock)
  resume : ∀ {p run}, run ∈ p.runs → R p (p.resume setup run)
  take : ∀ {p job}, p.nextJob? = some job → R p (p.take setup job)

namespace IsScheduled

variable {setup : Setup} {R : Pipeline σ → Pipeline σ → Prop} (h : IsScheduled setup R)
include h

/-! ## Runs -/

/-- The relation holds across the next move of a job. -/
theorem advance (number : Nat) (p : Pipeline σ) : R p (p.advance setup number) := by
  unfold Pipeline.advance
  split
  · rename_i run hrun
    split
    · exact h.resume (List.mem_of_find?_eq_some hrun)
    · exact h.refl p
  · exact h.refl p

/-- It holds across all the moves that a job can make at once. -/
theorem proceed (number : Nat) (p : Pipeline σ) : R p (p.proceed setup number) :=
  h.trans (h.trans (h.advance number p) (h.advance number _)) (h.advance number _)

/-- It holds when a worker takes a job and goes as far with it as it can. -/
theorem assign (p : Pipeline σ) : R p (p.assign setup) := by
  unfold Pipeline.assign
  split
  · rename_i job hnext
    exact h.trans (h.take hnext) (h.proceed _ _)
  · exact h.refl p

/-- It holds when all idle workers take jobs. -/
theorem settle (p : Pipeline σ) : R p (p.settle setup) := by
  unfold Pipeline.settle
  induction p.queue.length with
  | zero => exact h.refl p
  | succ n ih => exact h.trans ih (h.assign _)

/-! ## Time -/

/-- It holds when the clock is set to the end of a call, and what waits for it goes on. -/
theorem fire (p : Pipeline σ) (run : Run) : R p (p.fire setup run) := by
  have hproceed := h.trans (h.turn p run.due) (h.proceed run.job.number _)
  unfold Pipeline.fire
  dsimp only
  split
  · exact h.trans hproceed (h.settle _)
  · exact hproceed

/-- It holds while time passes, up to a limit or until something is done. -/
theorem pass_time (done : Pipeline σ → Bool) (limit : Option Nat) (fuel : Nat) (p : Pipeline σ) :
    R p (passTime setup done limit fuel p) := by
  induction fuel generalizing p with
  | zero => exact h.refl p
  | succ fuel ih =>
      unfold passTime
      split
      · exact h.refl p
      · split
        · split
          · exact h.trans (h.fire p _) (ih _)
          · exact h.refl p
        · exact h.refl p

/-- It holds when idle workers take jobs and then time passes. -/
theorem wait (p : Pipeline σ) (done : Pipeline σ → Bool) (limit : Option Nat) :
    R p (p.wait setup done limit) := h.trans (h.settle p) (h.pass_time done limit _ _)

/-! ## What the caller does -/

/-- It holds over so many milliseconds. -/
theorem sleep (p : Pipeline σ) (ms : Nat) : R p (p.sleep setup ms) := by
  unfold Pipeline.sleep
  split
  · exact h.refl p
  · exact h.trans (h.wait p _ _) (h.turn _ _)

/-- It holds until a job is over. -/
theorem await (p : Pipeline σ) (number : Nat) : R p (p.await setup number) := by
  unfold Pipeline.await
  split
  · exact h.wait p _ _
  · exact h.refl p

/-- A job that the caller runs has to begin first. -/
theorem execute {p q : Pipeline σ} {job : Job} (hbegin : R p (q.begin setup job false)) :
    R p (q.execute setup job) :=
  h.trans (h.trans hbegin (h.proceed job.number _)) (h.await _ _)

/-- The caller loads a summary with a call of its own. -/
theorem load (hcall : ∀ p : Pipeline σ, R p { p with loads := p.loads + 1 }) (p : Pipeline σ)
    (scope : Scope) : R p (p.load setup scope).2 := by
  have hsleep := h.trans (hcall p) (h.sleep _ (setup.link.load (p.loads + 1)).delay)
  unfold Pipeline.load
  dsimp only
  split
  · exact hsleep
  · exact hsleep
  · exact hsleep

/-- When the pool has been closed, its workers are let go or aborted in the end. -/
theorem shutdown {p : Pipeline σ}
    (hdismiss : ∀ {p'}, p.close.isClosing = true → R p.close p' → p'.isDrained = true →
      R p p'.dismiss)
    (habort : ∀ {p'}, p.close.isClosing = true → R p.close p' → R p p'.abort) :
    R p (p.shutdown setup) := by
  unfold Pipeline.shutdown
  split
  · exact h.refl p
  · rename_i pool hpool
    have hclosing : p.close.isClosing = true := by simp [close, isClosing, onPool, hpool]
    split
    · exact h.refl p
    · split
      · exact habort hclosing (h.refl _)
      · have hwait := h.wait p.close isDrained (some (p.clock + pool.grace.milliseconds))
        dsimp only
        split
        · rename_i hdrained
          exact hdismiss hclosing hwait hdrained
        · exact habort hclosing (h.trans hwait (h.turn _ _))

end IsScheduled

end Transcript.Pipeline
