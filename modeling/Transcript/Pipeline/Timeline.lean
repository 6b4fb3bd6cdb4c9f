import Transcript.Pipeline.Basic

/-!
# The order of events

Here the steps of a pipeline are put in order by the clock. There is a caller, who does one thing
after another, and there are the workers. The workers get a turn only while the caller waits, and
the clock goes on only while all of them wait: then it jumps to the next call that is over. Whoever
gets a turn keeps it until there is something to wait for.
-/

namespace Transcript.Pipeline

variable {σ : Type} [SummaryStore σ]

/-- Goes on with the run of a job if its call is over by now. -/
def advance (setup : Setup) (number : Nat) (p : Pipeline σ) : Pipeline σ :=
  match p.run? number with
  | some run => if run.due ≤ p.clock then p.resume setup run else p
  | none => p

/-- Goes on with the run of a job as far as it gets now. It makes three calls at most. -/
def proceed (setup : Setup) (number : Nat) (p : Pipeline σ) : Pipeline σ :=
  p.advance setup number |>.advance setup number |>.advance setup number

/-- Starts to run a job and goes on as far as it gets now. -/
def launch (setup : Setup) (p : Pipeline σ) (job : Job) : Pipeline σ :=
  (p.begin setup job false).proceed setup job.number

/-- Lets an idle worker take a job, if there are both, and go on with it as far as it gets now. -/
def assign (setup : Setup) (p : Pipeline σ) : Pipeline σ :=
  match p.nextJob? with
  | some job => (p.take setup job).proceed setup job.number
  | none => p

/-- Lets idle workers take jobs until either run out. -/
def settle (setup : Setup) (p : Pipeline σ) : Pipeline σ := p.queue.length.repeat (assign setup) p

/-- The earlier of two runs, or the first of them. -/
def earlier (a b : Run) : Run := if b.due < a.due then b else a

/-- The run whose call is over next. -/
def nextRun? (p : Pipeline σ) : Option Run :=
  match p.runs with
  | [] => none
  | r :: rs => some (rs.foldl earlier r)

/-- Turns the clock forward. -/
def turn (p : Pipeline σ) (clock : Nat) : Pipeline σ := { p with clock := max p.clock clock }

/-- Turns the clock to the end of the call that a run waits for, and goes on from there. -/
def fire (setup : Setup) (p : Pipeline σ) (run : Run) : Pipeline σ :=
  let p := (p.turn run.due).proceed setup run.job.number
  if run.byWorker then p.settle setup else p

/-- Whether something at the given millisecond comes before the limit. -/
def isBefore (due : Nat) (limit : Option Nat) : Bool :=
  match limit with
  | some l => due < l
  | none => true

/-- Lets time go by until the caller need not wait any longer or the limit is reached. -/
def passTime (setup : Setup) (done : Pipeline σ → Bool) (limit : Option Nat) :
    (fuel : Nat) → Pipeline σ → Pipeline σ
  | 0, p => p
  | fuel + 1, p =>
    if done p then p
    else
      match p.nextRun? with
      | some run =>
        if isBefore run.due limit then passTime setup done limit fuel (p.fire setup run) else p
      | none => p

/-- A bound on the calls that are still made by the jobs that run or wait. -/
def workLeft (p : Pipeline σ) : Nat := 3 * (p.runs.length + p.queue.length)

/-- Lets the workers have their turn, and then time go by. -/
def wait (setup : Setup) (p : Pipeline σ) (done : Pipeline σ → Bool) (limit : Option Nat) :
    Pipeline σ :=
  let p := p.settle setup
  passTime setup done limit (p.workLeft + 1) p

/-! ## What the caller does -/

/-- Waits so many milliseconds. -/
def sleep (setup : Setup) (p : Pipeline σ) (ms : Nat) : Pipeline σ :=
  if ms = 0 then p else (p.wait setup (fun _ => false) (some (p.clock + ms))).turn (p.clock + ms)

/-- Whether a job waits or runs. -/
def isUnderWay (number : Nat) (p : Pipeline σ) : Bool :=
  (p.run? number).isSome || p.queue.any (·.number == number)

/-- Waits for the end of a job. -/
def await (setup : Setup) (p : Pipeline σ) (number : Nat) : Pipeline σ :=
  if p.isUnderWay number then p.wait setup (!isUnderWay number ·) none else p

/-- Runs a job and waits for its end. -/
def execute (setup : Setup) (p : Pipeline σ) (job : Job) : Pipeline σ :=
  (p.launch setup job).await setup job.number

/-- The outcome of a job. As long as there is none, the job has nothing to show. -/
def outcomeOf (p : Pipeline σ) (number : Nat) : Outcome :=
  (p.outcome? number).getD (.succeeded none)

/-- Loads the summary of a scope the way jobs do, but for as long as it takes. -/
def load (setup : Setup) (p : Pipeline σ) (scope : Scope) :
    Except Failure (Option Summary) × Pipeline σ :=
  let reply := setup.link.load (p.loads + 1)
  let p := { p with loads := p.loads + 1 }.sleep setup reply.delay
  match reply.ending with
  | .value () => (SummaryStore.load p.store scope, p)
  | .error reason => (.error (.store reason), p)
  | .panic message => (.error (.store (panicText message)), p)

/--
Closes the pool. Jobs that run may end within the grace period, after which they are aborted. Only
the first call has an effect.
-/
def shutdown (setup : Setup) (p : Pipeline σ) : Pipeline σ :=
  match p.pool with
  | none => p
  | some pool =>
    if pool.closing then p
    else if pool.grace.milliseconds = 0 then p.close.abort
    else
      let limit := p.clock + pool.grace.milliseconds
      let p := p.close.wait setup isDrained (some limit)
      if p.isDrained then p.dismiss else (p.turn limit).abort

end Transcript.Pipeline
