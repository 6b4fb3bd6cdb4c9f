import Transcript.Proofs.Pipeline.InFlight
import Transcript.Proofs.Service.Bookkeeping
import Transcript.Proofs.Service.Representation

/-!
# How many jobs a scope has

Each scope counts its jobs that wait or run. The count is right as long as the session of the scope
is not removed, and it is never too high (`Pipeline.in_flight_accounts`). A removal makes it too
low, though, so that a scope that may have only one job at a time gets another one while the first
is still under way (`Pipeline.at_most_one_iff`).
-/

namespace Transcript

/-- Parts of a service like the small one, with one job in a scope at a time. -/
def ServiceParts.solitary : ServiceParts MemoryStore :=
  { ServiceParts.terse with
    config.summary.config.singleFlight := true }

/-- A service with one job in a scope at a time. -/
def Service.solitary : Service MemoryStore :=
  { Service.terse with config := ServiceParts.solitary.config }

/-- It is what is built from these parts. -/
theorem Service.build_solitary : ServiceParts.solitary.build = .ok Service.solitary :=
  ServiceParts.build_eq_ok_iff.2
    ⟨by decide +kernel, { template := conversationPlace }, by decide +kernel, rfl, rfl⟩

/-- A scope is refused only if jobs of it are counted. -/
theorem Service.in_flight_of_refused {σ : Type} {s : Service σ} {scope : Scope}
    (hrefused : (s.enqueue scope).1 = .skipped .inFlight) : 0 < s.pipeline.inFlight scope := by
  have hanswered := s.answered_enqueue scope
  generalize (s.enqueue scope).1 = answer, (s.enqueue scope).2 = s' at hrefused hanswered
  cases hanswered with
  | disabled | modelless | idle => cases hrefused
  | busy hbusy =>
      rw [Service.admits, Bool.eq_false_iff, ne_eq, TriggerCounters.admits_iff, not_or] at hbusy
      exact Nat.pos_of_ne_zero hbusy.2
  | offered henabled hmodel hevents hadmits hmade hanswer =>
      -- The pool itself skips no job.
      subst hrefused
      rcases Pipeline.enqueue_cases hanswer with
        ⟨pool, -, -, -, hskipped, -⟩ | ⟨pool, -, -, -, hskipped, -⟩ | ⟨-, hskipped, -⟩
      all_goals cases hskipped

namespace Pipeline

variable {σ : Type} {setup : Setup} {exclusive : Bool} {store : σ} {pool : Option PoolConfig}
variable {l : Ledger} {p : Pipeline σ}

/-- In time, a scope never counts more jobs than it has that wait or run, so it never refuses a job
on account of one that is gone. As long as its session has not been removed it counts neither more
nor less, and whatever is taken off the count at the end of a job was there. -/
theorem in_flight_accounts (hsteps : Steps setup exclusive (fresh store pool) l p)
    (htracked : ∀ job ∈ l.arrived, job.tracked = true) (htime : l.isInTime = true) (scope : Scope) :
    p.inFlight scope ≤ p.underWay scope ∧
      (∀ s : Service σ, s.pipeline = p → (s.enqueue scope).1 = .skipped .inFlight →
        ∃ job ∈ p.jobs, job.scope = scope) ∧
      (.removed scope.session ∉ l →
        p.inFlight scope = p.underWay scope ∧
        ∀ e p', Step setup exclusive p e p' → e ≠ .removed scope.session →
          p'.inFlight scope + e.released.countP (·.countsFor scope) =
            p.inFlight scope + e.arrived.countP (·.countsFor scope)) := by
  have hfresh := distinct_fresh store pool
  have howed := hsteps.owed_eq_under_way scope htracked htime
  have hle : p.inFlight scope ≤ p.underWay scope := by
    rw [← howed]
    exact hsteps.in_flight_le scope hfresh (in_flight_fresh store pool scope)
  have hexact (hkept : .removed scope.session ∉ l) : p.inFlight scope = p.owed l scope :=
    hsteps.in_flight_eq_of_kept scope hkept
  refine ⟨hle, fun s hs hrefused => ?_, fun hkept => ⟨(hexact hkept).trans howed, ?_⟩⟩
  · have hcounted := Service.in_flight_of_refused hrefused
    rw [hs] at hcounted
    have hsome : 0 < p.underWay scope := Nat.lt_of_lt_of_le hcounted hle
    simpa [underWay, List.countP_pos_iff] using hsome
  · intro e p' hstep hother
    have hnext := hstep.owed_eq scope (hsteps.distinct hfresh) l
    have hexact' : p'.inFlight scope = p'.owed (l ++ [e]) scope :=
      (Steps.single hstep).in_flight_eq scope (hsteps.distinct hfresh) (hexact hkept)
        (by simpa using hother.symm)
    rw [hexact', hexact hkept, hnext]

/-- A scope with two jobs that wait counts both of them. -/
theorem in_flight_accounts_two_jobs :
    let scope := Scope.whole .desk
    let p := (Service.terse.performAll
      [.append .desk (.saying "x"), .enqueue scope, .enqueue scope]).pipeline
    ∃ l : Ledger, Steps Service.terse.setup false (fresh {} (some {})) l p ∧
      (∀ job ∈ l.arrived, job.tracked = true) ∧ l.isInTime = true ∧ .removed scope.session ∉ l ∧
      p.underWay scope = 2 ∧ p.inFlight scope = 2 := by
  intro scope p
  obtain ⟨l, hsteps, hallowed⟩ := Service.exists_ledger_of_build Service.build_terse
    [.append .desk (.saying "x"), .enqueue scope, .enqueue scope]
  have htracked : ∀ job ∈ l.arrived, job.tracked = true := fun job => hallowed.tracked
  have htime : l.isInTime = true := hallowed.in_time (by decide +kernel)
  have hkept : .removed scope.session ∉ l := mt hallowed.removed (by decide +kernel)
  have htwo : p.underWay scope = 2 := by decide +kernel
  obtain ⟨-, -, hequal⟩ := in_flight_accounts hsteps htracked htime scope
  exact ⟨l, hsteps, htracked, htime, hkept, htwo, (hequal hkept).1.trans htwo⟩

/-- Where all jobs are offered to the pool and are to be alone in their scope, a scope has at most
one job under way at any time exactly if, whenever it gets a job after a removal of its session,
there has been a moment in between at which no job of it was under way. -/
theorem at_most_one_iff (hsteps : Steps setup true (fresh store pool) l p)
    (htracked : ∀ job ∈ l.arrived, job.tracked = true) (hforced : ∀ job, .forced job ∉ l)
    (scope : Scope) :
    (∀ m q, m <+: l → Steps setup true (fresh store pool) m q → q.underWay scope ≤ 1) ↔
      ∀ before since job number,
        before ++ .removed scope.session :: since ++ [.offered job (.enqueued number)] <+: l →
        job.scope = scope →
        ∃ m q, m <+: since ∧
          Steps setup true (fresh store pool) (before ++ .removed scope.session :: m) q ∧
          q.underWay scope = 0 := by
  have hfresh := distinct_fresh store pool
  constructor
  · intro hone before since job number hinitial hscope
    obtain ⟨q', hsteps'⟩ := hsteps.exists_prefix hinitial
    obtain ⟨q, hbefore, hstep⟩ := hsteps'.exists_last
    have hle := hone _ q' hinitial hsteps'
    have hcount := hstep.under_way_eq scope (hbefore.distinct hfresh)
    simp only [Entry.arrived, Entry.released, Entry.lost, List.countP_singleton, List.countP_nil,
      hscope, decide_true, if_true] at hcount
    exact ⟨since, q, List.prefix_rfl, hbefore, by omega⟩
  · intro hidle m q hinitial hq
    refine hq.under_way_le_one scope
      (fun job hjob => htracked job (Ledger.arrived_subset hinitial hjob))
      (fun job hjob => hforced job (hinitial.subset hjob))
      fun before since job number hearlier => ?_
    exact hidle before since job number (hearlier.trans hinitial)

/-- A scope whose session is removed while it has a job gets a second one, and at no moment in
between was it without a job. -/
theorem at_most_one_iff_removed_session :
    let scope := Scope.whole .desk
    let p :=
      (Service.solitary.performAll [.append .desk (.saying "x"), .enqueue scope, .remove .desk,
          .append .desk (.saying "y"), .enqueue scope]).pipeline
    ∃ l : Ledger, Steps Service.solitary.setup true (fresh {} (some {})) l p ∧
      (∀ job ∈ l.arrived, job.tracked = true) ∧ (∀ job, .forced job ∉ l) ∧ p.underWay scope = 2 ∧
      ∃ before since job number,
        before ++ .removed scope.session :: since ++ [.offered job (.enqueued number)] <+: l ∧
        job.scope = scope ∧
        ∀ m q, m <+: since →
          Steps Service.solitary.setup true (fresh ({} : MemoryStore) (some {}))
            (before ++ .removed scope.session :: m) q → q.underWay scope ≠ 0 := by
  intro scope p
  obtain ⟨l, hsteps, hallowed⟩ := Service.exists_ledger_of_build Service.build_solitary
    [.append .desk (.saying "x"), .enqueue scope, .remove .desk, .append .desk (.saying "y"),
      .enqueue scope]
  have htracked : ∀ job ∈ l.arrived, job.tracked = true := fun job => hallowed.tracked
  have hforced : ∀ job, .forced job ∉ l := by
    intro job hjob
    obtain ⟨other, hother⟩ := hallowed.forced hjob
    simp at hother
  have htwo : p.underWay scope = 2 := by decide +kernel
  refine ⟨l, hsteps, htracked, hforced, htwo, ?_⟩
  by_contra hnever
  have hone : ∀ m q, m <+: l →
      Steps Service.solitary.setup true (fresh ({} : MemoryStore) (some {})) m q →
      q.underWay scope ≤ 1 := by
    refine (at_most_one_iff hsteps htracked hforced scope).2 ?_
    intro before since job number hinitial hscope
    by_contra hbusy
    refine hnever ⟨before, since, job, number, hinitial, hscope, fun m q hm hq hnone => ?_⟩
    exact hbusy ⟨m, q, hm, hq, hnone⟩
  have hle := hone l p List.prefix_rfl hsteps
  omega

end Pipeline

namespace Service

variable {σ : Type} [SummaryStore σ] {parts : ServiceParts σ} {s : Service σ}

/-- Whatever a caller does with a service, short of shutting it down: no scope is known to have more
jobs in flight than it has under way, and as long as its session is not removed it is known to have
just as many. -/
theorem in_flight_le_under_way (hbuild : parts.build = .ok s) (ops : List Operation)
    (hopen : .shutdown ∉ ops) (scope : Scope) :
    ((s.performAll ops).state scope).inFlight ≤ (s.performAll ops).pipeline.underWay scope ∧
      (.remove scope.session ∉ ops →
        ((s.performAll ops).state scope).inFlight =
          (s.performAll ops).pipeline.underWay scope) := by
  obtain ⟨l, hsteps, hallowed⟩ := exists_ledger_of_build hbuild ops
  have hfresh :=
    Pipeline.distinct_fresh parts.store (parts.summarizer.map fun _ => parts.config.pool)
  have howed := hsteps.owed_eq_under_way scope (fun job => hallowed.tracked)
    (hallowed.in_time hopen)
  rw [← howed]
  refine ⟨hsteps.in_flight_le scope hfresh (Pipeline.in_flight_fresh _ _ _), fun hkept => ?_⟩
  exact hsteps.in_flight_eq_of_kept scope (mt hallowed.removed hkept)

/-- A service with one job in a scope at a time keeps to that, if it is not told to sum up at once,
and as long as the session is not removed. -/
theorem under_way_le_one (hbuild : parts.build = .ok s)
    (hsingle : parts.config.summary.config.singleFlight = true) (ops : List Operation)
    (hforced : ∀ scope, .summarize scope true ∉ ops) {scope : Scope}
    (hkept : .remove scope.session ∉ ops) : (s.performAll ops).pipeline.underWay scope ≤ 1 := by
  obtain ⟨l, hsteps, hallowed⟩ := exists_ledger_of_build hbuild ops
  rw [hsingle] at hsteps
  refine hsteps.under_way_le_one scope (fun job => hallowed.tracked) (fun job hjob => ?_) ?_
  · obtain ⟨other, hother⟩ := hallowed.forced hjob
    exact hforced other hother
  · intro before since job number hinitial hscope
    exact absurd (hallowed.removed (hinitial.subset (by simp))) hkept

/-- A scope that may have one job only gets a second one after its session was removed, while the
first one still waits. -/
theorem removal_admits_second_job :
    let scope := Scope.whole .desk
    let once := solitary.performAll [.append .desk (.saying "x"), .enqueue scope]
    let again := once.performAll [.remove .desk, .append .desk (.saying "y")]
    ServiceParts.solitary.build = .ok solitary ∧
      ServiceParts.solitary.config.summary.config.singleFlight = true ∧
      once.pipeline.underWay scope = 1 ∧ (once.enqueue scope).1 = .skipped .inFlight ∧
      (again.enqueue scope).1 = .enqueued 2 ∧
      (again.enqueue scope).2.pipeline.underWay scope = 2 := by
  intro scope once again
  refine ⟨build_solitary, rfl, ?_, ?_, ?_, ?_⟩
  · decide +kernel
  · decide +kernel
  · decide +kernel
  · decide +kernel

end Service

end Transcript
