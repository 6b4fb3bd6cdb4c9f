import Transcript.Proofs.Pipeline.Steps

/-!
# Jobs in flight

A scope is credited with each of its jobs when the job is made, and debited when it ends or is given
up; the removal of the session takes all credit away at once. So the count of a scope never goes
beyond its jobs that wait or run and those that were lost (`Pipeline.Steps.in_flight_le`), and while
the two agree they go on to agree until the session is removed (`Pipeline.Steps.in_flight_eq`).
-/

namespace Transcript.Pipeline

variable {σ : Type} {setup : Setup} {exclusive : Bool} {first p p' q : Pipeline σ}
  {l m : Ledger} {e : Entry} (scope : Scope)

/-- The number of tracked jobs of a scope that wait or run, or did so when they were lost. -/
def owed (p : Pipeline σ) (l : Ledger) (scope : Scope) : Nat :=
  p.jobs.countP (·.countsFor scope) + l.lost.countP (·.countsFor scope)

namespace Step

/-- A step adds the jobs that arrive and takes off those that are released. -/
theorem owed_eq (h : Step setup exclusive p e p') (hdistinct : p.Distinct) (l : Ledger) :
    p'.owed (l ++ [e]) scope + e.released.countP (·.countsFor scope) =
      p.owed l scope + e.arrived.countP (·.countsFor scope) := by
  have hcount := (h.jobs_perm hdistinct).countP_eq (·.countsFor scope)
  unfold owed
  simp only [Ledger.lost, List.flatMap_append, List.flatMap_singleton,
    List.countP_append] at hcount ⊢
  omega

/-- The same in terms of all jobs of the scope. -/
theorem under_way_eq (h : Step setup exclusive p e p') (hdistinct : p.Distinct) :
    p'.underWay scope + e.released.countP (·.scope = scope) + e.lost.countP (·.scope = scope) =
      p.underWay scope + e.arrived.countP (·.scope = scope) := by
  have hcount := (h.jobs_perm hdistinct).countP_eq (·.scope = scope)
  simp only [List.countP_append] at hcount
  exact hcount

end Step

namespace Steps

/-- The count of a scope does not get ahead of its jobs. -/
theorem in_flight_le (h : Steps setup exclusive first l p) (hdistinct : first.Distinct)
    (hfirst : first.inFlight scope = 0) : p.inFlight scope ≤ p.owed l scope := by
  induction h with
  | start => exact hfirst ▸ Nat.zero_le _
  | next hsteps hstep ih =>
      rename_i l e p p'
      have howed := hstep.owed_eq scope (hsteps.distinct hdistinct) l
      by_cases hremoved : e = .removed scope.session
      · subst hremoved
        rw [hstep.in_flight_removed]
        exact Nat.zero_le _
      · rw [hstep.in_flight_eq hremoved]
        omega

/-- Once they agree, they do so until the session is removed. -/
theorem in_flight_eq (h : Steps setup exclusive q m p) (hdistinct : q.Distinct)
    (hagree : q.inFlight scope = q.owed l scope) (hkept : .removed scope.session ∉ m) :
    p.inFlight scope = p.owed (l ++ m) scope := by
  induction h with
  | start => rwa [List.append_nil]
  | next hsteps hstep ih =>
      rename_i m e p p'
      rw [List.mem_append, List.mem_singleton, not_or] at hkept
      have howed := hstep.owed_eq scope (hsteps.distinct hdistinct) (l ++ m)
      rw [hstep.in_flight_eq (Ne.symm hkept.2), ih hkept.1, ← List.append_assoc]
      omega

variable {store : σ} {pool : Option PoolConfig}

/-- At the very start they agree. -/
theorem in_flight_eq_of_kept (h : Steps setup exclusive (fresh store pool) l p)
    (hkept : .removed scope.session ∉ l) : p.inFlight scope = p.owed l scope := by
  have hagree : (fresh store pool).inFlight scope = (fresh store pool).owed [] scope := by
    cases pool <;> exact in_flight_fresh store _ scope
  exact h.in_flight_eq scope (distinct_fresh store pool) hagree hkept

/-- Jobs that wait or run have arrived. -/
theorem mem_arrived (h : Steps setup exclusive (fresh store pool) l p) {job : Job}
    (hjob : job ∈ p.jobs) : job ∈ l.arrived := by
  have hperm := h.jobs_perm (distinct_fresh store pool)
  have hfresh : (fresh store pool).jobs = [] := by cases pool <;> rfl
  rw [hfresh, List.nil_append, List.append_assoc] at hperm
  exact hperm.subset (List.mem_append_left _ hjob)

/-- While all jobs are tracked, and none is lost, a scope is owed for all of its jobs. -/
theorem owed_eq_under_way (h : Steps setup exclusive (fresh store pool) l p)
    (htracked : ∀ job ∈ l.arrived, job.tracked = true) (htime : l.isInTime = true) :
    p.owed l scope = p.underWay scope := by
  unfold owed underWay
  rw [Ledger.lost_eq_nil htime, List.countP_nil, Nat.add_zero]
  refine List.countP_congr fun job hjob => ?_
  simp [Job.countsFor, htracked job (h.mem_arrived hjob), eq_comm]

/-- How many jobs of a scope wait or run is told by the ledger. -/
theorem under_way_unique (h : Steps setup exclusive first l p)
    (h' : Steps setup exclusive first l p') (hdistinct : first.Distinct) :
    p'.underWay scope = p.underWay scope := by
  have hcount := (h.jobs_perm hdistinct).countP_eq (·.scope = scope)
  have hcount' := (h'.jobs_perm hdistinct).countP_eq (·.scope = scope)
  simp only [List.countP_append] at hcount hcount'
  unfold underWay
  omega

/-! ## One at a time -/

/-- What is in a list is in there for a last time. -/
theorem exists_last_mem {l : Ledger} (he : e ∈ l) :
    ∃ before since, l = before ++ e :: since ∧ e ∉ since := by
  induction l using List.reverseRecOn with
  | nil => cases he
  | append_singleton l last ih =>
      by_cases hlast : e = last
      · exact ⟨l, [], by rw [hlast], List.not_mem_nil⟩
      · have hearlier : e ∈ l := by simpa [hlast] using he
        obtain ⟨before, since, rfl, hsince⟩ := ih hearlier
        exact ⟨before, since ++ [last], by simp, by simpa [hsince] using hlast⟩

/-- If no job of a scope was under way at some moment after each removal of its session, there is
such a moment after which the session is not removed. -/
theorem exists_idle (h : Steps setup exclusive (fresh store pool) l p)
    (hidle : ∀ before since, l = before ++ .removed scope.session :: since →
      ∃ m q, m <+: since ∧
        Steps setup exclusive (fresh store pool) (before ++ .removed scope.session :: m) q ∧
        q.underWay scope = 0) :
    ∃ m rest q, l = m ++ rest ∧ .removed scope.session ∉ rest ∧
      Steps setup exclusive (fresh store pool) m q ∧ Steps setup exclusive q rest p ∧
      q.underWay scope = 0 := by
  by_cases hremoved : .removed scope.session ∈ l
  · obtain ⟨before, since, rfl, hsince⟩ := exists_last_mem hremoved
    obtain ⟨m, q, ⟨rest, rfl⟩, hq, hnone⟩ := hidle before since rfl
    rw [← List.cons_append, ← List.append_assoc] at h ⊢
    obtain ⟨q', hbefore, hafter⟩ := h.exists_split
    refine ⟨_, rest, q', rfl, fun hmem => hsince (List.mem_append_right m hmem),
      hbefore, hafter, ?_⟩
    rw [hq.under_way_unique scope hbefore (distinct_fresh store pool), hnone]
  · refine ⟨[], l, _, rfl, hremoved, .start, h, ?_⟩
    cases pool <;> rfl

/-- A scope that had no jobs at some moment since its session was last removed counts all that it
has had from then on. So if it admits a job that is to be alone, it has none. -/
theorem idle_of_enqueued (h : Steps setup true (fresh store pool) l p)
    (htracked : ∀ job ∈ l.arrived, job.tracked = true) {job : Job} {number : Nat}
    (hstep : Step setup true p (.offered job (.enqueued number)) p') (hjob : job.tracked = true)
    (hidle : ∀ before since, l = before ++ .removed job.scope.session :: since →
      ∃ m q, m <+: since ∧ Steps setup true (fresh store pool)
        (before ++ .removed job.scope.session :: m) q ∧ q.underWay job.scope = 0) :
    p.underWay job.scope = 0 := by
  have hfresh := distinct_fresh store pool
  obtain ⟨-, ⟨open', hpool, hopen, -⟩, hfree⟩ := hstep.of_enqueued
  have htime : l.isInTime = true :=
    h.in_time_or_closing.resolve_right (by simp [isClosing, hpool, hopen])
  obtain ⟨m, rest, q, rfl, hkept, hbefore, hafter, hnone⟩ := h.exists_idle job.scope hidle
  -- At that moment the scope counts no jobs, and so it counts rightly.
  have howed : q.owed m job.scope = 0 := by
    have htracked' : ∀ other ∈ m.arrived, other.tracked = true := fun other hother =>
      htracked other (Ledger.arrived_subset (List.prefix_append m rest) hother)
    rw [hbefore.owed_eq_under_way _ htracked' (Ledger.in_time_of_append htime), hnone]
  have hle := hbefore.in_flight_le job.scope hfresh (in_flight_fresh _ _ _)
  have hagree : q.inFlight job.scope = q.owed m job.scope := by omega
  rw [← h.owed_eq_under_way _ htracked htime,
    ← hafter.in_flight_eq job.scope (hbefore.distinct hfresh) hagree hkept]
  exact hfree hjob rfl

/-- Where this is so whenever the scope gets a job, it never has two. -/
theorem under_way_le_one (h : Steps setup true (fresh store pool) l p)
    (htracked : ∀ job ∈ l.arrived, job.tracked = true) (hforced : ∀ job, .forced job ∉ l)
    (hidle : ∀ before since job number,
      before ++ .removed scope.session :: since ++ [.offered job (.enqueued number)] <+: l →
      job.scope = scope →
      ∃ m q, m <+: since ∧
        Steps setup true (fresh store pool) (before ++ .removed scope.session :: m) q ∧
        q.underWay scope = 0) :
    p.underWay scope ≤ 1 := by
  induction h with
  | start => cases pool <;> exact Nat.zero_le _
  | next hsteps hstep ih =>
      rename_i l e p p'
      have hinitial : l <+: l ++ [e] := List.prefix_append l [e]
      have htracked' : ∀ job ∈ l.arrived, job.tracked = true := fun job hjob =>
        htracked job (Ledger.arrived_subset hinitial hjob)
      have hle := ih htracked' (fun job hjob => hforced job (hinitial.subset hjob))
        fun before since job number hearlier =>
          hidle before since job number (hearlier.trans hinitial)
      have hcount := hstep.under_way_eq scope (hsteps.distinct (distinct_fresh store pool))
      by_cases hnone : e.arrived.countP (·.scope = scope) = 0
      · omega
      · -- Another job of the scope has arrived, and it was let into the queue.
        obtain ⟨job, hjob, hscope⟩ := List.countP_pos_iff.1 (Nat.pos_of_ne_zero hnone)
        rw [decide_eq_true_eq] at hscope
        subst hscope
        rcases Entry.cases_of_arrived hjob with ⟨number, rfl⟩ | rfl
        · have hzero : p.underWay job.scope = 0 := by
            refine hsteps.idle_of_enqueued htracked' hstep (htracked job (by simp)) ?_
            exact fun before since hl => hidle before since job number (hl ▸ List.prefix_rfl) rfl
          simp only [Entry.arrived, List.countP_singleton, decide_true, if_true] at hcount
          omega
        · exact absurd (by simp) (hforced job)

end Steps

end Transcript.Pipeline
