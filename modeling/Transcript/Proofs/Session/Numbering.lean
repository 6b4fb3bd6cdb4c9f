import Transcript.Proofs.Bisection
import Transcript.Proofs.Table
import Transcript.Session.Log

/-!
# The numbers of events

A session that has only been appended to has its events numbered from 1 without gaps. The search for
the events behind a boundary counts on that: `IsNumbered.events_after_eq` says that with such
numbers it finds exactly the events with a number above the boundary, and `Ascending.split` that a
boundary parts a scope in two.
-/

namespace Transcript

/-! ## Rows in the order of their numbers -/

/-- The numbers of a row of events grow. -/
def Ascending (es : List Event) : Prop := es.Pairwise fun a b => a.id < b.id

namespace Ascending

variable {es : List Event}

/-- What is left out does not disturb the order. -/
theorem filter (h : Ascending es) (p : Event → Bool) : Ascending (es.filter p) :=
  List.Pairwise.filter p h

/-- No event occurs twice. -/
theorem nodup (h : Ascending es) : es.Nodup := by
  refine List.Pairwise.imp ?_ h
  intro a b hlt hab
  rw [hab] at hlt
  exact Nat.lt_irrefl _ hlt

/-- A boundary parts the events with numbers up to it from the later ones. -/
theorem split (h : Ascending es) (boundary : Nat) :
    (es.filter (·.id ≤ boundary)) ++ es.filter (boundary < ·.id) = es := by
  induction es with
  | nil => rfl
  | cons e es ih =>
      obtain ⟨hlater, hes⟩ := List.pairwise_cons.1 h
      by_cases he : e.id ≤ boundary
      · have hnot : ¬ boundary < e.id := Nat.not_lt.2 he
        simp only [List.filter_cons, he, hnot, decide_true, decide_false, if_true,
          Bool.false_eq_true, if_false, List.cons_append]
        rw [ih hes]
      · -- Nothing behind `e` can have a number up to the boundary either.
        have hnone : es.filter (·.id ≤ boundary) = [] := by
          rw [List.filter_eq_nil_iff]
          intro x hx
          have := hlater x hx
          simp only [decide_eq_true_eq]
          omega
        have hrest := ih hes
        rw [hnone, List.nil_append] at hrest
        have hlt : boundary < e.id := Nat.lt_of_not_le he
        simp only [List.filter_cons, he, hlt, decide_true, decide_false, if_true,
          Bool.false_eq_true, if_false, hnone, hrest, List.nil_append]

/-- What lies between two boundaries comes right behind what lies before them. -/
theorem filter_le_append (h : Ascending es) {lo hi : Nat} (hle : lo ≤ hi) :
    es.filter (·.id ≤ lo) ++ es.filter (fun e => lo < e.id ∧ e.id ≤ hi) =
      es.filter (·.id ≤ hi) := by
  have hsplit := (h.filter (·.id ≤ hi)).split lo
  rw [List.filter_filter, List.filter_filter] at hsplit
  rw [← hsplit]
  congr 1
  · refine List.filter_congr fun e _ => ?_
    rw [← Bool.decide_and, decide_eq_decide]
    omega
  · refine List.filter_congr fun e _ => ?_
    rw [← Bool.decide_and, decide_eq_decide]

/-- No event has a higher number than the last. -/
theorem id_le_last (h : Ascending es) {last e : Event} (hlast : es.getLast? = some last)
    (he : e ∈ es) : e.id ≤ last.id := by
  obtain ⟨rest, rfl⟩ := List.getLast?_eq_some_iff.1 hlast
  obtain ⟨-, -, hcross⟩ := List.pairwise_append.1 h
  rcases List.mem_append.1 he with hrest | hself
  · exact Nat.le_of_lt (hcross e hrest last (by simp))
  · rw [List.mem_singleton.1 hself]

end Ascending

/-! ## Sessions -/

namespace Session

/-- The events have the numbers from 1 on, without gaps, and the last number is that of the last
event. -/
structure IsNumbered (s : Session) : Prop where
  ids_eq : s.events.map Event.id = List.range' 1 s.events.length
  last_eq : s.lastId = s.events.length

namespace IsNumbered

variable {s : Session}

/-- A session without events is numbered. -/
theorem empty : IsNumbered {} := ⟨rfl, rfl⟩

/-- A new event gets the number that is due. -/
theorem append (h : s.IsNumbered) (e : Event) : (s.append e).IsNumbered := by
  obtain ⟨hids, hlast⟩ := h
  refine ⟨?_, ?_⟩
  · show (s.events ++ [_]).map Event.id = List.range' 1 (s.events ++ [_]).length
    rw [List.map_append, hids, List.length_append, List.length_singleton, List.range'_1_concat]
    simp [hlast, Nat.add_comm]
  · show s.lastId + 1 = (s.events ++ [_]).length
    rw [List.length_append, List.length_singleton, hlast]

/-- The number of an event is by one higher than its position. -/
theorem id_get (h : s.IsNumbered) {i : Nat} {e : Event} (he : s.events[i]? = some e) :
    e.id = i + 1 := by
  have hi : i < s.events.length := (List.getElem?_eq_some_iff.1 he).1
  have hmap : (s.events.map Event.id)[i]? = some e.id := by
    rw [List.getElem?_map, he]
    rfl
  rw [h.ids_eq, List.getElem?_range' hi] at hmap
  have := Option.some.inj hmap
  omega

/-- Numbers lie between 1 and the number of events. -/
theorem id_bounds (h : s.IsNumbered) {e : Event} (he : e ∈ s.events) :
    0 < e.id ∧ e.id ≤ s.events.length := by
  have hid : e.id ∈ List.range' 1 s.events.length := h.ids_eq ▸ List.mem_map_of_mem he
  rw [List.mem_range'_1] at hid
  omega

/-- Numbers grow with positions. -/
theorem ascending (h : s.IsNumbered) : Ascending s.events := by
  have hids : (s.events.map Event.id).Pairwise (· < ·) := by
    rw [h.ids_eq]
    exact List.pairwise_lt_range'
  exact List.pairwise_map.1 hids

/-- The search stops behind as many events as the boundary says. -/
theorem position_after_eq (h : s.IsNumbered) (boundary : Nat) :
    s.positionAfter boundary = min boundary s.events.length := by
  have hid : ∀ i, i < s.events.length → s.idAt i = i + 1 := by
    intro i hi
    unfold idAt
    rw [List.getElem?_eq_getElem hi]
    exact h.id_get (List.getElem?_eq_getElem hi)
  refine first_true_eq (Nat.zero_le _) (Nat.min_le_right _ _) ?_ ?_
  · intro i _ hlt
    rw [hid i (by omega), decide_eq_false_iff_not]
    omega
  · intro i hle hlt
    rw [hid i hlt, decide_eq_true_eq]
    omega

/-- What the search leaves are the events with numbers above the boundary. -/
theorem drop_position_after (h : s.IsNumbered) (boundary : Nat) :
    s.events.drop (s.positionAfter boundary) = s.events.filter (boundary < ·.id) := by
  -- The numbers in front of the position are not above the boundary, and those behind it are.
  rw [h.position_after_eq]
  generalize hk : min boundary s.events.length = k
  have hbefore : (s.events.take k).filter (boundary < ·.id) = [] := by
    rw [List.filter_eq_nil_iff]
    intro e he
    obtain ⟨i, hi, rfl⟩ := List.mem_take_iff_getElem.1 he
    rw [h.id_get (List.getElem?_eq_getElem _), decide_eq_true_eq]
    omega
  have hbehind : (s.events.drop k).filter (boundary < ·.id) = s.events.drop k := by
    rw [List.filter_eq_self]
    intro e he
    obtain ⟨i, hi, rfl⟩ := List.mem_drop_iff_getElem.1 he
    rw [h.id_get (List.getElem?_eq_getElem _), decide_eq_true_eq]
    omega
  calc s.events.drop k
      = (s.events.take k).filter (boundary < ·.id) ++
          (s.events.drop k).filter (boundary < ·.id) := by
        rw [hbefore, hbehind, List.nil_append]
    _ = s.events.filter (boundary < ·.id) := by
        rw [← List.filter_append, List.take_append_drop]

end IsNumbered

end Session

/-! ## Logs -/

namespace SessionLog

/-- All sessions have their events numbered. -/
def IsNumbered (log : SessionLog) : Prop := ∀ key, (log.session key).IsNumbered

/-- The events of a scope. -/
def inScope (log : SessionLog) (scope : Scope) : List Event :=
  (log.events scope.session).filter (·.isWithin scope.filter)

/-- If there are events behind a boundary, the last of them is the last event of the scope. -/
theorem last_in_scope_of_events_after {log : SessionLog} {scope : Scope} {boundary : Option Nat}
    {last : Event}
    (hlast : (log.eventsAfter scope.session scope.filter boundary).getLast? = some last) :
    (log.inScope scope).getLast? = some last := by
  unfold eventsAfter Session.eventsAfter at hlast
  unfold inScope events
  rw [← List.take_append_drop ((log.session scope.session).positionAfter (boundary.getD 0))
    (log.session scope.session).events, List.filter_append, List.getLast?_append, hlast,
    Option.some_or]

/-- A session that is appended to has one more event, and the others stay as they are. -/
theorem session_append (log : SessionLog) (key other : SessionKey) (e : Event) :
    (log.append key e).session other =
      if other = key then (log.session key).append e else log.session other := by
  show (((log.sessions.insert key _).find? other).getD {}) = _
  rw [Table.find_insert]
  split <;> rfl

/-- A session that is removed has no events, and the others stay as they are. -/
theorem session_remove (log : SessionLog) (key other : SessionKey) :
    (log.remove key).session other = if other = key then {} else log.session other := by
  show (((log.sessions.erase key).find? other).getD {}) = _
  rw [Table.find_erase]
  split <;> rfl

/-- In an append the scopes of the session may get the new event, and no other scope changes. -/
theorem in_scope_append (log : SessionLog) (key : SessionKey) (e : Event) (scope : Scope) :
    (log.append key e).inScope scope = log.inScope scope ++
      if scope.session = key ∧ e.isWithin scope.filter then [{ e with id := log.nextId key }]
      else [] := by
  unfold inScope events
  rw [session_append]
  by_cases hkey : scope.session = key
  · subst hkey
    by_cases he : e.isWithin scope.filter = true
    · have hnew : Event.isWithin { e with id := (log.session scope.session).lastId + 1 }
          scope.filter = true := he
      simp [Session.append, hnew, he, nextId]
    · have hnew : ¬ Event.isWithin { e with id := (log.session scope.session).lastId + 1 }
          scope.filter = true := he
      simp [Session.append, hnew, he]
  · simp [hkey]

/-- A new event has the number that is due, so what was below that number stays the same. -/
theorem filter_in_scope_append (log : SessionLog) (key : SessionKey) (e : Event) (scope : Scope)
    {p : Event → Bool} (hp : ∀ x, p x = true → x.id < log.nextId scope.session) :
    ((log.append key e).inScope scope).filter p = (log.inScope scope).filter p := by
  rw [in_scope_append, List.filter_append]
  have hnew : (if scope.session = key ∧ e.isWithin scope.filter then
      [{ e with id := log.nextId key }] else []).filter p = [] := by
    split
    · rename_i hkey
      rw [List.filter_eq_nil_iff]
      intro x hx hpx
      have hlt := hp x hpx
      rw [List.mem_singleton.1 hx, hkey.1] at hlt
      exact Nat.lt_irrefl _ hlt
    · rfl
  rw [hnew, List.append_nil]

/-- The number that is due does not go back when an event comes in. -/
theorem next_id_le_append (log : SessionLog) (key other : SessionKey) (e : Event) :
    log.nextId other ≤ (log.append key e).nextId other := by
  unfold nextId
  rw [session_append]
  split
  · rename_i hkey
    subst hkey
    simp [Session.append]
  · exact Nat.le_refl _

/-- In a removal the scopes of the session lose their events, and no other scope changes. -/
theorem in_scope_remove (log : SessionLog) (key : SessionKey) (scope : Scope) :
    (log.remove key).inScope scope = if scope.session = key then [] else log.inScope scope := by
  unfold inScope events
  rw [session_remove]
  split <;> rfl

/-- A log without sessions is numbered. -/
theorem is_numbered_empty : IsNumbered {} := fun _ => .empty

namespace IsNumbered

variable {log : SessionLog}

/-- Appends keep the numbering. -/
theorem append (h : log.IsNumbered) (key : SessionKey) (e : Event) :
    (log.append key e).IsNumbered := by
  intro other
  rw [session_append]
  split
  · exact (h key).append e
  · exact h other

/-- Removals keep the numbering, which starts anew in the session. -/
theorem remove (h : log.IsNumbered) (key : SessionKey) : (log.remove key).IsNumbered := by
  intro other
  rw [session_remove]
  split
  · exact .empty
  · exact h other

/-- The events of a scope come in the order of their numbers. -/
theorem in_scope_ascending (h : log.IsNumbered) (scope : Scope) : Ascending (log.inScope scope) :=
  (h scope.session).ascending.filter _

/-- The number of an event is below the one that is due next. -/
theorem id_lt_next (h : log.IsNumbered) {scope : Scope} {e : Event} (he : e ∈ log.inScope scope) :
    0 < e.id ∧ e.id < log.nextId scope.session := by
  obtain ⟨hpos, hle⟩ := (h scope.session).id_bounds (List.mem_filter.1 he).1
  exact ⟨hpos, Nat.lt_succ_of_le ((h scope.session).last_eq ▸ hle)⟩

/-- The events behind a boundary are those of the scope with numbers above it. -/
theorem events_after_eq (h : log.IsNumbered) (scope : Scope) (boundary : Option Nat) :
    log.eventsAfter scope.session scope.filter boundary =
      (log.inScope scope).filter (boundary.getD 0 < ·.id) := by
  unfold eventsAfter Session.eventsAfter inScope events
  rw [(h scope.session).drop_position_after, List.filter_filter, List.filter_filter]
  simp only [Bool.and_comm]

end IsNumbered

end SessionLog

end Transcript
