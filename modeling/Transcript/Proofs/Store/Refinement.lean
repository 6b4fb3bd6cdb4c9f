import Transcript.Proofs.Store.Keeping

/-!
# The store of files does what the store in memory does

As long as the paths of a scope are not too long for the system, a store of files in a fresh
directory answers the calls for the scope as the store in memory does, whatever else is called for
other scopes (`FileStore.refines_memory`). The tree of files is followed through the calls by
`FileStore.Keeps`, with the summaries that were stored so far. Two scopes must not have the same
path, and a summary must be one that can be written. Where a path is too long, a call is refused and
has no effect.
-/

namespace Transcript.FileStore

open FileTree StoreCall

variable {s s' : FileStore} {scope : Scope} {summary : Summary} {entries : List (Scope × Summary)}
  {drafts : Nat}

/-! ## Paths that are not too long -/

/-- The paths of a scope are not too long: neither that of its summary nor those of its first
drafts. -/
def Fits (s : FileStore) (drafts : Nat) (scope : Scope) : Prop :=
  FitsPath (s.summaryPath scope) ∧
    ∀ n < drafts, FitsPath (s.directory scope.session ++ [draftName n])

instance (s : FileStore) (drafts : Nat) (scope : Scope) : Decidable (s.Fits drafts scope) :=
  inferInstanceAs (Decidable (_ ∧ _))

/-- Whether paths fit is a matter of the root alone. -/
theorem Fits.congr (h : s.Fits drafts scope) (hroot : s'.root = s.root) : s'.Fits drafts scope := by
  unfold Fits summaryPath directory at h ⊢
  rwa [hroot]

/-- A file is replaced if its directory is there and neither name in it is too long or that of a
directory. -/
theorem replace_eq_ok {dir : Path} {draft name : String} (hrooted : s.tree.IsRooted)
    (hdir : s.tree.node? dir = some .directory) (hdraft : FitsPath (dir ++ [draft]))
    (hname : FitsPath (dir ++ [name])) (hfree : s.tree.node? (dir ++ [draft]) ≠ some .directory)
    (hfile : s.tree.node? (dir ++ [name]) ≠ some .directory) (text : String) :
    (s.replace (dir ++ [draft]) (dir ++ [name]) text).1 = .ok () := by
  have hne : dir ++ [draft] ≠ [] := by simp
  have hwrite := write_eq (hrooted.obstacle_eq_none hdir hdraft) hfree (bytesOfText text)
  -- The draft changes nothing about the directory.
  have hwritten : (s.tree.put (dir ++ [draft]) (.file (bytesOfText text))).IsRooted :=
    hrooted.put hdir (.inr hfree)
  have hdir' : (s.tree.put (dir ++ [draft]) (.file (bytesOfText text))).node? dir =
      some .directory := by
    rw [node_put hne, if_neg (by simp), hdir]
  have hbytes : (s.tree.put (dir ++ [draft]) (.file (bytesOfText text))).node? (dir ++ [draft]) =
      some (.file (bytesOfText text)) := by
    rw [node_put hne, if_pos rfl]
  have hplace : (s.tree.put (dir ++ [draft]) (.file (bytesOfText text))).node? (dir ++ [name]) ≠
      some .directory := by
    rw [node_put hne]
    split
    · simp
    · exact hfile
  have hrename := rename_eq (hwritten.obstacle_eq_none hdir' hdraft) hbytes
    (hwritten.obstacle_eq_none hdir' hname) hplace
  unfold replace
  rw [hwrite]
  dsimp only
  rw [hrename]

/-- A summary is stored if the paths of its scope are not too long. -/
theorem Keeps.store_eq_ok (h : s.Keeps entries) (hfits : s.Fits drafts scope)
    (hdraft : s.nextDraft < drafts) (summary : Summary) : (s.store scope summary).1 = .ok () := by
  obtain ⟨hpath, hdrafts⟩ := hfits
  have hsummary : s.summaryPath scope = s.directory scope.session ++ [fileName scope.filter] :=
    (List.append_assoc ..).symm
  have hmade : (s.tree.makeDirectory (s.directory scope.session)).1 = .ok () ∧
      (s.tree.makeDirectory (s.directory scope.session)).2.node? (s.directory scope.session) =
        some .directory := by
    refine make_directory_ok (FitsPath.of_append (hsummary ▸ hpath)) fun dir hdir => ?_
    have hle := hdir.length_le
    rw [length_directory] at hle
    have hway : dir <+: s.summaryPath scope := hdir.trans (hsummary ▸ List.prefix_append _ _)
    exact h.node_on_way hway (by omega)
  obtain ⟨hadds, hrooted⟩ := make_directory_spec s.tree (s.directory scope.session)
  -- The directories that have come are none of the two places.
  have hgrown (place : Path) (hplace : s.tree.node? place ≠ some .directory)
      (hlength : place.length = s.root.length + 4) :
      (s.tree.makeDirectory (s.directory scope.session)).2.node? place ≠ some .directory := by
    rcases hadds place with hsame | ⟨hinitial, -, -⟩
    · rwa [hsame]
    · exact absurd hinitial (not_prefix_directory hlength scope.session)
  have hnone : s.tree.node? (s.draftPath scope) = none := h.node_draft scope.session s.nextDraft
  have hfree := hgrown (s.draftPath scope) (by simp [hnone])
    (s.length_draft_path scope.session s.nextDraft)
  have hfile := hgrown _ (h.node_ne_directory scope) (s.length_summary_path scope)
  unfold FileStore.store
  dsimp only
  split
  · rename_i f tree hfailed
    rw [hfailed] at hmade
    cases hmade.1
  · rename_i tree hdone
    rw [hdone] at hmade hrooted hfree hfile
    rw [hsummary] at hfile hpath ⊢
    exact replace_eq_ok (hrooted h.rooted) hmade.2 (hdrafts s.nextDraft hdraft) hpath hfree hfile _

/-! ## Calls -/

/-- The top directory is not there yet, or it is empty, and no file is on the way to it. -/
structure IsFresh (s : FileStore) : Prop where
  rooted : s.tree.IsRooted
  way : ∀ dir, dir <+: s.root → ∀ bytes, s.tree.node? dir ≠ some (.file bytes)
  empty : ∀ names, names ≠ [] → s.tree.node? (s.root ++ names) = none

/-- So it is in a machine without any files. -/
theorem is_fresh_empty (root : Path) (drafts : Nat) : IsFresh ⟨root, {}, drafts⟩ := by
  have hnone {path : Path} (hpath : path ≠ []) : ({} : FileTree).node? path = none := if_neg hpath
  refine ⟨is_rooted_empty, fun dir _ bytes => ?_, fun names hne => ?_⟩
  · by_cases hdir : dir = []
    · subst hdir
      simp
    · show ({} : FileTree).node? dir ≠ _
      rw [hnone hdir]
      simp
  · exact hnone fun hnil => hne (List.append_eq_nil_iff.1 hnil).2

/-- A fresh store keeps nothing. -/
theorem IsFresh.keeps (h : s.IsFresh) : s.Keeps [] where
  rooted := h.rooted
  way := h.way
  shallow names hnode := by
    by_cases hne : names = []
    · subst hne
      exact Nat.zero_le 3
    · rw [h.empty names hne] at hnode
      cases hnode
  files names hne bytes := by
    rw [h.empty names hne]
    exact iff_of_false (fun hnone => nomatch hnone) (fun hnone => nomatch hnone)

/-- A call leaves the root alone. -/
theorem root_after (s : FileStore) (call : StoreCall) : (call.after s).root = s.root := by
  cases call with
  | load scope => rfl
  | store scope summary => exact (s.store_spec scope summary).1

/-- So do calls. -/
theorem root_after_all (s : FileStore) (calls : List StoreCall) :
    (afterAll s calls).root = s.root := by
  induction calls generalizing s with
  | nil => rfl
  | cons call calls ih => exact (ih (call.after s)).trans (s.root_after call)

/-- To replace a file takes up no further draft. -/
theorem next_draft_replace (s : FileStore) (draft path : Path) (text : String) :
    (s.replace draft path text).2.nextDraft = s.nextDraft := by
  unfold replace
  split
  · rfl
  · split <;> rfl

/-- A call takes at most one number of a draft. -/
theorem next_draft_after (s : FileStore) (call : StoreCall) :
    (call.after s).nextDraft ≤ s.nextDraft + 1 := by
  cases call with
  | load scope => exact Nat.le_succ _
  | store scope summary =>
      show (s.store scope summary).2.nextDraft ≤ _
      unfold FileStore.store
      dsimp only
      split
      · exact Nat.le_succ _
      · exact Nat.le_of_eq (next_draft_replace ..)

/-- Each call takes up one draft at most. -/
theorem next_draft_after_all (s : FileStore) (calls : List StoreCall) :
    (afterAll s calls).nextDraft ≤ s.nextDraft + calls.length := by
  induction calls generalizing s with
  | nil => exact Nat.le_refl _
  | cons call calls ih =>
      have hcall := s.next_draft_after call
      have hcalls : (afterAll s (call :: calls)).nextDraft ≤ _ := ih (call.after s)
      rw [List.length_cons]
      omega

/-- A call keeps the files those of the summaries that were stored. -/
theorem Keeps.after (h : s.Keeps entries) (call : StoreCall) :
    (call.after s).Keeps (entries ++ call.kept s) := by
  cases call with
  | load scope => rwa [kept, List.append_nil]
  | store scope summary => exact h.store scope summary

/-- After calls the store keeps what they have stored. -/
theorem Keeps.after_all (h : s.Keeps entries) (calls : List StoreCall) :
    (afterAll s calls).Keeps (entries ++ keptAll s calls) := by
  induction calls generalizing s entries with
  | nil => rwa [keptAll, List.append_nil]
  | cons call calls ih =>
      rw [keptAll, ← List.append_assoc]
      exact ih (h.after call)

/-- What is stored last for a scope is the same as in memory, if the paths of the scope are not too
long. -/
theorem Keeps.last_for_eq (h : s.Keeps entries) (hfits : s.Fits drafts scope)
    (calls : List StoreCall) (hdrafts : s.nextDraft + calls.length ≤ drafts) (m : MemoryStore) :
    lastFor scope (keptAll s calls) = lastFor scope (keptAll m calls) := by
  induction calls generalizing s entries m with
  | nil => rfl
  | cons call calls ih =>
      rw [List.length_cons] at hdrafts
      -- A call for another scope may be refused here and not in memory, but it does not count.
      have hcall : lastFor scope (call.kept s) = lastFor scope (call.kept m) := by
        cases call with
        | load other => rfl
        | store other summary =>
            by_cases hother : other = scope
            · subst hother
              rw [kept_ok (h.store_eq_ok hfits (by omega) summary)]
              rfl
            · have hnone {σ : Type} [SummaryStore σ] (t : σ) :
                  lastFor scope ((StoreCall.store other summary).kept t) = none := by
                refine last_where_eq_none_iff.2 fun entry hentry => decide_eq_false ?_
                have hsame : other = entry.1 := congrArg StoreCall.scope (mem_kept hentry)
                exact hsame ▸ hother
              rw [hnone s, hnone m]
      have hdraft := s.next_draft_after call
      rw [keptAll, keptAll, last_for_append, last_for_append, hcall]
      congr 1
      exact ih (h.after call) (hfits.congr (s.root_after call)) (by omega) (call.after m)

/-! ## Refinement -/

/-- No two of the scopes that are called have the same path. -/
def Separates (s : FileStore) (calls : List StoreCall) : Prop :=
  ∀ a ∈ calls, ∀ b ∈ calls, s.summaryPath a.scope = s.summaryPath b.scope → a.scope = b.scope

instance (s : FileStore) (calls : List StoreCall) : Decidable (s.Separates calls) :=
  inferInstanceAs (Decidable (∀ _ ∈ _, _))

/-- The summaries that are to be stored can be written. -/
def AreRepresentable (calls : List StoreCall) : Prop :=
  ∀ scope summary, StoreCall.store scope summary ∈ calls → summary.IsRepresentable

section

variable {earlier calls : List StoreCall} {call : StoreCall}

/-- What is stored last at the path of a scope is what is stored last for the scope. -/
theorem last_at_eq_last_for (hseparate : s.Separates calls) (hearlier : earlier ⊆ calls)
    (hcall : call ∈ calls) :
    lastAt (scopePath call.scope) (keptAll s earlier) = lastFor call.scope (keptAll s earlier) := by
  refine last_where_congr fun entry hentry => decide_eq_decide.2 ⟨fun hpath => ?_, fun h => h ▸ rfl⟩
  have hstored : StoreCall.store entry.1 entry.2 ∈ calls := hearlier (mem_kept_all hentry)
  exact hseparate _ hstored _ hcall (congrArg (s.root ++ ·) hpath)

/-- What was stored last for a scope is loaded, unless its path is too long. -/
theorem load_after_all (hfresh : s.IsFresh) (hseparate : s.Separates calls)
    (hwritten : AreRepresentable calls) (hearlier : earlier ⊆ calls) (hcall : call ∈ calls) :
    (afterAll s earlier).load call.scope = .ok (lastFor call.scope (keptAll s earlier)) ∨
      (afterAll s earlier).load call.scope =
          .error (failure "read" (s.summaryPath call.scope) .nameTooLong) ∧
        ¬ FitsPath (s.summaryPath call.scope) := by
  have hpath : (afterAll s earlier).summaryPath call.scope = s.summaryPath call.scope := by
    rw [summaryPath, root_after_all, summaryPath]
  have hkept : ∀ entry ∈ keptAll s earlier, entry.2.IsRepresentable := fun entry hentry =>
    hwritten entry.1 entry.2 (hearlier (mem_kept_all hentry))
  have hload := (hfresh.keeps.after_all earlier).load hkept call.scope
  rw [List.nil_append, hpath, last_at_eq_last_for hseparate hearlier hcall] at hload
  exact hload

/-- A call is answered as in memory if the paths of its scope are not too long. -/
theorem answer_eq_memory (hfresh : s.IsFresh) (hseparate : s.Separates calls)
    (hwritten : AreRepresentable calls) (hearlier : earlier ⊆ calls) (hcall : call ∈ calls)
    (hfits : s.Fits drafts call.scope) (hdrafts : s.nextDraft + earlier.length < drafts) :
    call.answer (afterAll s earlier) = call.answer (afterAll ({} : MemoryStore) earlier) := by
  have hload := load_after_all hfresh hseparate hwritten hearlier hcall
  cases call with
  | load scope =>
      have hsame := hfresh.keeps.last_for_eq hfits earlier (Nat.le_of_lt hdrafts) ({} : MemoryStore)
      have hfound := hload.resolve_right fun hlong => hlong.2 hfits.1
      rw [hsame] at hfound
      show StoreCall.Answer.loaded ((afterAll s earlier).load scope) =
        .loaded (SummaryStore.load (afterAll ({} : MemoryStore) earlier) scope)
      rw [MemoryStore.load_after_calls]
      exact congrArg _ hfound
  | store scope summary =>
      have hdraft := s.next_draft_after_all earlier
      have hdone :=
        (hfresh.keeps.after_all earlier).store_eq_ok (hfits.congr (s.root_after_all earlier))
          (by omega) summary
      exact congrArg StoreCall.Answer.stored hdone

end

/-- A store of files in a fresh directory does what the store in memory does. Take any sequence of
calls for scopes with different paths. A call for a scope whose paths are not too long is answered
as in memory. For any scope, what was stored last is loaded, or else a path that is too long is
reported. And after every call, the files below the top directory are those of the summaries that
were stored, and no draft is left. -/
theorem refines_memory (hfresh : s.IsFresh) {calls : List StoreCall} (hseparate : s.Separates calls)
    (hwritten : AreRepresentable calls) {earlier later : List StoreCall} {call : StoreCall}
    (hcalls : calls = earlier ++ call :: later) :
    (s.Fits (s.nextDraft + calls.length) call.scope →
        call.answer (afterAll s earlier) = call.answer (afterAll ({} : MemoryStore) earlier)) ∧
      (∀ scope, call = .load scope →
        call.answer (afterAll s earlier) = .loaded (.ok (lastFor scope (keptAll s earlier))) ∨
          ¬ FitsPath (s.summaryPath scope) ∧ call.answer (afterAll s earlier) =
            .loaded (.error (failure "read" (s.summaryPath scope) .nameTooLong))) ∧
      (∀ names, names ≠ [] →
        ((∃ bytes,
          (afterAll s (earlier ++ [call])).tree.node? (s.root ++ names) = some (.file bytes)) ↔
          ∃ entry ∈ keptAll s (earlier ++ [call]), names = scopePath entry.1)) ∧
      ∀ session n,
        (afterAll s (earlier ++ [call])).tree.node?
          (s.directory session ++ [draftName n]) = none := by
  have hearlier : earlier ⊆ calls := hcalls ▸ List.subset_append_left _ _
  have hcall : call ∈ calls := hcalls ▸ List.mem_append_right _ List.mem_cons_self
  have hkeeps := hfresh.keeps.after_all (earlier ++ [call])
  rw [List.nil_append] at hkeeps
  have hroot := s.root_after_all (earlier ++ [call])
  refine ⟨fun hfits => ?_, ?_, fun names hne => ?_, fun session n => ?_⟩
  · have hlength := congrArg List.length hcalls
    rw [List.length_append, List.length_cons] at hlength
    exact answer_eq_memory hfresh hseparate hwritten hearlier hcall hfits (by omega)
  · rintro scope rfl
    rcases load_after_all hfresh hseparate hwritten hearlier hcall with hfound | ⟨herror, hlong⟩
    · exact .inl (congrArg StoreCall.Answer.loaded hfound)
    · exact .inr ⟨hlong, congrArg StoreCall.Answer.loaded herror⟩
  · have hfiles := hkeeps.exists_file_iff hne
    rwa [hroot] at hfiles
  · have hdraft := hkeeps.node_draft session n
    rwa [directory, hroot] at hdraft

/-- Two branches of a session keep their summaries in files of their own. -/
theorem refines_memory_two_branches :
    let s : FileStore := { root := ["r"] }
    let whole : Scope := .whole ⟨"app", "u", "s"⟩
    let branch : Scope := ⟨⟨"app", "u", "s"⟩, "planner"⟩
    let all : Summary := ⟨"all", 4, ⟨0, 0⟩, {}⟩
    let plans : Summary := ⟨"plans", 3, ⟨0, 0⟩, {}⟩
    let earlier : List StoreCall := [.store whole all, .store branch plans]
    let calls : List StoreCall := earlier ++ [.load whole]
    s.IsFresh ∧ s.Separates calls ∧ AreRepresentable calls ∧
      s.Fits (s.nextDraft + calls.length) whole ∧
      (StoreCall.load whole).answer (afterAll s earlier) = .loaded (.ok (some all)) := by
  intro s whole branch all plans earlier calls
  have hfresh : s.IsFresh := is_fresh_empty ["r"] 0
  have hseparate : s.Separates calls := by decide +kernel
  have hwritten : AreRepresentable calls := by
    intro scope summary hmem
    simp only [calls, earlier, List.cons_append, List.nil_append, List.mem_cons, List.not_mem_nil,
      StoreCall.store.injEq, reduceCtorEq, or_false] at hmem
    rcases hmem with ⟨-, rfl⟩ | ⟨-, rfl⟩
    · exact Summary.is_representable_at_epoch "all" (by decide)
    · exact Summary.is_representable_at_epoch "plans" (by decide)
  have hfits : s.Fits (s.nextDraft + calls.length) whole := by decide +kernel
  have hsame := (refines_memory hfresh hseparate hwritten rfl).1 hfits
  exact ⟨hfresh, hseparate, hwritten, hfits, hsame.trans (by rfl)⟩

/-- A branch whose file would have a name of 256 bytes keeps no summary. -/
theorem long_name_is_refused :
    let s : FileStore := { root := ["r"] }
    let long : Scope := ⟨⟨"app", "u", "s"⟩, String.ofList (List.replicate 251 'a')⟩
    let summary : Summary := ⟨"text", 1, ⟨0, 0⟩, {}⟩
    s.IsFresh ∧ s.Separates [.store long summary] ∧ summary.IsRepresentable ∧
      (StoreCall.store long summary).answer s =
        .stored (.error (failure "replace" (s.summaryPath long) .nameTooLong)) ∧
      (StoreCall.store long summary).answer ({} : MemoryStore) = .stored (.ok ()) := by
  intro s long summary
  have hrefused : (s.store long summary).1 =
      .error (failure "replace" (s.summaryPath long) .nameTooLong) := by
    decide +kernel
  have hseparate : s.Separates [.store long summary] := by
    intro a ha b hb _
    rw [List.mem_singleton.1 ha, List.mem_singleton.1 hb]
  exact ⟨is_fresh_empty ["r"] 0, hseparate, Summary.is_representable_at_epoch "text" (by decide),
    congrArg _ hrefused, rfl⟩

end Transcript.FileStore
