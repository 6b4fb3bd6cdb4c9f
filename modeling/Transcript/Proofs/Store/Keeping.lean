import Transcript.Proofs.Store.Calls
import Transcript.Proofs.Store.File

/-!
# Files that keep what was stored

While summaries are stored, the files below the top directory are those of the summaries that were
stored last (`FileStore.Keeps`). To store another one keeps it so, whether it succeeds or not
(`FileStore.Keeps.store`): the draft is gone in either case, and the directories that may have come
are in no one's way. What is loaded is then what was stored last, unless the path is too long
(`FileStore.Keeps.load`).
-/

namespace Transcript.FileStore

open FileTree StoreCall

variable {s : FileStore} {scope : Scope} {summary : Summary} {entries : List (Scope × Summary)}

/-! ## What storing does to its two places -/

section

variable {draft path : Path} {text : String}

/-- A draft that has taken its place is at the place of the file and no longer at its own. -/
theorem replace_ok (hne : draft ≠ path) (h : (s.replace draft path text).1 = .ok ()) :
    (s.replace draft path text).2.tree.node? path = some (.file (bytesOfText text)) ∧
      (s.replace draft path text).2.tree.node? draft = none := by
  unfold replace at h ⊢
  split at h
  · cases h
  · rename_i written hwrite
    obtain ⟨rfl, hdraft, -, -⟩ := write_ok hwrite
    split at h
    · rename_i renamed hrename
      obtain ⟨bytes, moved, hfile, hmoved, rfl⟩ := rename_ok hrename
      obtain ⟨rfl, hpath, -, -⟩ := write_ok hmoved
      rw [node_put hdraft, if_pos rfl] at hfile
      cases hfile
      refine ⟨?_, ?_⟩
      · rw [node_remove hdraft, if_neg hne.symm, node_put hpath, if_pos rfl]
      · rw [node_remove hdraft, if_pos rfl]
    · cases h

/-- If it has not, the file is as before, and so is the place of the draft, but for a file that was
there and is gone. -/
theorem replace_error (hne : draft ≠ path) {f : Failure}
    (h : (s.replace draft path text).1 = .error f) :
    (s.replace draft path text).2.tree.node? path = s.tree.node? path ∧
      ((s.replace draft path text).2.tree.node? draft = s.tree.node? draft ∨
        s.tree.node? draft ≠ some .directory ∧
          (s.replace draft path text).2.tree.node? draft = none) := by
  unfold replace at h ⊢
  split at h
  · rename_i g hwrite
    exact ⟨rfl, .inl rfl⟩
  · rename_i written hwrite
    obtain ⟨rfl, hdraft, hnode, -⟩ := write_ok hwrite
    split at h
    · cases h
    · rename_i g hrename
      refine ⟨?_, .inr ⟨hnode, ?_⟩⟩
      · rw [node_remove hdraft, if_neg hne.symm, node_put hdraft, if_neg hne.symm]
      · rw [node_remove hdraft, if_pos rfl]

end

/-- The file of a summary. -/
def fileOf (summary : Summary) : FileNode := .file (bytesOfText summary.encode.pretty)

/-- A summary that was stored is at its place, and its draft is gone. -/
theorem store_ok (h : (s.store scope summary).1 = .ok ()) :
    (s.store scope summary).2.tree.node? (s.summaryPath scope) = some (fileOf summary) ∧
      (s.store scope summary).2.tree.node? (s.draftPath scope) = none := by
  unfold store at h ⊢
  dsimp only at h ⊢
  split at h
  · cases h
  · rename_i tree hmade
    exact replace_ok (s.draft_path_ne scope scope) h

/-- If one was not stored, the two places are as before, but for a file that was in the place of the
draft and is gone. -/
theorem store_error {f : Failure} (h : (s.store scope summary).1 = .error f) :
    (s.store scope summary).2.tree.node? (s.summaryPath scope) =
      s.tree.node? (s.summaryPath scope) ∧
      ((s.store scope summary).2.tree.node? (s.draftPath scope) = s.tree.node? (s.draftPath scope) ∨
        s.tree.node? (s.draftPath scope) ≠ some .directory ∧
          (s.store scope summary).2.tree.node? (s.draftPath scope) = none) := by
  -- The directories that may come are too far up to be one of the two places.
  have hlong (place : Path) (hplace : place.length = s.root.length + 4) :
      (s.tree.makeDirectory (s.directory scope.session)).2.node? place = s.tree.node? place :=
    (make_directory_spec s.tree _ |>.1 place).resolve_right fun ⟨hinitial, _⟩ =>
      not_prefix_directory hplace scope.session hinitial
  have hpath := hlong (s.summaryPath scope) (s.length_summary_path scope)
  have hdraft := hlong (s.draftPath scope) (s.length_draft_path scope.session s.nextDraft)
  unfold store at h ⊢
  dsimp only at h ⊢
  split at h
  · rename_i g tree hmade
    rw [hmade] at hpath hdraft
    exact ⟨hpath, .inl hdraft⟩
  · rename_i tree hmade
    rw [hmade] at hpath hdraft
    have hreplace := replace_error (s.draft_path_ne scope scope) h
    rwa [hpath, hdraft] at hreplace

/-! ## What is kept -/

/-- The last summary that was stored at a path below the top directory. -/
def lastAt (names : Path) (entries : List (Scope × Summary)) : Option Summary :=
  lastWhere (fun scope => scopePath scope = names) entries

/-- A summary that was stored is the last at its path. -/
theorem last_at_append (names : Path) (entries : List (Scope × Summary)) (scope : Scope)
    (summary : Summary) :
    lastAt names (entries ++ [(scope, summary)]) =
      if scopePath scope = names then some summary else lastAt names entries := by
  rw [lastAt, last_where_append]
  by_cases h : scopePath scope = names
  · simp [lastWhere, h]
  · simp [lastWhere, h, lastAt]

/-- Summaries are kept at the paths of scopes only. -/
theorem exists_of_last_at {names : Path} (h : lastAt names entries = some summary) :
    ∃ scope, (scope, summary) ∈ entries ∧ scopePath scope = names := by
  obtain ⟨scope, hmem, hpath⟩ := exists_of_last_where h
  exact ⟨scope, hmem, of_decide_eq_true hpath⟩

/-- Nothing is kept at a path that no scope has. -/
theorem last_at_eq_none {names : Path} (h : ∀ scope, scopePath scope ≠ names) :
    lastAt names entries = none :=
  last_where_eq_none_iff.2 fun _ _ => decide_eq_false (h _)

/-- The files below the top directory are those of the summaries that were stored last, and nothing
is in their way. -/
structure Keeps (s : FileStore) (entries : List (Scope × Summary)) : Prop where
  rooted : s.tree.IsRooted
  way : ∀ dir, dir <+: s.root → ∀ bytes, s.tree.node? dir ≠ some (.file bytes)
  shallow : ∀ names, s.tree.node? (s.root ++ names) = some .directory → names.length ≤ 3
  files : ∀ names, names ≠ [] → ∀ bytes,
    s.tree.node? (s.root ++ names) = some (.file bytes) ↔
      (lastAt names entries).map fileOf = some (.file bytes)

namespace Keeps

/-- Where no summary is kept, there is no file. -/
theorem node_ne_file (h : s.Keeps entries) {names : Path} (hne : names ≠ [])
    (hpath : ∀ scope, scopePath scope ≠ names) (bytes : List UInt8) :
    s.tree.node? (s.root ++ names) ≠ some (.file bytes) := by
  rw [Ne, h.files names hne bytes, last_at_eq_none hpath]
  exact fun hnone => nomatch hnone

/-- There is a file at a path exactly if a summary was stored there. -/
theorem exists_file_iff (h : s.Keeps entries) {names : Path} (hne : names ≠ []) :
    (∃ bytes, s.tree.node? (s.root ++ names) = some (.file bytes)) ↔
      ∃ entry ∈ entries, names = scopePath entry.1 := by
  constructor
  · rintro ⟨bytes, hnode⟩
    obtain ⟨summary, hlast, -⟩ := Option.map_eq_some_iff.1 ((h.files names hne bytes).1 hnode)
    obtain ⟨scope, hmem, hpath⟩ := exists_of_last_at hlast
    exact ⟨_, hmem, hpath.symm⟩
  · rintro ⟨entry, hmem, rfl⟩
    cases hlast : lastAt (scopePath entry.1) entries with
    | none =>
        have hother := last_where_eq_none_iff.1 hlast entry hmem
        exact absurd rfl (of_decide_eq_false hother)
    | some summary =>
        refine ⟨bytesOfText summary.encode.pretty, (h.files _ hne _).2 ?_⟩
        rw [hlast]
        rfl

/-- There is no file on the way to a summary. -/
theorem node_on_way (h : s.Keeps entries) {place : Path} (hplace : place <+: s.summaryPath scope)
    (hlength : place.length < s.root.length + 4) (bytes : List UInt8) :
    s.tree.node? place ≠ some (.file bytes) := by
  rcases List.prefix_or_prefix_of_prefix hplace (List.prefix_append s.root _) with
    hroot | ⟨names, rfl⟩
  · exact h.way place hroot bytes
  · by_cases hne : names = []
    · subst hne
      rw [List.append_nil]
      exact h.way s.root List.prefix_rfl bytes
    · refine h.node_ne_file hne (fun other hpath => ?_) bytes
      have hfour : names.length = 4 := hpath ▸ rfl
      rw [List.length_append] at hlength
      omega

/-- Between calls there are no drafts. -/
theorem node_draft (h : s.Keeps entries) (session : SessionKey) (n : Nat) :
    s.tree.node? (s.directory session ++ [draftName n]) = none := by
  have hpath : s.directory session ++ [draftName n] =
      s.root ++ (sessionPath session ++ [draftName n]) :=
    List.append_assoc ..
  cases hnode : s.tree.node? (s.directory session ++ [draftName n]) with
  | none => rfl
  | some node =>
      rw [hpath] at hnode
      cases node with
      | directory => exact absurd (h.shallow _ hnode) (by simp [sessionPath])
      | file bytes =>
          refine absurd hnode (h.node_ne_file (by simp) (fun scope hsame => ?_) bytes)
          have hname := (List.append_inj' hsame rfl).2
          exact draft_name_ne_file_name _ _ (List.cons.inj hname).1.symm

/-- What stands at the place of a summary is no directory. -/
theorem node_ne_directory (h : s.Keeps entries) (scope : Scope) :
    s.tree.node? (s.summaryPath scope) ≠ some .directory := by
  intro hnode
  have hthree := h.shallow _ hnode
  have hfour : (scopePath scope).length = 4 := rfl
  omega

/-- A file is found where one was before if at most directories have come. -/
theorem file_iff_of_grown {t t' : FileTree} {place : Path} {bytes : List UInt8}
    (h : t'.node? place = t.node? place ∨
      t.node? place = none ∧ t'.node? place = some .directory) :
    t'.node? place = some (.file bytes) ↔ t.node? place = some (.file bytes) := by
  rcases h with hsame | ⟨hnone, hdir⟩
  · rw [hsame]
  · rw [hnone, hdir]
    simp

/-- When a summary is stored, or is not, at most directories come at all other places. -/
theorem node_store (h : s.Keeps entries) (summary : Summary) {place : Path}
    (hplace : place ≠ s.summaryPath scope ∨ ∃ f, (s.store scope summary).1 = .error f) :
    (s.store scope summary).2.tree.node? place = s.tree.node? place ∨
      place <+: s.directory scope.session ∧ s.tree.node? place = none ∧
        (s.store scope summary).2.tree.node? place = some .directory := by
  by_cases hpath : place = s.summaryPath scope
  · obtain ⟨f, herror⟩ := hplace.resolve_left (not_not_intro hpath)
    exact .inl (hpath ▸ (store_error herror).1)
  by_cases hdraft : place = s.draftPath scope
  · have hnone : s.tree.node? (s.draftPath scope) = none := h.node_draft scope.session s.nextDraft
    left
    rw [hdraft, hnone]
    cases hdone : (s.store scope summary).1 with
    | ok u => exact (store_ok hdone).2
    | error f => exact (store_error hdone).2.elim (fun hsame => hsame.trans hnone) And.right
  · exact (s.store_spec scope summary).2.2 place hdraft hpath

/-- A summary that was stored is kept. -/
theorem kept_ok (h : (s.store scope summary).1 = .ok ()) :
    (StoreCall.store scope summary).kept s = [(scope, summary)] := by
  have hdone : (SummaryStore.store s scope summary).1 = .ok () := h
  simp only [kept, hdone]

/-- A summary that was refused is not. -/
theorem kept_error {f : Failure} (h : (s.store scope summary).1 = .error f) :
    (StoreCall.store scope summary).kept s = [] := by
  have herror : (SummaryStore.store s scope summary).1 = .error f := h
  simp only [kept, herror]

/-- Whether it is stored or not, the files are those of the summaries that were stored. -/
theorem store (h : s.Keeps entries) (scope : Scope) (summary : Summary) :
    (s.store scope summary).2.Keeps (entries ++ (StoreCall.store scope summary).kept s) := by
  obtain ⟨hroot, hrooted, -⟩ := s.store_spec scope summary
  have hlength := s.length_summary_path scope
  refine ⟨hrooted h.rooted, ?_, ?_, ?_⟩
  · intro dir hdir bytes
    rw [hroot] at hdir
    have hne : dir ≠ s.summaryPath scope := by
      rintro rfl
      have hle := hdir.length_le
      omega
    rw [Ne, file_iff_of_grown ((h.node_store summary (.inl hne)).imp_right And.right)]
    exact h.way dir hdir bytes
  · -- New directories are not further down than that of a session.
    intro names hnode
    rw [hroot] at hnode
    have hother : s.root ++ names ≠ s.summaryPath scope ∨
        ∃ f, (s.store scope summary).1 = .error f := by
      cases hdone : (s.store scope summary).1 with
      | error f => exact .inr ⟨f, rfl⟩
      | ok u =>
          left
          intro hpath
          rw [hpath, (store_ok hdone).1] at hnode
          cases hnode
    rcases h.node_store summary hother with hsame | ⟨hinitial, -, -⟩
    · exact h.shallow names (hsame ▸ hnode)
    · have hle := hinitial.length_le
      rw [length_directory, List.length_append] at hle
      omega
  · intro names hne bytes
    rw [hroot]
    cases hdone : (s.store scope summary).1 with
    | error f =>
        rw [kept_error hdone, List.append_nil, ← h.files names hne bytes]
        exact file_iff_of_grown ((h.node_store summary (.inr ⟨f, hdone⟩)).imp_right And.right)
    | ok u =>
        rw [kept_ok hdone, last_at_append]
        by_cases hpath : scopePath scope = names
        · subst hpath
          rw [if_pos rfl, Option.map_some, ← (store_ok hdone).1]
          rfl
        · have hother : s.root ++ names ≠ s.summaryPath scope := fun hsame =>
            hpath (List.append_cancel_left hsame).symm
          rw [if_neg hpath, ← h.files names hne bytes]
          exact file_iff_of_grown ((h.node_store summary (.inl hother)).imp_right And.right)

/-- What was stored last for a scope is loaded, unless its path is too long. -/
theorem load (h : s.Keeps entries) (hwritten : ∀ entry ∈ entries, entry.2.IsRepresentable)
    (scope : Scope) :
    s.load scope = .ok (lastAt (scopePath scope) entries) ∨
      s.load scope = .error (failure "read" (s.summaryPath scope) .nameTooLong) ∧
        ¬ FitsPath (s.summaryPath scope) := by
  have hlength := s.length_summary_path scope
  have hclear : s.tree.IsClear [] (s.summaryPath scope) := by
    intro front name back hpath bytes
    have hshort : front.length < s.root.length + 4 := by
      rw [hpath, List.length_append, List.length_cons] at hlength
      omega
    exact h.node_on_way (hpath ▸ List.prefix_append front _) hshort bytes
  rcases h.rooted.read_spec hclear with hread | ⟨hread, hlong⟩
  · left
    cases hlast : lastAt (scopePath scope) entries with
    | none =>
        -- Nothing was stored there, so what is there is no file. It is no directory either.
        refine load_of_not_found ?_
        rw [hread, FileTree.bytes]
        cases hnode : s.tree.node? (s.summaryPath scope) with
        | none => rfl
        | some node =>
            cases node with
            | directory => exact absurd hnode (h.node_ne_directory scope)
            | file bytes =>
                have hfile := (h.files (scopePath scope) (by simp [scopePath]) bytes).1 hnode
                rw [hlast] at hfile
                cases hfile
    | some summary =>
        have hfile : s.tree.node? (s.summaryPath scope) = some (fileOf summary) := by
          refine (h.files (scopePath scope) (by simp [scopePath]) _).2 ?_
          rw [hlast]
          rfl
        obtain ⟨other, hmem, -⟩ := exists_of_last_at hlast
        rw [FileTree.bytes, hfile] at hread
        exact load_of_file (hwritten _ hmem) hread
  · exact .inr ⟨load_of_too_long hread, hlong⟩

end Keeps

end Transcript.FileStore
