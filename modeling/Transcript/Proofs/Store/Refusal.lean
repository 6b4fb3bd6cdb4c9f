import Transcript.Proofs.Store.Keeping

/-!
# Summaries that cannot be stored

A summary may be refused when its directory is to be made, or when the draft is to take its place.
Either way the files are those that were there before (`FileStore.refused_summary_leaves_files`).
Directories may have come, and if a file was left in the place of the draft, by someone else, it may
be gone. What is loaded is the same as before, except that a name that is too long may be noticed
only now.
-/

namespace Transcript.FileStore

open FileTree

variable {s : FileStore} {scope other : Scope} {summary : Summary} {f : Failure}

/-- The draft of a refused summary is not kept, and only directories come. -/
theorem node_store_error (hrefused : (s.store scope summary).1 = .error f) (place : Path) :
    (s.store scope summary).2.tree.node? place = s.tree.node? place ∨
      (place <+: s.directory scope.session ∧ s.tree.node? place = none ∧
        (s.store scope summary).2.tree.node? place = some .directory) ∨
      (place = s.draftPath scope ∧ (∃ bytes, s.tree.node? place = some (.file bytes)) ∧
        (s.store scope summary).2.tree.node? place = none) := by
  obtain ⟨hpath, hdraft⟩ := store_error hrefused
  by_cases hsummary : place = s.summaryPath scope
  · exact .inl (hsummary ▸ hpath)
  by_cases hplace : place = s.draftPath scope
  · subst hplace
    rcases hdraft with hsame | ⟨hnode, hnone⟩
    · exact .inl hsame
    · cases hbefore : s.tree.node? (s.draftPath scope) with
      | none => exact .inl hnone
      | some node =>
          cases node with
          | file bytes => exact .inr (.inr ⟨rfl, ⟨bytes, rfl⟩, hnone⟩)
          | directory => exact absurd hbefore hnode
  · exact ((s.store_spec scope summary).2.2 place hplace hsummary).imp_right .inl

/-- What is loaded is the same after a refusal, but that a name is found too long once there is a
directory to look it up in. -/
theorem load_store_error (hrooted : s.tree.IsRooted)
    (hrefused : (s.store scope summary).1 = .error f) (other : Scope) :
    (s.store scope summary).2.load other = s.load other ∨
      s.load other = .ok none ∧
        (s.store scope summary).2.load other =
          .error (failure "read" (s.summaryPath other) .nameTooLong) ∧
        ∃ name ∈ s.summaryPath other, nameLimit < name.utf8ByteSize := by
  have hroot := (s.store_spec scope summary).1
  have hlength : (s.draftPath scope).length = s.root.length + 4 :=
    s.length_draft_path scope.session s.nextDraft
  refine load_of_grown hrooted hroot (fun place hplace => ?_) ?_
  · rcases node_store_error hrefused place with hsame | ⟨-, hnone, hdir⟩ | ⟨hdraft, -⟩
    · exact .inl hsame
    · exact .inr ⟨hnone, hdir⟩
    · -- A draft is as far down as a summary, and in the place of none.
      have hle : (s.summaryPath other).length ≤ place.length := by
        rw [hdraft, hlength, length_summary_path]
      have hsame := hplace.eq_of_length_le hle
      exact absurd (hdraft.symm.trans hsame) (s.draft_path_ne scope other)
  · rcases node_store_error hrefused (s.summaryPath other) with hsame | ⟨hinitial, -⟩ | ⟨hdraft, -⟩
    · exact hsame
    · exact absurd hinitial (not_prefix_directory (s.length_summary_path other) scope.session)
    · exact absurd hdraft.symm (s.draft_path_ne scope other)

/-- A summary that is refused leaves the files and their contents as they were: at most directories
come on the way to its place, and a file goes that lay in the place of the draft already. No draft
is left where none was. What is loaded for any scope is the same as before, but that a name with
more than 255 bytes is reported where nothing was found before, because there was no directory to
look it up in. -/
theorem refused_summary_leaves_files (hrefused : (s.store scope summary).1 = .error f) :
    (∀ place,
      (s.store scope summary).2.tree.node? place = s.tree.node? place ∨
        (place <+: s.directory scope.session ∧ s.tree.node? place = none ∧
          (s.store scope summary).2.tree.node? place = some .directory) ∨
        (place = s.draftPath scope ∧ (∃ bytes, s.tree.node? place = some (.file bytes)) ∧
          (s.store scope summary).2.tree.node? place = none)) ∧
      (∀ session n, s.tree.node? (s.directory session ++ [draftName n]) = none →
        (s.store scope summary).2.tree.node? (s.directory session ++ [draftName n]) = none) ∧
      (s.tree.IsRooted → ∀ other,
        (s.store scope summary).2.load other = s.load other ∨
          s.load other = .ok none ∧
            (s.store scope summary).2.load other =
              .error (failure "read" (s.summaryPath other) .nameTooLong) ∧
            ∃ name ∈ s.summaryPath other, nameLimit < name.utf8ByteSize) := by
  refine ⟨node_store_error hrefused, fun session n hnone => ?_, fun hrooted other => ?_⟩
  · rcases node_store_error hrefused (s.directory session ++ [draftName n]) with
      hsame | ⟨hinitial, -⟩ | ⟨-, -, hgone⟩
    · exact hsame.trans hnone
    · exact absurd hinitial (not_prefix_directory (s.length_draft_path session n) scope.session)
    · exact hgone
  · exact load_store_error hrooted hrefused other

/-- Where a directory is in the way of the whole session, the branch keeps its summary, and there is
no draft. -/
theorem refused_summary_leaves_files_blocked :
    let branch : Scope := ⟨⟨"app", "u", "s"⟩, "planner"⟩
    let whole : Scope := .whole ⟨"app", "u", "s"⟩
    let plans : Summary := ⟨"plans", 3, ⟨0, 0⟩, {}⟩
    let all : Summary := ⟨"all", 4, ⟨0, 0⟩, {}⟩
    let kept := (({ root := ["r"] } : FileStore).store branch plans).2
    let s : FileStore := { kept with tree := kept.tree.put (kept.summaryPath whole) .directory }
    s.tree.IsRooted ∧
      (s.store whole all).1 = .error (failure "replace" (s.summaryPath whole) .isDirectory) ∧
      s.tree.node? (s.draftPath whole) = none ∧
      (s.store whole all).2.tree.node? (s.draftPath whole) = none ∧
      (s.store whole all).2.load branch = .ok (some plans) := by
  intro branch whole plans all kept s
  have hkept : kept.tree.IsRooted := is_rooted_store _ _ _ is_rooted_empty
  have hdir : kept.tree.node? (kept.directory whole.session) = some .directory := by decide +kernel
  have hplace : kept.directory whole.session ++ [fileName whole.filter] = kept.summaryPath whole :=
    List.append_assoc ..
  have hput : (kept.tree.put (kept.directory whole.session ++ [fileName whole.filter])
      .directory).IsRooted :=
    hkept.put hdir (.inl rfl)
  have hrooted : s.tree.IsRooted := by
    rw [hplace] at hput
    exact hput
  have hrefused : (s.store whole all).1 =
      .error (failure "replace" (s.summaryPath whole) .isDirectory) := by
    decide +kernel
  have hnone : s.tree.node? (s.draftPath whole) = none := by decide +kernel
  have hread : s.tree.read (s.summaryPath branch) = .ok (bytesOfText plans.encode.pretty) := by
    decide +kernel
  have hloaded : s.load branch = .ok (some plans) :=
    load_of_file (Summary.is_representable_at_epoch "plans" (by decide)) hread
  obtain ⟨-, hdrafts, hload⟩ := refused_summary_leaves_files hrefused
  refine ⟨hrooted, hrefused, hnone, hdrafts whole.session s.nextDraft hnone, ?_⟩
  rcases hload hrooted branch with hsame | ⟨hnothing, -⟩
  · exact hsame.trans hloaded
  · rw [hloaded] at hnothing
    cases hnothing

/-- A refusal is noticed where a name is too long: nothing was found under it before there was a
directory, and now it is reported. And a file that lay in the place of the draft is gone after a
refusal. -/
theorem refused_summary_is_noticed :
    let s : FileStore := { root := ["r"] }
    let long : Scope := ⟨⟨"app", "u", "s"⟩, String.ofList (List.replicate 251 'a')⟩
    let whole : Scope := .whole ⟨"app", "u", "s"⟩
    let summary : Summary := ⟨"text", 1, ⟨0, 0⟩, {}⟩
    let blocked := (({} : FileTree).makeDirectory (s.summaryPath whole)).2
    let littered : FileStore := { s with tree := blocked.put (s.draftPath whole) (.file [0x7B]) }
    ((s.store long summary).1 = .error (failure "replace" (s.summaryPath long) .nameTooLong) ∧
      s.load long = .ok none ∧
      (s.store long summary).2.load long =
        .error (failure "read" (s.summaryPath long) .nameTooLong)) ∧
      (littered.store whole summary).1 =
        .error (failure "replace" (s.summaryPath whole) .isDirectory) ∧
      littered.tree.node? (s.draftPath whole) = some (.file [0x7B]) ∧
      (littered.store whole summary).2.tree.node? (s.draftPath whole) = none := by
  intro s long whole summary blocked littered
  refine ⟨⟨?_, ?_, ?_⟩, ?_, ?_, ?_⟩
  · decide +kernel
  · decide +kernel
  · decide +kernel
  · decide +kernel
  · decide +kernel
  · decide +kernel

end Transcript.FileStore
