import Transcript.Proofs.Store.Access
import Transcript.Proofs.Summary.RoundTrip
import Transcript.Proofs.Text.Percent
import Transcript.Store.File

/-!
# Which scopes share a file

The path of a summary tells its session, and its branch but for one case: the file of the whole
session is also that of the branch with the name `_session` (`FileStore.summary_path_eq_iff`). So
these two have the same summary at any time, while a summary that is stored for another scope leaves
what is loaded as it is (`FileStore.apart_iff`). Only a name that is too long for the system is
noticed no sooner than there is a directory to look it up in.
-/

namespace Transcript

/-- Two scopes that are kept in the same file: a whole session, and the branch of it that has the
name of this file. -/
def Scope.SharesFile (a b : Scope) : Prop :=
  a.session = b.session ∧
    (a.filter = "" ∧ b.filter = "_session" ∨ a.filter = "_session" ∧ b.filter = "")

instance (a b : Scope) : Decidable (a.SharesFile b) := inferInstanceAs (Decidable (_ ∧ _))

namespace FileStore

/-! ## Paths -/

/-- The name of the file of a branch, without its ending, is the written form of the branch. -/
theorem file_name_of_ne {filter : String} (h : filter ≠ "") :
    fileName filter = Text.Percent.encode filter ++ ".json" := by
  have hempty : filter.isEmpty = false := by simpa using h
  rw [fileName, hempty]
  rfl

/-- The file of a whole session has the name that is written for `_session`. -/
theorem file_name_whole : fileName "" = Text.Percent.encode "_session" ++ ".json" := by decide

/-- Only the whole session and the branch `_session` share a file name. -/
theorem file_name_eq_iff (f g : String) :
    fileName f = fileName g ↔ f = g ∨ f = "" ∧ g = "_session" ∨ f = "_session" ∧ g = "" := by
  have hsame (f g : String) :
      Text.Percent.encode f ++ ".json" = Text.Percent.encode g ++ ".json" ↔ f = g := by
    rw [String.append_left_inj, Text.Percent.encode_injective.eq_iff]
  by_cases hf : f = "" <;> by_cases hg : g = ""
  · simp [hf, hg]
  · rw [hf, file_name_whole, file_name_of_ne hg, hsame, eq_comm (b := g)]
    simp [Ne.symm hg]
  · rw [hg, file_name_whole, file_name_of_ne hf, hsame]
    simp [hf]
  · rw [file_name_of_ne hf, file_name_of_ne hg, hsame]
    simp [hf, hg]

/-- Different scopes have different paths, unless they share a file. -/
theorem summary_path_eq_iff (s : FileStore) (a b : Scope) :
    s.summaryPath a = s.summaryPath b ↔ a = b ∨ a.SharesFile b := by
  obtain ⟨⟨app, user, session⟩, filter⟩ := a
  obtain ⟨⟨app', user', session'⟩, filter'⟩ := b
  unfold summaryPath scopePath sessionPath
  simp only [List.append_cancel_left_eq, List.cons_append, List.nil_append, List.cons.injEq,
    and_true, Text.Percent.encode_injective.eq_iff, file_name_eq_iff, Scope.mk.injEq,
    SessionKey.mk.injEq, Scope.SharesFile]
  tauto

/-- A draft is never taken for the summary of a scope. -/
theorem draft_name_ne_file_name (n : Nat) (filter : String) : draftName n ≠ fileName filter := by
  intro h
  have hlast := congrArg (fun name : String => name.toList.getLast?) h
  simp only [draftName, fileName, String.toList_append, List.getLast?_append] at hlast
  cases hlast

/-! ## What storing does to the tree -/

variable (s : FileStore) (scope : Scope) (summary : Summary)

/-- Where a summary is written before it takes its place. -/
def draftPath : Path := s.directory scope.session ++ [draftName s.nextDraft]

/-- The directory of a session lies three names below the root. -/
theorem length_directory (session : SessionKey) :
    (s.directory session).length = s.root.length + 3 :=
  List.length_append

/-- A summary lies four names below the root. -/
theorem length_summary_path : (s.summaryPath scope).length = s.root.length + 4 :=
  List.length_append

/-- So does a draft. -/
theorem length_draft_path (session : SessionKey) (n : Nat) :
    (s.directory session ++ [draftName n]).length = s.root.length + 4 := by
  rw [List.length_append, length_directory]
  rfl

/-- The places of summaries and drafts are too far down to be directories on the way to them. -/
theorem not_prefix_directory {s : FileStore} {place : Path}
    (hplace : place.length = s.root.length + 4) (session : SessionKey) :
    ¬ place <+: s.directory session := by
  intro hinitial
  have hle := hinitial.length_le
  rw [length_directory] at hle
  omega

/-- A draft is in no summary's place. -/
theorem draft_path_ne (other : Scope) : s.draftPath scope ≠ s.summaryPath other := by
  intro h
  unfold draftPath summaryPath directory scopePath at h
  rw [← List.append_assoc] at h
  exact draft_name_ne_file_name _ _ (List.cons.inj (List.append_inj' h rfl).2).1

/-- A file is replaced at its own place, by way of the draft's. -/
theorem replace_spec (draft path : Path) (text : String) :
    (s.replace draft path text).2.root = s.root ∧
      (s.tree.IsRooted → (s.replace draft path text).2.tree.IsRooted) ∧
      ∀ place, place ≠ draft → place ≠ path →
        (s.replace draft path text).2.tree.node? place = s.tree.node? place := by
  unfold replace
  split
  · exact ⟨rfl, id, fun _ _ _ => rfl⟩
  · rename_i written hwrite
    obtain ⟨hput, hdraft, -, -⟩ := FileTree.write_ok hwrite
    have hrooted (h : s.tree.IsRooted) : written.IsRooted := h.write hwrite
    have hnode (place : Path) (hplace : place ≠ draft) :
        written.node? place = s.tree.node? place := by
      rw [hput, FileTree.node_put hdraft, if_neg hplace]
    split
    · rename_i moved hrename
      refine ⟨rfl, fun h => (hrooted h).rename hrename, fun place hplace hpath => ?_⟩
      exact (FileTree.node_rename hrename hplace hpath).trans (hnode place hplace)
    · -- The draft that could not take its place is removed.
      have hfile : written.node? draft ≠ some .directory := by
        rw [hput, FileTree.node_put hdraft, if_pos rfl]
        simp
      refine ⟨rfl, fun h => (hrooted h).remove hdraft hfile, fun place hplace _ => ?_⟩
      exact (FileTree.node_remove hdraft place).trans ((if_neg hplace).trans (hnode place hplace))

/-- To store a summary changes the place of the draft and that of the summary, and makes directories
on the way to them. -/
theorem store_spec :
    (s.store scope summary).2.root = s.root ∧
      (s.tree.IsRooted → (s.store scope summary).2.tree.IsRooted) ∧
      ∀ place, place ≠ s.draftPath scope → place ≠ s.summaryPath scope →
        (s.store scope summary).2.tree.node? place = s.tree.node? place ∨
          place <+: s.directory scope.session ∧ s.tree.node? place = none ∧
            (s.store scope summary).2.tree.node? place = some .directory := by
  obtain ⟨hadds, hrooted⟩ := FileTree.make_directory_spec s.tree (s.directory scope.session)
  unfold store
  dsimp only
  split
  · rename_i hmade
    rw [hmade] at hadds hrooted
    exact ⟨rfl, hrooted, fun place _ _ => hadds place⟩
  · rename_i tree hmade
    rw [hmade] at hadds hrooted
    obtain ⟨hroot, hkept, hnode⟩ :=
      replace_spec { s with tree, nextDraft := s.nextDraft + 1 } (s.draftPath scope)
        (s.summaryPath scope) summary.encode.pretty
    refine ⟨hroot, fun h => hkept (hrooted h), fun place hdraft hpath => ?_⟩
    have hlater := hnode place hdraft hpath
    rcases hadds place with hsame | ⟨hinitial, hnone, hdir⟩
    · exact .inl (hlater.trans hsame)
    · exact .inr ⟨hinitial, hnone, hlater.trans hdir⟩

/-- So a tree stays rooted, whatever is stored. -/
theorem is_rooted_store (h : s.tree.IsRooted) : (s.store scope summary).2.tree.IsRooted :=
  (s.store_spec scope summary).2.1 h

/-! ## What storing does to what is loaded -/

/-- What is loaded depends on what is read. -/
theorem load_congr {s s' : FileStore} {scope : Scope} (hroot : s'.root = s.root)
    (hread : s'.tree.read (s.summaryPath scope) = s.tree.read (s.summaryPath scope)) :
    s'.load scope = s.load scope := by
  have hpath : s'.summaryPath scope = s.summaryPath scope := by rw [summaryPath, hroot, summaryPath]
  unfold load readText
  rw [hpath, hread]

/-- Scopes that share a file have the same summary. -/
theorem load_of_shares_file {a b : Scope} (h : a.SharesFile b) : s.load a = s.load b := by
  have hpath : s.summaryPath a = s.summaryPath b := (s.summary_path_eq_iff a b).2 (.inr h)
  unfold load readText
  rw [hpath]

/-- The file of a summary is read as the summary. -/
theorem load_of_file {s : FileStore} {scope : Scope} {summary : Summary}
    (hsummary : summary.IsRepresentable)
    (h : s.tree.read (s.summaryPath scope) = .ok (bytesOfText summary.encode.pretty)) :
    s.load scope = .ok (some summary) := by
  have htext : s.readText scope = .ok summary.encode.pretty := by
    unfold readText
    simp only [h, bind, Except.bind, text_of_bytes_of_text]
  unfold load
  rw [htext]
  dsimp only
  rw [Summary.decode_text_encode hsummary]

/-- Where no file is found there is no summary. -/
theorem load_of_not_found {s : FileStore} {scope : Scope}
    (h : s.tree.read (s.summaryPath scope) = .error .notFound) : s.load scope = .ok none := by
  unfold load readText
  rw [h]
  rfl

/-- A path that is too long cannot be loaded from. -/
theorem load_of_too_long {s : FileStore} {scope : Scope}
    (h : s.tree.read (s.summaryPath scope) = .error .nameTooLong) :
    s.load scope = .error (failure "read" (s.summaryPath scope) .nameTooLong) := by
  unfold load readText
  rw [h]
  rfl

/-- When directories have come on the way to a summary and its own place is the same, the same is
loaded, but that a name is found too long once there is a directory to look it up in. -/
theorem load_of_grown {s s' : FileStore} {scope : Scope} (hrooted : s.tree.IsRooted)
    (hroot : s'.root = s.root)
    (hway : ∀ place, place <+: s.summaryPath scope → s'.tree.node? place = s.tree.node? place ∨
      s.tree.node? place = none ∧ s'.tree.node? place = some .directory)
    (hfile : s'.tree.node? (s.summaryPath scope) = s.tree.node? (s.summaryPath scope)) :
    s'.load scope = s.load scope ∨
      s.load scope = .ok none ∧
        s'.load scope = .error (failure "read" (s.summaryPath scope) .nameTooLong) ∧
        ∃ name ∈ s.summaryPath scope, FileTree.nameLimit < name.utf8ByteSize := by
  rcases hrooted.read_of_grown hway hfile with hsame | ⟨hold, hnew, hlong⟩
  · exact .inl (load_congr hroot hsame)
  · have hpath : s'.summaryPath scope = s.summaryPath scope := by
      rw [summaryPath, hroot, summaryPath]
    have hfailed := load_of_too_long (hpath ▸ hnew)
    rw [hpath] at hfailed
    exact .inr ⟨load_of_not_found hold, hfailed, hlong⟩

/-- A summary that is stored in another file changes nothing of what is loaded, but that a name is
found too long once there is a directory to look it up in. -/
theorem load_store_of_ne (hrooted : s.tree.IsRooted) {a b : Scope}
    (hpath : s.summaryPath a ≠ s.summaryPath b) :
    (s.store a summary).2.load b = s.load b ∨
      s.load b = .ok none ∧
        (s.store a summary).2.load b = .error (failure "read" (s.summaryPath b) .nameTooLong) ∧
        ∃ name ∈ s.summaryPath b, FileTree.nameLimit < name.utf8ByteSize := by
  obtain ⟨hroot, -, hnode⟩ := s.store_spec a summary
  -- The places on the way are shorter than the paths of files.
  have hway (place : Path) (hplace : place <+: s.summaryPath b) :
      (s.store a summary).2.tree.node? place = s.tree.node? place ∨
        place <+: s.directory a.session ∧ s.tree.node? place = none ∧
          (s.store a summary).2.tree.node? place = some .directory := by
    by_cases hend : place = s.summaryPath b
    · subst hend
      exact hnode _ (s.draft_path_ne a b).symm hpath.symm
    · have hshort : place.length < s.root.length + 4 := by
        have hlt := Nat.lt_of_not_le fun hle => hend (hplace.eq_of_length_le hle)
        rwa [length_summary_path] at hlt
      refine hnode place ?_ ?_
      · rintro rfl
        exact Nat.ne_of_lt hshort (s.length_draft_path a.session s.nextDraft)
      · rintro rfl
        exact Nat.ne_of_lt hshort (s.length_summary_path a)
  have hfile : (s.store a summary).2.tree.node? (s.summaryPath b) =
      s.tree.node? (s.summaryPath b) :=
    (hway _ List.prefix_rfl).resolve_right fun ⟨hinitial, _⟩ =>
      not_prefix_directory (s.length_summary_path b) a.session hinitial
  exact load_of_grown hrooted hroot (fun place hplace => (hway place hplace).imp_right And.right)
    hfile

/-- Nothing is found under a name that is too long as long as there is no directory to look it up
in. -/
example :
    let s : FileStore := { root := ["r"] }
    let key : SessionKey := ⟨"app", "u", "s"⟩
    let long : Scope := ⟨key, String.ofList (List.replicate 256 'a')⟩
    s.load long = .ok none ∧
      (s.store (.whole key) ⟨"text", 1, ⟨0, 0⟩, {}⟩).2.load long =
        .error (failure "read" (s.summaryPath long) .nameTooLong) := by
  decide +kernel

/-- Two scopes have the same path exactly if they are the same or share a file, and then they have
the same summary at any time. Otherwise a summary that is stored for the one leaves what is loaded
for the other, but for a name that is found too long once there is a directory to look it up in. -/
theorem apart_iff (s : FileStore) (a b : Scope) :
    (s.summaryPath a = s.summaryPath b ↔ a = b ∨ a.SharesFile b) ∧
      (a.SharesFile b → s.load a = s.load b) ∧
      (s.tree.IsRooted → a ≠ b → ¬ a.SharesFile b → ∀ summary,
        (s.store a summary).2.load b = s.load b ∨
          s.load b = .ok none ∧
            (s.store a summary).2.load b = .error (failure "read" (s.summaryPath b) .nameTooLong) ∧
            ∃ name ∈ s.summaryPath b, FileTree.nameLimit < name.utf8ByteSize) := by
  have hpath := s.summary_path_eq_iff a b
  refine ⟨hpath, s.load_of_shares_file, fun hrooted hne hapart summary => ?_⟩
  exact s.load_store_of_ne summary hrooted fun hsame => (hpath.1 hsame).elim hne hapart

/-- A branch keeps its summary when one is stored for the whole session. -/
theorem apart_iff_two_branches :
    let branch : Scope := ⟨⟨"app", "u", "s"⟩, "planner"⟩
    let whole : Scope := .whole ⟨"app", "u", "s"⟩
    let summary : Summary := ⟨"plans", 3, ⟨0, 0⟩, {}⟩
    let s := (({ root := ["r"] } : FileStore).store branch summary).2
    s.tree.IsRooted ∧ s.summaryPath whole ≠ s.summaryPath branch ∧
      (s.store whole ⟨"all", 4, ⟨0, 0⟩, {}⟩).2.load branch = .ok (some summary) := by
  intro branch whole summary s
  have hrooted : s.tree.IsRooted := is_rooted_store _ _ _ FileTree.is_rooted_empty
  have hne : whole ≠ branch := by decide
  have hapart : ¬ whole.SharesFile branch := by decide
  have hread : s.tree.read (s.summaryPath branch) = .ok (bytesOfText summary.encode.pretty) := by
    decide +kernel
  have hkept : s.load branch = .ok (some summary) :=
    load_of_file (Summary.is_representable_at_epoch "plans" (by decide)) hread
  obtain ⟨hpath, -, hload⟩ := apart_iff s whole branch
  refine ⟨hrooted, fun hsame => (hpath.1 hsame).elim hne hapart, ?_⟩
  rcases hload hrooted hne hapart ⟨"all", 4, ⟨0, 0⟩, {}⟩ with hsame | ⟨hnone, -⟩
  · exact hsame.trans hkept
  · rw [hkept] at hnone
    cases hnone

/-- What is stored for a whole session is loaded for the branch with the name of its file, which had
no summary. -/
theorem branch_has_path_of_whole_session :
    let s : FileStore := { root := ["r"] }
    let whole : Scope := .whole ⟨"app", "u", "s"⟩
    let branch : Scope := ⟨⟨"app", "u", "s"⟩, "_session"⟩
    let summary : Summary := ⟨"all", 4, ⟨0, 0⟩, {}⟩
    whole ≠ branch ∧ s.summaryPath whole = s.summaryPath branch ∧ s.load branch = .ok none ∧
      (s.store whole summary).2.load branch = .ok (some summary) := by
  intro s whole branch summary
  have hread : (s.store whole summary).2.tree.read ((s.store whole summary).2.summaryPath branch) =
      .ok (bytesOfText summary.encode.pretty) := by
    decide +kernel
  refine ⟨?_, ?_, load_of_not_found ?_, load_of_file ?_ hread⟩
  · decide
  · decide
  · decide +kernel
  · exact Summary.is_representable_at_epoch "all" (by decide)

end FileStore

end Transcript
