import Mathlib.Data.List.Basic
import Transcript.Proofs.Table
import Transcript.Store.FileTree

/-!
# What is found in a tree of files

Every operation on a tree is told by what is found at a path afterwards. In a tree that `IsRooted`
nothing is found where there is no directory for it, and the operations keep it so.

A file may be out of reach for another reason after directories were made: where the way to it ended
before, it may now lead on to a name that is too long (`IsRooted.read_of_grown`).
-/

namespace Transcript.FileTree

variable {t t' : FileTree} {path other dir : Path} {name : String} {node : FileNode}
  {bytes : List UInt8}

/-- What is found at a path lies in a directory. -/
def IsRooted (t : FileTree) : Prop :=
  ∀ dir name, t.node? (dir ++ [name]) ≠ none → t.node? dir = some .directory

/-- An empty tree is rooted. -/
theorem is_rooted_empty : IsRooted {} := by
  intro dir name hfound
  have hnone : ({} : FileTree).node? (dir ++ [name]) = none := if_neg (by simp)
  exact absurd hnone hfound

/-! ## Single changes -/

/-- The tree with something put at a path. -/
def put (t : FileTree) (path : Path) (node : FileNode) : FileTree := ⟨t.nodes.insert path node⟩

/-- At the end of the empty path there is a directory. -/
@[simp] theorem node_nil (t : FileTree) : t.node? [] = some .directory := rfl

/-- What is put at a path is there, and everything else stays. -/
theorem node_put (hpath : path ≠ []) (node : FileNode) (other : Path) :
    (t.put path node).node? other = if other = path then some node else t.node? other := by
  unfold put node?
  by_cases hother : other = []
  · rw [hother, if_pos rfl, if_neg hpath.symm, if_pos rfl]
  · rw [if_neg hother, if_neg hother]
    exact Table.find_insert _ _ _ _

/-- What is removed is gone, and everything else stays. -/
theorem node_remove (hpath : path ≠ []) (other : Path) :
    (t.remove path).node? other = if other = path then none else t.node? other := by
  unfold remove node?
  by_cases hother : other = []
  · rw [hother, if_pos rfl, if_neg hpath.symm, if_pos rfl]
  · rw [if_neg hother, if_neg hother]
    exact Table.find_erase _ _ _

namespace IsRooted

/-- Where nothing is found, nothing is found below either. -/
theorem node_eq_none (h : t.IsRooted) (hnone : t.node? dir = none) :
    t.node? (dir ++ [name]) = none := by
  by_contra hfound
  rw [h dir name hfound] at hnone
  cases hnone

/-- Something may be put into a directory, as long as no directory is replaced by a file. -/
theorem put (h : t.IsRooted) (hdir : t.node? dir = some .directory)
    (hnode : node = .directory ∨ t.node? (dir ++ [name]) ≠ some .directory) :
    (t.put (dir ++ [name]) node).IsRooted := by
  have hne : dir ++ [name] ≠ [] := by simp
  intro d n hfound
  rw [node_put hne] at hfound ⊢
  by_cases hnew : d ++ [n] = dir ++ [name]
  · obtain ⟨rfl, -⟩ := List.append_inj' hnew rfl
    rw [if_neg (by simp)]
    exact hdir
  · rw [if_neg hnew] at hfound
    have hparent := h d n hfound
    split
    · rename_i hreplaced
      rw [hreplaced] at hparent
      rw [hnode.resolve_right (not_not_intro hparent)]
    · exact hparent

/-- A file may be removed. -/
theorem remove (h : t.IsRooted) (hpath : path ≠ []) (hfile : t.node? path ≠ some .directory) :
    (t.remove path).IsRooted := by
  intro d n hfound
  rw [node_remove hpath] at hfound ⊢
  split at hfound
  · exact absurd rfl hfound
  · have hparent := h d n hfound
    have hother : d ≠ path := by
      rintro rfl
      exact hfile hparent
    rw [if_neg hother]
    exact hparent

end IsRooted

/-! ## Ways -/

/-- The first obstacle is on the way to the first names, or else beyond them. -/
theorem names_obstacle_append (t : FileTree) (dir : Path) (names more : List String) :
    t.namesObstacle? dir (names ++ more) =
      (t.namesObstacle? dir names <|> t.namesObstacle? (dir ++ names) more) := by
  induction names generalizing dir with
  | nil => simp [namesObstacle?]
  | cons name names ih => simp [namesObstacle?, ih, Option.or_assoc]

/-- Names are looked up in directories only. -/
theorem node_of_no_obstacle (h : t.nameObstacle? dir name = none) :
    t.node? dir = some .directory := by
  unfold nameObstacle? at h
  split at h
  · cases h
  · cases h
  · assumption

/-- The way to a path that can be used ends in a directory. -/
theorem exists_parent (hway : t.obstacle? path = none) (hpath : path ≠ []) :
    ∃ dir name, path = dir ++ [name] ∧ t.node? dir = some .directory := by
  obtain ⟨dir, name, rfl⟩ := List.eq_nil_or_concat path |>.resolve_left hpath
  have hname : t.nameObstacle? dir name = none := by
    unfold obstacle? at hway
    split at hway
    · cases hway
    · rw [List.concat_eq_append, names_obstacle_append] at hway
      simp only [namesObstacle?, List.nil_append, Option.orElse_eq_orElse, Option.orElse_eq_or,
        Option.or_none, Option.or_eq_none_iff] at hway
      exact hway.2
  exact ⟨dir, name, List.concat_eq_append .., node_of_no_obstacle hname⟩

/-! ## Files -/

/-- What writing a file does, and where it is possible. -/
theorem write_ok (h : t.write path bytes = .ok t') :
    t' = t.put path (.file bytes) ∧ path ≠ [] ∧ t.node? path ≠ some .directory ∧
      t.obstacle? path = none := by
  unfold write at h
  split at h
  · cases h
  · rename_i hway
    split at h
    · cases h
    · rename_i hdir
      have hnode : t.node? path ≠ some .directory := by simpa [isDirectory] using hdir
      cases h
      exact ⟨rfl, fun hnil => hnode (hnil ▸ node_nil t), hnode, hway⟩

/-- A tree stays rooted when a file is written. -/
theorem IsRooted.write (h : t.IsRooted) (hwrite : t.write path bytes = .ok t') : t'.IsRooted := by
  obtain ⟨rfl, hpath, hnode, hway⟩ := write_ok hwrite
  obtain ⟨dir, name, rfl, hdir⟩ := exists_parent hway hpath
  exact h.put hdir (.inr hnode)

/-- What can be read is a file. -/
theorem read_ok (h : t.read path = .ok bytes) : t.node? path = some (.file bytes) := by
  unfold read FileTree.bytes at h
  split at h
  · cases h
  · split at h
    · cases h
      assumption
    · cases h
    · cases h

/-- What moving a file does. -/
theorem rename_ok (h : t.rename path other = .ok t') :
    ∃ bytes moved, t.node? path = some (.file bytes) ∧ t.write other bytes = .ok moved ∧
      t' = moved.remove path := by
  unfold rename at h
  cases hread : t.read path with
  | error f =>
      rw [hread] at h
      cases h
  | ok bytes =>
      rw [hread] at h
      cases hwrite : t.write other bytes with
      | error f =>
          simp only [bind, Except.bind, hwrite] at h
          cases h
      | ok moved =>
          simp only [bind, Except.bind, hwrite, pure, Except.pure] at h
          cases h
          exact ⟨bytes, moved, read_ok hread, hwrite, rfl⟩

/-- There is no file at the empty path. -/
theorem ne_nil_of_file (h : t.node? path = some (.file bytes)) : path ≠ [] := by
  rintro rfl
  cases h

/-- A tree stays rooted when a file is renamed. -/
theorem IsRooted.rename (h : t.IsRooted) (hrename : t.rename path other = .ok t') :
    t'.IsRooted := by
  obtain ⟨bytes, moved, hfile, hwrite, rfl⟩ := rename_ok hrename
  obtain ⟨rfl, hother, -, -⟩ := write_ok hwrite
  refine (h.write hwrite).remove (ne_nil_of_file hfile) ?_
  rw [node_put hother, hfile]
  split <;> simp

/-- Only the two places are changed between which a file is moved. -/
theorem node_rename (h : t.rename path other = .ok t') {place : Path} (hpath : place ≠ path)
    (hother : place ≠ other) : t'.node? place = t.node? place := by
  obtain ⟨bytes, moved, hfile, hwrite, rfl⟩ := rename_ok h
  obtain ⟨rfl, hne, -, -⟩ := write_ok hwrite
  rw [node_remove (ne_nil_of_file hfile), if_neg hpath, node_put hne, if_neg hother]

/-! ## Directories -/

/-- Directories have come on the way to one of them, and all else is found as before. -/
def AddsDirectories (t t' : FileTree) (dir : Path) : Prop :=
  ∀ path, t'.node? path = t.node? path ∨
    path <+: dir ∧ t.node? path = none ∧ t'.node? path = some .directory

/-- No directories are added if nothing is done. -/
theorem adds_directories_refl (t : FileTree) (dir : Path) : AddsDirectories t t dir :=
  fun _ => .inl rfl

/-- What the making of directories does, even if it is stopped on the way. -/
theorem make_directories_spec (t : FileTree) (dir : Path) (names : List String) :
    AddsDirectories t (t.makeDirectories dir names).2 (dir ++ names) ∧
      (t.IsRooted → (t.makeDirectories dir names).2.IsRooted) := by
  fun_induction makeDirectories t dir names with
  | case1 t dir => exact ⟨adds_directories_refl t _, id⟩
  | case2 t dir name names f hway => exact ⟨adds_directories_refl t _, id⟩
  | case3 t dir name names path hway hnode ih =>
      have hnames : dir ++ [name] ++ names = dir ++ name :: names := by simp
      rw [← hnames]
      exact ih
  | case4 t dir name names path hway bytes hnode => exact ⟨adds_directories_refl t _, id⟩
  | case5 t dir name names path hnode hway ih =>
      obtain ⟨hadds, hrooted⟩ := ih
      have hnames : dir ++ [name] ++ names = dir ++ name :: names := by simp
      have hpath : path ≠ [] := by simp [path]
      refine ⟨fun other => ?_, fun h => hrooted (h.put (node_of_no_obstacle hway) (.inl rfl))⟩
      have hput : FileTree.node? ⟨t.nodes.insert path .directory⟩ other = _ :=
        node_put (t := t) hpath .directory other
      rw [← hnames]
      rcases hadds other with hsame | ⟨hinitial, hnone, hdir⟩
      · rw [hsame, hput]
        split
        · rename_i hother
          subst hother
          exact .inr ⟨List.prefix_append _ _, hnode, rfl⟩
        · exact .inl rfl
      · rw [hput] at hnone
        split at hnone
        · cases hnone
        · exact .inr ⟨hinitial, hnone, hdir⟩

/-- To make a directory adds it, or nothing. -/
theorem make_directory_spec (t : FileTree) (dir : Path) :
    AddsDirectories t (t.makeDirectory dir).2 dir ∧
      (t.IsRooted → (t.makeDirectory dir).2.IsRooted) := by
  unfold makeDirectory
  split
  · exact ⟨adds_directories_refl t dir, id⟩
  · exact make_directories_spec t [] dir

/-! ## Reading -/

/-- The bytes of the file that the names lead to from a directory. -/
def readFrom (t : FileTree) (dir : Path) (names : List String) : Except SystemFault (List UInt8) :=
  match t.namesObstacle? dir names with
  | some f => .error f
  | none => t.bytes (dir ++ names)

/-- A path that is too long cannot be read, and any other is followed from the top. -/
theorem read_eq (t : FileTree) (path : Path) :
    t.read path = if isTooLong path then .error .nameTooLong else t.readFrom [] path := by
  unfold read obstacle? readFrom
  cases isTooLong path <;> rfl

/-- One name is looked up after the other. -/
theorem read_from_cons (t : FileTree) (dir : Path) (name : String) (names : List String) :
    t.readFrom dir (name :: names) =
      match t.nameObstacle? dir name with
      | some f => .error f
      | none => t.readFrom (dir ++ [name]) names := by
  unfold readFrom
  rw [namesObstacle?]
  cases t.nameObstacle? dir name with
  | some f => rfl
  | none => simp

/-- Where nothing is found, no name leads on. -/
theorem read_from_of_none (hnone : t.node? dir = none) (names : List String) :
    t.readFrom dir names = .error .notFound := by
  cases names with
  | nil => simp [readFrom, namesObstacle?, FileTree.bytes, hnone]
  | cons name names =>
      rw [read_from_cons]
      simp [nameObstacle?, hnone]

/-- When directories have come on the way to a file, the way may lead further than before, but not
to the file. -/
theorem IsRooted.read_from_of_grown (h : t.IsRooted) (dir : Path) (names : List String)
    (hway : ∀ place, place <+: dir ++ names →
      t'.node? place = t.node? place ∨ t.node? place = none ∧ t'.node? place = some .directory)
    (hfile : t'.node? (dir ++ names) = t.node? (dir ++ names)) :
    t'.readFrom dir names = t.readFrom dir names ∨
      t.readFrom dir names = .error .notFound ∧ t'.readFrom dir names = .error .nameTooLong ∧
        ∃ name ∈ names, nameLimit < name.utf8ByteSize := by
  induction names generalizing dir with
  | nil =>
      rw [List.append_nil] at hfile
      left
      simp [readFrom, namesObstacle?, FileTree.bytes, hfile]
  | cons name names ih =>
      have hnames : dir ++ [name] ++ names = dir ++ name :: names := by simp
      have hrest := ih (dir ++ [name]) (hnames ▸ hway) (hnames ▸ hfile)
      rw [read_from_cons, read_from_cons]
      rcases hway dir (List.prefix_append _ _) with hsame | ⟨hnone, hdir⟩
      · have hobstacle : t'.nameObstacle? dir name = t.nameObstacle? dir name := by
          unfold nameObstacle?
          rw [hsame]
        rw [hobstacle]
        cases t.nameObstacle? dir name with
        | some f => exact .inl rfl
        | none =>
            refine hrest.imp_right fun ⟨hold, hnew, long, hlong, hlimit⟩ => ?_
            exact ⟨hold, hnew, long, List.mem_cons_of_mem _ hlong, hlimit⟩
      · -- The way ended here before. If the name is not too long, it leads on to the next one now.
        have hold : t.nameObstacle? dir name = some .notFound := by simp [nameObstacle?, hnone]
        have hend : t.readFrom (dir ++ [name]) names = .error .notFound :=
          read_from_of_none (h.node_eq_none hnone) names
        rw [hold]
        by_cases hlimit : nameLimit < name.utf8ByteSize
        · have hnew : t'.nameObstacle? dir name = some .nameTooLong := by
            simp [nameObstacle?, hdir, hlimit]
          rw [hnew]
          exact .inr ⟨rfl, rfl, name, List.mem_cons_self, hlimit⟩
        · have hnew : t'.nameObstacle? dir name = none := by simp [nameObstacle?, hdir, hlimit]
          rw [hnew]
          rw [hend] at hrest
          refine hrest.imp_right fun ⟨_, hnew, long, hlong, hlimit⟩ => ?_
          exact ⟨rfl, hnew, long, List.mem_cons_of_mem _ hlong, hlimit⟩

/-- What is read at a path when directories have come on the way to it and its own place is the
same: the same as before, or that a name is too long where nothing was found before. -/
theorem IsRooted.read_of_grown (h : t.IsRooted)
    (hway : ∀ place, place <+: path →
      t'.node? place = t.node? place ∨ t.node? place = none ∧ t'.node? place = some .directory)
    (hfile : t'.node? path = t.node? path) :
    t'.read path = t.read path ∨
      t.read path = .error .notFound ∧ t'.read path = .error .nameTooLong ∧
        ∃ name ∈ path, nameLimit < name.utf8ByteSize := by
  rw [read_eq, read_eq]
  split
  · exact .inl rfl
  · exact h.read_from_of_grown [] path hway hfile

end Transcript.FileTree
