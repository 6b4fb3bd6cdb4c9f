import Transcript.Proofs.Store.FileTree

/-!
# When a tree of files can be used

A path whose names are short enough can be used in a tree that `IsRooted` as soon as its directory
is there (`IsRooted.obstacle_eq_none`), and the directory can be made if no file is in its way
(`make_directory_ok`). What is read where no file is in the way is what is found, unless the path is
too long (`IsRooted.read_spec`).
-/

namespace Transcript

namespace FileTree

variable {t : FileTree} {dir path : Path} {name : String} {names : List String} {bytes : List UInt8}

/-- A name is not too long to be looked up. -/
def FitsName (name : String) : Prop := name.utf8ByteSize ≤ nameLimit

instance (name : String) : Decidable (FitsName name) := inferInstanceAs (Decidable (_ ≤ _))

/-- Neither a path as a whole nor any of its names is too long. -/
def FitsPath (path : Path) : Prop := isTooLong path = false ∧ ∀ name ∈ path, FitsName name

instance (path : Path) : Decidable (FitsPath path) := inferInstanceAs (Decidable (_ ∧ _))

/-! ## Rooted trees -/

/-- Where nothing is found, nothing is found any number of names further down. -/
theorem IsRooted.node_append_eq_none (h : t.IsRooted) (hnone : t.node? dir = none)
    (names : List String) : t.node? (dir ++ names) = none := by
  induction names generalizing dir with
  | nil => rwa [List.append_nil]
  | cons name names ih =>
      have hnext : t.node? (dir ++ [name]) = none := h.node_eq_none hnone
      have hrest := ih hnext
      rwa [List.append_assoc] at hrest

/-- What leads on to something is a directory. -/
theorem IsRooted.directory_of_found (h : t.IsRooted)
    (hfound : t.node? (dir ++ name :: names) ≠ none) : t.node? dir = some .directory := by
  refine h dir name fun hnone => hfound ?_
  have hrest := h.node_append_eq_none hnone names
  rwa [List.append_assoc] at hrest

/-! ## The way to a path -/

/-- Nothing is in the way of a name that fits, in a directory that is there. -/
theorem name_obstacle_eq_none (hdir : t.node? dir = some .directory) (hname : FitsName name) :
    t.nameObstacle? dir name = none := by
  have hfits : ¬ nameLimit < name.utf8ByteSize := Nat.not_lt.2 hname
  simp [nameObstacle?, hdir, hfits]

/-- Nothing stands in the way of names that fit and lead to a place in a directory. -/
theorem IsRooted.names_obstacle_eq_none (h : t.IsRooted)
    (hdir : t.node? (dir ++ names) = some .directory) (hnames : ∀ n ∈ names, FitsName n)
    (hname : FitsName name) : t.namesObstacle? dir (names ++ [name]) = none := by
  induction names generalizing dir with
  | nil =>
      rw [List.append_nil] at hdir
      simp [namesObstacle?, name_obstacle_eq_none hdir hname]
  | cons n names ih =>
      obtain ⟨hn, hnames⟩ := List.forall_mem_cons.1 hnames
      have hfound : t.node? (dir ++ n :: names) ≠ none := by
        rw [hdir]
        exact Option.some_ne_none _
      have hfirst : t.nameObstacle? dir n = none :=
        name_obstacle_eq_none (h.directory_of_found hfound) hn
      have hrest : t.namesObstacle? (dir ++ [n]) (names ++ [name]) = none :=
        ih (by rwa [List.append_assoc]) hnames
      rw [List.cons_append, namesObstacle?, hfirst, hrest]
      rfl

/-- A path in a directory can be used if it is not too long. -/
theorem IsRooted.obstacle_eq_none (h : t.IsRooted) (hdir : t.node? dir = some .directory)
    (hfits : FitsPath (dir ++ [name])) : t.obstacle? (dir ++ [name]) = none := by
  obtain ⟨hlong, hnames⟩ := hfits
  rw [List.forall_mem_append] at hnames
  have hdir : t.node? ([] ++ dir) = some .directory := hdir
  have hway := h.names_obstacle_eq_none hdir hnames.1 (hnames.2 name List.mem_cons_self)
  rw [obstacle?, hlong, hway]
  rfl

/-- No file is in the way from one path on to another, but perhaps at its end. -/
def IsClear (t : FileTree) (dir : Path) (names : List String) : Prop :=
  ∀ front name back, names = front ++ name :: back →
    ∀ bytes, t.node? (dir ++ front) ≠ some (.file bytes)

/-- What stands in the way where no file does: that the way ends, or that a name is too long. -/
theorem IsRooted.names_obstacle_cases (h : t.IsRooted) (hclear : t.IsClear dir names) :
    t.namesObstacle? dir names = none ∨
      (t.namesObstacle? dir names = some .notFound ∧ t.node? (dir ++ names) = none) ∨
      (t.namesObstacle? dir names = some .nameTooLong ∧ ∃ name ∈ names, ¬ FitsName name) := by
  induction names generalizing dir with
  | nil => exact .inl rfl
  | cons name names ih =>
      have hrest : t.IsClear (dir ++ [name]) names := by
        rintro front other back rfl bytes
        rw [List.append_assoc]
        exact hclear (name :: front) other back rfl bytes
      have hnames : dir ++ [name] ++ names = dir ++ name :: names := by simp
      rw [namesObstacle?]
      cases hnode : t.node? dir with
      | none =>
          have hobstacle : t.nameObstacle? dir name = some .notFound := by
            simp [nameObstacle?, hnode]
          rw [hobstacle]
          exact .inr (.inl ⟨rfl, h.node_append_eq_none hnode _⟩)
      | some node =>
          cases node with
          | file bytes =>
              have hstart := hclear [] name names rfl bytes
              rw [List.append_nil] at hstart
              exact absurd hnode hstart
          | directory =>
              by_cases hname : FitsName name
              · rw [name_obstacle_eq_none hnode hname, ← hnames]
                refine (ih hrest).imp_right (Or.imp_right fun hlong => hlong.imp_right ?_)
                rintro ⟨long, hmem, hlimit⟩
                exact ⟨long, List.mem_cons_of_mem _ hmem, hlimit⟩
              · have hlimit : nameLimit < name.utf8ByteSize := Nat.not_le.1 hname
                have hobstacle : t.nameObstacle? dir name = some .nameTooLong := by
                  simp [nameObstacle?, hnode, hlimit]
                rw [hobstacle]
                exact .inr (.inr ⟨rfl, name, List.mem_cons_self, hname⟩)

/-! ## What succeeds -/

/-- What is read at the path of a file is what is found there, if no file is in its way and if it is
not too long. -/
theorem IsRooted.read_spec (h : t.IsRooted) (hclear : t.IsClear [] path) :
    t.read path = t.bytes path ∨ t.read path = .error .nameTooLong ∧ ¬ FitsPath path := by
  rw [read, obstacle?]
  cases hlong : isTooLong path with
  | true => exact .inr ⟨rfl, fun hfits => Bool.noConfusion (hlong.symm.trans hfits.1)⟩
  | false =>
      rcases h.names_obstacle_cases hclear with hway | ⟨hway, hnone⟩ | ⟨hway, name, hmem, hlimit⟩
      · rw [hway]
        exact .inl rfl
      · rw [List.nil_append] at hnone
        rw [hway, FileTree.bytes, hnone]
        exact .inl rfl
      · rw [hway]
        exact .inr ⟨rfl, fun hfits => hlimit (hfits.2 name hmem)⟩

/-- A file can be written where the way is free and no directory stands. -/
theorem write_eq (hway : t.obstacle? path = none) (hnode : t.node? path ≠ some .directory)
    (bytes : List UInt8) : t.write path bytes = .ok (t.put path (.file bytes)) := by
  have hdir : t.isDirectory path = false := by simpa [isDirectory] using hnode
  rw [write, hway, hdir]
  rfl

/-- A file can be moved to where it could be written. -/
theorem rename_eq {source target : Path} (hsource : t.obstacle? source = none)
    (hfile : t.node? source = some (.file bytes)) (htarget : t.obstacle? target = none)
    (hnode : t.node? target ≠ some .directory) :
    t.rename source target = .ok ((t.put target (.file bytes)).remove source) := by
  have hread : t.read source = .ok bytes := by
    rw [read, hsource, FileTree.bytes, hfile]
  rw [rename, hread]
  simp only [bind, Except.bind, write_eq htarget hnode]
  rfl

/-- Directories can be made along names that fit if there are no files. -/
theorem make_directories_ok (hdir : t.node? dir = some .directory)
    (hnames : ∀ n ∈ names, FitsName n)
    (hclear : ∀ front, front <+: names → ∀ bytes, t.node? (dir ++ front) ≠ some (.file bytes)) :
    (t.makeDirectories dir names).1 = .ok () ∧
      (t.makeDirectories dir names).2.node? (dir ++ names) = some .directory := by
  induction names generalizing t dir with
  | nil =>
      rw [List.append_nil]
      exact ⟨rfl, hdir⟩
  | cons name names ih =>
      obtain ⟨hname, hnames⟩ := List.forall_mem_cons.1 hnames
      have hrest (front : List String) (hfront : front <+: names) (bytes : List UInt8) :
          t.node? (dir ++ [name] ++ front) ≠ some (.file bytes) := by
        rw [List.append_assoc]
        exact hclear (name :: front) (List.cons_prefix_cons.2 ⟨rfl, hfront⟩) bytes
      have hpath : dir ++ name :: names = dir ++ [name] ++ names := by simp
      have hobstacle := name_obstacle_eq_none hdir hname
      rw [makeDirectories, hobstacle, hpath]
      cases hnode : t.node? (dir ++ [name]) with
      | some node =>
          cases node with
          | file bytes =>
              have hfile := hrest [] List.nil_prefix bytes
              rw [List.append_nil] at hfile
              exact absurd hnode hfile
          | directory => exact ih hnode hnames hrest
      | none =>
          have hne : dir ++ [name] ≠ [] := by simp
          refine ih (t := t.put (dir ++ [name]) .directory) ?_ hnames ?_
          · rw [node_put hne, if_pos rfl]
          · intro front hfront bytes
            rw [node_put hne]
            split
            · simp
            · exact hrest front hfront bytes

/-! ## Texts -/

/-- A path that leads on is no shorter as text. -/
theorem path_text_le (dir : Path) (names : List String) :
    (pathText dir).utf8ByteSize ≤ (pathText (dir ++ names)).utf8ByteSize := by
  unfold pathText
  by_cases hdir : dir = []
  · rw [hdir, String.intercalate_nil, String.utf8ByteSize_empty]
    exact Nat.zero_le _
  by_cases hnames : names = []
  · exact Nat.le_of_eq (by rw [hnames, List.append_nil])
  · rw [String.intercalate_append_of_ne_nil hdir hnames, String.utf8ByteSize_append,
      String.utf8ByteSize_append]
    omega

/-- So it fits if the path that it leads to does. -/
theorem FitsPath.of_append (h : FitsPath (dir ++ names)) : FitsPath dir := by
  obtain ⟨hlong, hnames⟩ := h
  have hle := path_text_le dir names
  refine ⟨?_, (List.forall_mem_append.1 hnames).1⟩
  unfold isTooLong at hlong ⊢
  rw [decide_eq_false_iff_not] at hlong ⊢
  omega

/-- A directory can be made if no file is in its way and if it is not too long. -/
theorem make_directory_ok (hfits : FitsPath path)
    (hclear : ∀ dir, dir <+: path → ∀ bytes, t.node? dir ≠ some (.file bytes)) :
    (t.makeDirectory path).1 = .ok () ∧ (t.makeDirectory path).2.node? path = some .directory := by
  have hmade := make_directories_ok (node_nil t) hfits.2 hclear
  rw [makeDirectory, hfits.1]
  exact hmade

end FileTree

/-- The bytes of a text are those of the text. -/
theorem text_of_bytes_of_text (text : String) : textOfBytes (bytesOfText text) = .ok text := by
  have hbytes : (⟨(bytesOfText text).toArray⟩ : ByteArray) = text.toUTF8 := rfl
  have hread : String.fromUTF8? text.toUTF8 = some text := dif_pos text.isValidUTF8
  rw [textOfBytes, hbytes, hread]

end Transcript
