import Transcript.CommandLine.FileName
import Transcript.Proofs.Store.File
import Transcript.Proofs.Text.Pattern

/-!
# Which names lead to a summary

A path that is written as a text is read again by its slashes. The names that are found then are
those of the path, one for one, if each of them is a proper one (`FileTree.names_along_of_names`).
The names of summaries are, whatever the session and the filter are called, so a summary lies four
names below the top directory, and never where another one needs a directory or has its draft
(`FileStore.names_lead_below_root`).
-/

namespace Transcript

namespace FileTree

/-! ## Names in a text -/

/-- A name that leads from a directory to something in it. -/
structure IsName (name : String) : Prop where
  ne_empty : name ≠ ""
  ne_here : name ≠ "."
  ne_above : name ≠ ".."
  no_slash : '/' ∉ name.toList

instance (name : String) : Decidable (IsName name) :=
  decidable_of_iff (name ≠ "" ∧ name ≠ "." ∧ name ≠ ".." ∧ '/' ∉ name.toList)
    ⟨fun ⟨h₁, h₂, h₃, h₄⟩ => ⟨h₁, h₂, h₃, h₄⟩,
      fun h => ⟨h.ne_empty, h.ne_here, h.ne_above, h.no_slash⟩⟩

/-- The names in the text of a path. An empty segment and a lone dot lead nowhere. -/
def namesIn (text : String) : List String :=
  (segments text).filter fun name => name ≠ "" ∧ name ≠ "."

/-- The names that are found along a path once it is written as a text. -/
def namesAlong (path : Path) : List String := namesIn (pathText path)

/-- A slash divides the segments before it from those behind it. -/
theorem segments_append_slash (a b : String) :
    segments (a ++ "/" ++ b) = segments a ++ segments b := by
  have hslash : "/".toList = ['/'] := by decide
  unfold segments
  rw [String.toList_append, String.toList_append, hslash, List.append_assoc, List.singleton_append,
    Text.pieces_append_cons, List.map_append]

/-- So it does with the names. -/
theorem names_in_append_slash (a b : String) :
    namesIn (a ++ "/" ++ b) = namesIn a ++ namesIn b := by
  unfold namesIn
  rw [segments_append_slash, List.filter_append]

/-- A proper name is found as it is. -/
theorem IsName.names_in {name : String} (h : IsName name) : namesIn name = [name] := by
  have hpiece : segments name = [name] := by
    unfold segments
    rw [Text.pieces_of_not_mem h.no_slash, List.map_singleton, String.ofList_toList]
  unfold namesIn
  rw [hpiece, List.filter_singleton]
  simp [h.ne_empty, h.ne_here]

/-- Along the empty path there are no names. -/
theorem names_along_nil : namesAlong [] = [] := by decide

/-- Names that follow each other are found one after the other. -/
theorem names_along_append (path names : Path) :
    namesAlong (path ++ names) = namesAlong path ++ namesAlong names := by
  by_cases hpath : path = []
  · rw [hpath, names_along_nil, List.nil_append, List.nil_append]
  by_cases hnames : names = []
  · rw [hnames, names_along_nil, List.append_nil, List.append_nil]
  unfold namesAlong pathText
  rw [String.intercalate_append_of_ne_nil hpath hnames]
  exact names_in_append_slash _ _

/-- Proper names are found as they are. -/
theorem names_along_of_names {names : Path} (h : ∀ name ∈ names, IsName name) :
    namesAlong names = names := by
  induction names with
  | nil => exact names_along_nil
  | cons name names ih =>
      obtain ⟨hname, hnames⟩ := List.forall_mem_cons.1 h
      have hfirst : namesAlong [name] = [name] := by
        unfold namesAlong pathText
        rw [String.intercalate_singleton]
        exact hname.names_in
      rw [← List.singleton_append, names_along_append, hfirst, ih hnames]

end FileTree

namespace FileStore

open FileTree

/-! ## Names of a store -/

/-- The written form of a text is a proper name. -/
theorem is_name_encode (s : String) : IsName (Text.Percent.encode s) := by
  have hnot {c : Char} (hother : Text.Percent.isNameLetter c = false) :
      c ∉ (Text.Percent.encode s).toList := by
    intro hmem
    rw [Text.Percent.is_name_letter_of_mem hmem] at hother
    cases hother
  have hdot : '.' ∉ (Text.Percent.encode s).toList := hnot (by decide)
  refine ⟨Text.Percent.encode_ne_empty s, ?_, ?_, hnot (by decide)⟩
  · intro h
    exact hdot (h ▸ by decide)
  · intro h
    exact hdot (h ▸ by decide)

/-- Where no slash is, an ending of more than two letters makes a proper name. -/
theorem is_name_append {name ending : String} (hname : '/' ∉ name.toList)
    (hending : '/' ∉ ending.toList) (hlength : 2 < ending.length) : IsName (name ++ ending) := by
  have hlonger {short : String} (hshort : short.length ≤ 2) : name ++ ending ≠ short := by
    intro h
    have hsum := congrArg String.length h
    rw [String.length_append] at hsum
    omega
  refine ⟨hlonger (by decide), hlonger (by decide), hlonger (by decide), ?_⟩
  rw [String.toList_append, List.mem_append, not_or]
  exact ⟨hname, hending⟩

/-- The name of a file is a proper name. -/
theorem is_name_file_name (filter : String) : IsName (fileName filter) := by
  by_cases hfilter : filter = ""
  · subst hfilter
    decide
  · rw [file_name_of_ne hfilter]
    exact is_name_append (is_name_encode filter).no_slash (by decide) (by decide)

/-- The digits of a number are no slashes. -/
theorem slash_not_mem_digits (n : Nat) : '/' ∉ Nat.toDigits 16 n := by
  have hdigit : ∀ d, d < 16 → '/' ≠ Nat.digitChar d := by decide
  induction n using Nat.strongRecOn with
  | ind n ih =>
      by_cases hsmall : n < 16
      · rw [Nat.toDigits_of_lt_base hsmall, List.mem_singleton]
        exact hdigit n hsmall
      · rw [Nat.toDigits_of_base_le (by decide) (Nat.not_lt.1 hsmall), List.mem_append,
          List.mem_singleton, not_or]
        exact ⟨ih (n / 16) (by omega), hdigit (n % 16) (by omega)⟩

/-- So is the name of a draft. -/
theorem is_name_draft_name (n : Nat) : IsName (draftName n) := by
  have hdigits : '/' ∉ (String.ofList (Nat.toDigits 16 n)).toList := by
    rw [String.toList_ofList]
    exact slash_not_mem_digits n
  have hfront : '/' ∉ (".summary-" ++ String.ofList (Nat.toDigits 16 n)).toList := by
    rw [String.toList_append, List.mem_append, not_or]
    exact ⟨by decide, hdigits⟩
  exact is_name_append hfront (by decide) (by decide)

/-- So are the names of the directories of a session. -/
theorem is_name_of_mem_session_path {session : SessionKey} {name : String}
    (h : name ∈ sessionPath session) : IsName name := by
  unfold sessionPath at h
  simp only [List.mem_cons, List.not_mem_nil, or_false] at h
  rcases h with rfl | rfl | rfl
  · exact is_name_encode session.app
  · exact is_name_encode session.user
  · exact is_name_encode session.session

/-- So are all names on the way to a summary. -/
theorem is_name_of_mem_scope_path {scope : Scope} {name : String} (h : name ∈ scopePath scope) :
    IsName name := by
  rcases List.mem_append.1 h with hsession | hfile
  · exact is_name_of_mem_session_path hsession
  · rw [List.mem_singleton.1 hfile]
    exact is_name_file_name scope.filter

/-- A session is known by its directories. -/
theorem session_path_injective : Function.Injective sessionPath := by
  rintro ⟨app, user, session⟩ ⟨app', user', session'⟩ h
  simp only [sessionPath, List.cons.injEq, and_true, Text.Percent.encode_injective.eq_iff] at h
  obtain ⟨rfl, rfl, rfl⟩ := h
  rfl

/-! ## Names along a path -/

section

variable (s : FileStore)

/-- The names on the way to the directory of a session. -/
theorem names_along_directory (session : SessionKey) :
    namesAlong (s.directory session) = namesAlong s.root ++ sessionPath session := by
  unfold directory
  rw [names_along_append, names_along_of_names fun _ => is_name_of_mem_session_path]

/-- The names on the way to a summary. -/
theorem names_along_summary_path (scope : Scope) :
    namesAlong (s.summaryPath scope) = namesAlong s.root ++ scopePath scope := by
  unfold summaryPath
  rw [names_along_append, names_along_of_names fun _ => is_name_of_mem_scope_path]

/-- The names on the way to a draft. -/
theorem names_along_draft_path (session : SessionKey) (n : Nat) :
    namesAlong (s.directory session ++ [draftName n]) =
      namesAlong s.root ++ (sessionPath session ++ [draftName n]) := by
  have hdraft : ∀ name ∈ [draftName n], IsName name := fun name hname =>
    List.mem_singleton.1 hname ▸ is_name_draft_name n
  rw [names_along_append, names_along_directory, names_along_of_names hdraft, List.append_assoc]

/-- A directory on the way to a summary has fewer names than any summary. -/
theorem length_names_along_lt {dir : Path} {other : Scope} (hway : dir <+: s.summaryPath other)
    (hdir : dir ≠ s.summaryPath other) (scope : Scope) :
    (namesAlong dir).length < (namesAlong (s.summaryPath scope)).length := by
  obtain ⟨rest, hrest⟩ := hway
  have hne : rest ≠ [] := fun hnil => hdir (by rw [← hrest, hnil, List.append_nil])
  -- The way ends in the name of a file, which is found in the text.
  obtain ⟨names, name, rfl⟩ := List.eq_nil_or_concat rest |>.resolve_left hne
  have hfile : s.summaryPath other = s.directory other.session ++ [fileName other.filter] :=
    (List.append_assoc ..).symm
  rw [hfile, List.concat_eq_append, ← List.append_assoc] at hrest
  obtain ⟨hfront, hname⟩ := List.append_inj' hrest rfl
  have hlength := congrArg (fun path => (namesAlong path).length) hfront
  simp only [names_along_append, names_along_directory, List.length_append] at hlength
  have hsession : (sessionPath other.session).length = 3 := rfl
  have hscope : (scopePath scope).length = 4 := rfl
  rw [names_along_summary_path, List.length_append]
  omega

end

/-- The written form of a text is never empty, is no dot or two dots, has only letters, digits, `-`,
`_` and `%`, and is read back as the bytes of the text; it is a lone `%` for the empty text alone.
So, where the top directory is and however the session and the filter are called, the names along
the path of a summary are those of the top directory and four more proper names. Different sessions
have different directories, and neither a directory on the way to a summary nor a draft has the path
of a summary. -/
theorem names_lead_below_root :
    (∀ text : String,
      Text.Percent.encode text ≠ "" ∧ Text.Percent.encode text ≠ "." ∧
        Text.Percent.encode text ≠ ".." ∧
        (Text.Percent.encode text).toList.all Text.Percent.isNameLetter = true ∧
        Text.Percent.decode (Text.Percent.encode text) = some (bytesOfText text) ∧
        (Text.Percent.encode text = "%" ↔ text = "")) ∧
      ∀ (s : FileStore) (scope : Scope),
        (namesAlong (s.summaryPath scope) = namesAlong s.root ++ scopePath scope ∧
          (scopePath scope).length = 4 ∧ ∀ name ∈ scopePath scope, IsName name) ∧
        (∀ other, namesAlong (s.directory scope.session) = namesAlong (s.directory other) ↔
          scope.session = other) ∧
        (∀ other dir, dir <+: s.summaryPath other → dir ≠ s.summaryPath other →
          namesAlong dir ≠ namesAlong (s.summaryPath scope)) ∧
        ∀ session n,
          namesAlong (s.directory session ++ [draftName n]) ≠ namesAlong (s.summaryPath scope) := by
  refine ⟨fun text => ?_, fun s scope => ⟨⟨?_, rfl, ?_⟩, fun other => ?_, ?_, ?_⟩⟩
  · obtain ⟨hempty, hdot, hdots, -⟩ := is_name_encode text
    refine ⟨hempty, hdot, hdots, ?_, Text.Percent.decode_encode text,
      Text.Percent.encode_eq_sign_iff text⟩
    exact List.all_eq_true.2 fun c hc => Text.Percent.is_name_letter_of_mem hc
  · exact s.names_along_summary_path scope
  · exact fun name => is_name_of_mem_scope_path
  · rw [names_along_directory, names_along_directory, List.append_cancel_left_eq,
      session_path_injective.eq_iff]
  · intro other dir hway hdir hsame
    have hlt := s.length_names_along_lt hway hdir scope
    rw [hsame] at hlt
    exact Nat.lt_irrefl _ hlt
  · intro session n hsame
    rw [names_along_draft_path, names_along_summary_path] at hsame
    have hnames := List.append_cancel_left hsame
    have hname := (List.append_inj' hnames rfl).2
    exact draft_name_ne_file_name _ _ (List.cons.inj hname).1

/-- A user without a name and a session with a slash lead below the top directory, from dots as
well. -/
theorem names_lead_below_root_odd_key :
    let s : FileStore := { root := ["", "srv/data"] }
    let scope : Scope := ⟨⟨"..", "", "a/ü"⟩, "%2F"⟩
    s.directory scope.session <+: s.summaryPath scope ∧
      s.directory scope.session ≠ s.summaryPath scope ∧
      Text.Percent.decode (Text.Percent.encode "a/ü") = some [0x61, 0x2F, 0xC3, 0xBC] ∧
      namesAlong (s.summaryPath scope) =
        ["srv", "data", "%2E%2E", "%", "a%2F%C3%BC", "%252F.json"] ∧
      IsName "%252F.json" ∧
      namesAlong (s.directory scope.session) ≠ namesAlong (s.summaryPath scope) := by
  intro s scope
  obtain ⟨hletters, hpaths⟩ := names_lead_below_root
  obtain ⟨⟨hnames, -, hproper⟩, -, hway, -⟩ := hpaths s scope
  obtain ⟨-, -, -, -, hread, -⟩ := hletters "a/ü"
  have hbytes : bytesOfText "a/ü" = [0x61, 0x2F, 0xC3, 0xBC] := by decide +kernel
  have hroot : namesAlong s.root = ["srv", "data"] := by decide +kernel
  have hscope : scopePath scope = ["%2E%2E", "%", "a%2F%C3%BC", "%252F.json"] := by decide +kernel
  have hinitial : s.directory scope.session <+: s.summaryPath scope :=
    ⟨[fileName scope.filter], List.append_assoc ..⟩
  have hne : s.directory scope.session ≠ s.summaryPath scope := by decide +kernel
  refine ⟨hinitial, hne, hbytes ▸ hread, ?_, ?_, hway scope _ hinitial hne⟩
  · rw [hnames, hroot, hscope]
    rfl
  · exact hproper _ (hscope ▸ by decide)

end FileStore

end Transcript
