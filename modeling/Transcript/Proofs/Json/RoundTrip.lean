import Transcript.Json.Decode
import Transcript.Proofs.Json.Digits

/-!
# Reading back JSON text

What is written for a value is read as the value, if the value `IsPlain` and the layout puts nothing
but space between the marks (`read_value_print`). The reader is followed step by step: a string is
read back character by character, items and members one after the other, and each time what follows
is left as it is. So the reading needs no more fuel than there are characters. What a decoder makes
of a value it makes of every text that holds it (`decode_text_of_holds`).
-/

namespace Transcript.Json

/-! ## Strings -/

/-- The two last digits of the escape of a control character tell the character. -/
theorem hex_unit_hex_letter :
    ∀ n, n < 0x20 → hexUnit? '0' '0' (hexLetter (n / 16)) (hexLetter (n % 16)) = some n := by decide

/-- A character that is written with its number is read back. -/
theorem read_string_unit {a b c d : Char} {n : Nat} (hunit : hexUnit? a b c d = some n)
    (hn : n < 0x20) (text : List Char) (early : Option Fault) (s : List Char) :
    readString text early ('\\' :: 'u' :: a :: b :: c :: d :: s) =
      readString (Char.ofNat n :: text) early s := by
  -- A number that small is no half of a pair.
  have hlow : isLowSurrogate n = false := by
    unfold isLowSurrogate
    simp
    omega
  have hhigh : isHighSurrogate n = false := by
    unfold isHighSurrogate
    simp
    omega
  rw [readString.eq_def]
  simp [hunit, hlow, hhigh]

/-- A character is read back, in front of any rest. -/
theorem read_string_escape (text : List Char) (early : Option Fault) (c : Char) (s : List Char) :
    readString text early (escape c ++ s) = readString (c :: text) early s := by
  unfold escape
  -- The characters that have an escape of their own.
  iterate 7
    split
    · subst c
      rfl
  split
  · rename_i hcontrol
    have hread := read_string_unit (hex_unit_hex_letter _ hcontrol) hcontrol text early s
    rwa [Char.ofNat_toNat] at hread
  · rename_i hquote hslash _ _ _ _ _ hcontrol
    rw [List.singleton_append, readString.eq_def]
    dsimp only
    rw [if_neg hquote, if_neg hslash, if_neg hcontrol]

/-- A string is read back, in front of any rest. -/
theorem read_string_quoted (text : List Char) (cs : List Char) (rest : List Char) :
    readString text none (cs.flatMap escape ++ '"' :: rest) =
      .read (String.ofList (text.reverse ++ cs)) rest := by
  induction cs generalizing text with
  | nil =>
      rw [List.flatMap_nil, List.nil_append, readString.eq_def, List.append_nil]
      rfl
  | cons c cs ih =>
      rw [List.flatMap_cons, List.append_assoc, read_string_escape, ih, List.reverse_cons,
        List.append_assoc, List.singleton_append]

/-- A string in quotes, in front of any rest. -/
theorem quote_append (s : String) (rest : List Char) :
    quote s ++ rest = '"' :: (s.toList.flatMap escape ++ '"' :: rest) := by
  simp [quote]

/-- What is written between quotes is read as the string, up to the closing quote. -/
theorem read_string_quote (s : String) (rest : List Char) :
    readString [] none (s.toList.flatMap escape ++ '"' :: rest) = .read s rest := by
  rw [read_string_quoted, List.reverse_nil, List.nil_append, String.ofList_toList]

/-! ## Space -/

/-- White space only. -/
def IsBlank (gap : List Char) : Prop := ∀ c ∈ gap, isSpace c = true

/-- White space in front of a text is skipped. -/
theorem skip_space_append {gap : List Char} (h : IsBlank gap) (s : List Char) :
    skipSpace (gap ++ s) = skipSpace s :=
  List.dropWhile_append_of_pos h

/-- Nothing is skipped in front of a character that is no space. -/
theorem skip_space_cons {c : Char} (h : isSpace c = false) (s : List Char) :
    skipSpace (c :: s) = c :: s :=
  List.dropWhile_cons_of_neg (Bool.eq_false_iff.1 h)

/-- A blank gap is skipped, up to the first character that is no space. -/
theorem skip_space_to {gap : List Char} (h : IsBlank gap) {c : Char} (hc : isSpace c = false)
    (s : List Char) : skipSpace (gap ++ c :: s) = c :: s := by
  rw [skip_space_append h, skip_space_cons hc]

/-- Every reader starts by skipping space. -/
theorem read_value_blank {gap : List Char} (h : IsBlank gap) (fuel depth : Nat) (s : List Char) :
    readValue fuel depth (gap ++ s) = readValue fuel depth s := by
  cases fuel with
  | zero => rw [readValue, readValue]
  | succ fuel => rw [readValue, readValue, skip_space_append h]

/-- A blank gap in front of items makes no difference. -/
theorem read_items_blank {gap : List Char} (h : IsBlank gap) (fuel depth : Nat) (first : Bool)
    (s : List Char) : readItems fuel depth first (gap ++ s) = readItems fuel depth first s := by
  cases fuel with
  | zero => rw [readItems, readItems]
  | succ fuel => rw [readItems, readItems, skip_space_append h]

/-- Nor does one in front of members. -/
theorem read_members_blank {gap : List Char} (h : IsBlank gap) (fuel depth : Nat) (first : Bool)
    (s : List Char) : readMembers fuel depth first (gap ++ s) = readMembers fuel depth first s := by
  cases fuel with
  | zero => rw [readMembers, readMembers]
  | succ fuel => rw [readMembers, readMembers, skip_space_append h]

/-- A comma or a closing bracket ends a number. -/
theorem ends_number_cons {c : Char} (hc : c = ',' ∨ c = ']' ∨ c = '}') (s : List Char) :
    EndsNumber (c :: s) := by
  rintro _ ⟨⟩
  rcases hc with rfl | rfl | rfl <;> decide

/-- Neither a mark nor space in front of one is taken for a part of a number. -/
theorem ends_number_of_blank {gap : List Char} (h : IsBlank gap) {c : Char}
    (hc : c = ',' ∨ c = ']' ∨ c = '}') (s : List Char) : EndsNumber (gap ++ c :: s) := by
  cases gap with
  | nil => exact ends_number_cons hc s
  | cons space gap =>
      rintro _ ⟨⟩
      have hspace := h space List.mem_cons_self
      simp only [isSpace, Bool.or_eq_true, beq_iff_eq] at hspace
      rcases hspace with ((rfl | rfl) | rfl) | rfl <;> decide

/-! ## Steps of the reader -/

variable {fuel depth : Nat} {first : Bool} {s s' tail rest : List Char}

/-- A quote starts a string. -/
theorem read_value_string (fuel depth : Nat) (s : List Char) :
    readValue (fuel + 1) depth ('"' :: s) = (readString [] none s).toReading := by
  simp [readValue, skipSpace, isSpace]

/-- A bracket starts an array. -/
theorem read_value_array (fuel depth : Nat) (s : List Char) :
    readValue (fuel + 1) depth ('[' :: s) =
      enclose depth (.array (readItems fuel (depth + 1) true s).1)
        (readItems fuel (depth + 1) true s).2 := by
  simp [readValue, skipSpace, isSpace]

/-- A brace starts an object. -/
theorem read_value_object (fuel depth : Nat) (s : List Char) :
    readValue (fuel + 1) depth ('{' :: s) =
      enclose depth (.object (readMembers fuel (depth + 1) true s).1)
        (readMembers fuel (depth + 1) true s).2 := by
  simp [readValue, skipSpace, isSpace]

/-- A digit is not what is none. -/
theorem ne_of_digit {c d : Char} (hc : c.isDigit = true) (hd : d.isDigit = false) : c ≠ d := by
  rintro rfl
  exact Bool.noConfusion (hc.symm.trans hd)

/-- A digit is no space. -/
theorem is_space_of_digit {c : Char} (hc : c.isDigit = true) : isSpace c = false := by
  have hne {d : Char} (hd : d.isDigit = false) : c ≠ d := ne_of_digit hc hd
  simp [isSpace, hne (d := ' ') rfl, hne (d := '\n') rfl, hne (d := '\t') rfl, hne (d := '\r') rfl]

/-- A digit starts a number. -/
theorem read_value_digit {c : Char} (hc : c.isDigit = true) (fuel depth : Nat) (s : List Char) :
    readValue (fuel + 1) depth (c :: s) = readNumber (c :: s) := by
  have hne {d : Char} (hd : d.isDigit = false) : c ≠ d := ne_of_digit hc hd
  rw [readValue, skip_space_cons (is_space_of_digit hc)]
  simp [hne (d := '"') rfl, hne (d := '[') rfl, hne (d := '{') rfl, hne (d := 'n') rfl,
    hne (d := 't') rfl, hne (d := 'f') rfl, hc]

/-- A text that starts with something other than space and closing brackets. -/
def StartsValue (s : List Char) : Prop := ∃ c s', s = c :: s' ∧ isSpace c = false ∧ c ≠ ']'

/-- An array may end at once. -/
theorem read_items_empty (fuel depth : Nat) (rest : List Char) :
    readItems (fuel + 1) depth true (']' :: rest) = ([], some rest) := by
  simp [readItems, skipSpace, isSpace]

/-- So may an object. -/
theorem read_members_empty (fuel depth : Nat) (rest : List Char) :
    readMembers (fuel + 1) depth true ('}' :: rest) = ([], some rest) := by
  simp [readMembers, skipSpace, isSpace]

/-- The last item of a list. -/
theorem read_items_last (hstart : StartsValue s) {v : Value}
    (hvalue : readValue fuel depth s = (v, some tail)) (htail : skipSpace tail = ']' :: rest) :
    readItems (fuel + 1) depth first s = ([v], some rest) := by
  obtain ⟨c, s', rfl, hspace, hclose⟩ := hstart
  rw [readItems, skip_space_cons hspace]
  simp [hclose, hvalue, htail]

/-- An item that another one follows. -/
theorem read_items_more (hstart : StartsValue s) {v : Value}
    (hvalue : readValue fuel depth s = (v, some tail)) (htail : skipSpace tail = ',' :: rest)
    {vs : List Value} {after : Option (List Char)}
    (hitems : readItems fuel depth false rest = (vs, after)) :
    readItems (fuel + 1) depth first s = (v :: vs, after) := by
  obtain ⟨c, s', rfl, hspace, hclose⟩ := hstart
  rw [readItems, skip_space_cons hspace]
  simp [hclose, hvalue, htail, hitems]

/-- The last member of an object. -/
theorem read_members_last {name : String} {v : Value}
    (hname : readString [] none s = .read name (':' :: s'))
    (hvalue : readValue fuel depth s' = (v, some tail)) (htail : skipSpace tail = '}' :: rest) :
    readMembers (fuel + 2) depth first ('"' :: s) = ([(name, v)], some rest) := by
  rw [readMembers, skip_space_cons (by decide)]
  simp [hname, readMember, skip_space_cons (c := ':') (by decide), hvalue, htail]

/-- A member that another one follows. -/
theorem read_members_more {name : String} {v : Value}
    (hname : readString [] none s = .read name (':' :: s'))
    (hvalue : readValue fuel depth s' = (v, some tail)) (htail : skipSpace tail = ',' :: rest)
    {ms : List (String × Value)} {after : Option (List Char)}
    (hmembers : readMembers fuel depth false rest = (ms, after)) :
    readMembers (fuel + 2) depth first ('"' :: s) = ((name, v) :: ms, after) := by
  rw [readMembers, skip_space_cons (by decide)]
  simp [hname, readMember, skip_space_cons (c := ':') (by decide), hvalue, htail, hmembers]

/-! ## Values -/

namespace Value

mutual
/-- The value can be written inside `depth` brackets and read back: no place in it is broken, its
numbers are counts that fit a machine word, and there are not too many brackets around any part of
it. -/
def IsPlain (depth : Nat) : Value → Prop
  | .null => True
  | .bool _ => True
  | .number n => ∃ k < wordLimit, n = { coefficient := k }
  | .string _ => True
  | .array items => depth < nestingLimit ∧ ArePlain (depth + 1) items
  | .object members => depth < nestingLimit ∧ MembersArePlain (depth + 1) members
  | .broken _ => False

/-- All the values are plain. -/
def ArePlain (depth : Nat) : List Value → Prop
  | [] => True
  | v :: vs => v.IsPlain depth ∧ ArePlain depth vs

/-- The values of all the members are plain. -/
def MembersArePlain (depth : Nat) : List (String × Value) → Prop
  | [] => True
  | (_, v) :: ms => v.IsPlain depth ∧ MembersArePlain depth ms
end

end Value

/-- Items are plain if each of them is. -/
theorem Value.are_plain_iff {depth : Nat} {items : List Value} :
    ArePlain depth items ↔ ∀ v ∈ items, v.IsPlain depth := by
  induction items with
  | nil => simp [ArePlain]
  | cons v vs ih => simp [ArePlain, ih]

/-- Members are plain if the value of each of them is. -/
theorem Value.members_are_plain_iff {depth : Nat} {members : List (String × Value)} :
    MembersArePlain depth members ↔ ∀ m ∈ members, m.2.IsPlain depth := by
  induction members with
  | nil => simp [MembersArePlain]
  | cons m ms ih => simp [MembersArePlain, ih]

/-- A layout that puts nothing but space between the marks. -/
structure Layout.IsSpacious (l : Layout) : Prop where
  gap : ∀ depth, IsBlank (l.gap depth)
  colon : ∃ space, l.colon = ':' :: space ∧ IsBlank space

/-- The layout with line breaks puts nothing but space between the marks. -/
theorem Layout.is_spacious_pretty : Layout.pretty.IsSpacious where
  gap depth := by
    intro c hc
    rcases List.mem_cons.1 hc with rfl | hc
    · rfl
    · rw [(List.mem_replicate.1 hc).2]
      rfl
  colon := ⟨[' '], rfl, by simp [IsBlank, isSpace]⟩

/-- So does the layout without any. -/
theorem Layout.is_spacious_compact : Layout.compact.IsSpacious where
  gap _ := fun _ hc => nomatch hc
  colon := ⟨[], rfl, fun _ hc => nomatch hc⟩

/-- The digits of a number start with a digit. -/
theorem digits_cons (n : Nat) : ∃ c cs, digits n = c :: cs ∧ c.isDigit = true := by
  obtain ⟨c, cs, hcons⟩ := List.exists_cons_of_ne_nil (Nat.toDigits_ne_nil (n := n) (b := 10))
  exact ⟨c, cs, hcons, is_digit_of_mem (hcons ▸ List.mem_cons_self)⟩

/-- A count is written with its digits alone. -/
theorem print_count (k : Nat) : Number.print { coefficient := k } = digits k := by
  simp [Number.print]

/-- The text of a plain value does not start with space or a closing bracket. -/
theorem starts_value_print (l : Layout) {depth : Nat} {v : Value} (h : v.IsPlain depth)
    (rest : List Char) : StartsValue (v.print l depth ++ rest) := by
  cases v with
  | null => exact ⟨'n', _, rfl, rfl, by decide⟩
  | bool b => cases b <;> exact ⟨_, _, rfl, rfl, by decide⟩
  | number n =>
      obtain ⟨k, -, rfl⟩ := h
      obtain ⟨c, cs, hcons, hdigit⟩ := digits_cons k
      have htext : Value.print l depth (.count k) ++ rest = c :: (cs ++ rest) := by
        rw [Value.count, Value.print, print_count, hcons, List.cons_append]
      exact ⟨c, _, htext, is_space_of_digit hdigit, ne_of_digit hdigit rfl⟩
  | string s => exact ⟨'"', _, rfl, rfl, by decide⟩
  | array items => cases items <;> exact ⟨'[', _, rfl, rfl, by decide⟩
  | object members =>
      cases members with
      | nil => exact ⟨'{', _, rfl, rfl, by decide⟩
      | cons m ms => exact ⟨'{', _, rfl, rfl, by decide⟩
  | broken b => exact h.elim

/-- Items are written with a comma in front. -/
theorem print_items_cons (l : Layout) (depth : Nat) {items : List Value} (hne : items ≠ []) :
    Value.printItems l depth items = ',' :: (Value.printItems l depth items).tail := by
  cases items with
  | nil => exact absurd rfl hne
  | cons v vs => rfl

/-- An array with items is written without the first comma. -/
theorem print_array (l : Layout) (depth : Nat) {items : List Value} (hne : items ≠ []) :
    Value.print l depth (.array items) =
      '[' :: ((Value.printItems l (depth + 1) items).tail ++ (l.gap depth ++ [']'])) := by
  cases items with
  | nil => exact absurd rfl hne
  | cons v vs => simp [Value.print, Value.printItems]

/-- Members are written with a comma in front. -/
theorem print_members_cons (l : Layout) (depth : Nat) {members : List (String × Value)}
    (hne : members ≠ []) :
    Value.printMembers l depth members = ',' :: (Value.printMembers l depth members).tail := by
  cases members with
  | nil => exact absurd rfl hne
  | cons m ms => rfl

/-- An object with members is written without the first comma. -/
theorem print_object (l : Layout) (depth : Nat) {members : List (String × Value)}
    (hne : members ≠ []) :
    Value.print l depth (.object members) =
      '{' :: ((Value.printMembers l (depth + 1) members).tail ++ (l.gap depth ++ ['}'])) := by
  cases members with
  | nil => exact absurd rfl hne
  | cons m ms => simp [Value.print, Value.printMembers]

section

variable {l : Layout} (hl : l.IsSpacious)

include hl

mutual
/-- The text of a plain value is read as the value, with what follows it left. -/
theorem read_value_print (v : Value) {fuel depth : Nat} {rest : List Char}
    (hplain : v.IsPlain depth) (hfuel : (v.print l depth).length ≤ fuel) (hrest : EndsNumber rest) :
    readValue fuel depth (v.print l depth ++ rest) = (v, some rest) := by
  -- Every text has a character, and so a unit of fuel is there for the value itself.
  have hpos : 0 < (v.print l depth).length := by
    obtain ⟨c, s', htext, -⟩ := starts_value_print l hplain []
    rw [← List.append_nil (v.print l depth), htext]
    exact Nat.succ_pos _
  obtain ⟨fuel, rfl⟩ : ∃ n, fuel = n + 1 := ⟨fuel - 1, by omega⟩
  match v with
  | .null => simp [Value.print, readValue, skipSpace, isSpace, readLiteral, readWord]
  | .bool true => simp [Value.print, readValue, skipSpace, isSpace, readLiteral, readWord]
  | .bool false => simp [Value.print, readValue, skipSpace, isSpace, readLiteral, readWord]
  | .number n =>
      obtain ⟨k, hk, rfl⟩ := hplain
      obtain ⟨c, cs, hcons, hdigit⟩ := digits_cons k
      have hnumber := read_number_digits hk hrest
      rw [hcons, List.cons_append] at hnumber
      rw [Value.print, print_count, hcons, List.cons_append, read_value_digit hdigit, hnumber]
      rfl
  | .string s =>
      rw [Value.print, quote_append, read_value_string, read_string_quote]
      rfl
  | .array items =>
      obtain ⟨hdepth, hitems⟩ := hplain
      by_cases hempty : items = []
      · -- No gap is written between brackets with nothing in them.
        subst hempty
        have htwo : 2 ≤ fuel + 1 := hfuel
        obtain ⟨fuel, rfl⟩ : ∃ n, fuel = n + 1 := ⟨fuel - 1, by omega⟩
        show readValue (fuel + 2) depth ('[' :: ']' :: rest) = _
        rw [read_value_array, read_items_empty, enclose, if_pos hdepth]
      · rw [print_array l depth hempty] at hfuel ⊢
        have hlength := congrArg List.length (print_items_cons l (depth + 1) hempty)
        simp only [List.length_cons, List.length_append, List.cons_append, List.append_assoc,
          List.nil_append] at hlength hfuel ⊢
        rw [read_value_array, read_items_print items hempty hitems (by omega) (hl.gap depth),
          enclose, if_pos hdepth]
  | .object members =>
      obtain ⟨hdepth, hmembers⟩ := hplain
      by_cases hempty : members = []
      · subst hempty
        have htwo : 2 ≤ fuel + 1 := hfuel
        obtain ⟨fuel, rfl⟩ : ∃ n, fuel = n + 1 := ⟨fuel - 1, by omega⟩
        show readValue (fuel + 2) depth ('{' :: '}' :: rest) = _
        rw [read_value_object, read_members_empty, enclose, if_pos hdepth]
      · rw [print_object l depth hempty] at hfuel ⊢
        have hlength := congrArg List.length (print_members_cons l (depth + 1) hempty)
        simp only [List.length_cons, List.length_append, List.cons_append, List.append_assoc,
          List.nil_append] at hlength hfuel ⊢
        rw [read_value_object, read_members_print members hempty hmembers (by omega) (hl.gap depth),
          enclose, if_pos hdepth]
  | .broken b => exact hplain.elim

/-- So is that of items, up to the closing bracket. -/
theorem read_items_print (items : List Value) (hne : items ≠ []) {fuel depth : Nat} {first : Bool}
    (hplain : Value.ArePlain depth items) (hfuel : (Value.printItems l depth items).length ≤ fuel)
    {gap : List Char} (hgap : IsBlank gap) (rest : List Char) :
    readItems fuel depth first ((Value.printItems l depth items).tail ++ (gap ++ ']' :: rest)) =
      (items, some rest) := by
  match items with
  | [] => exact absurd rfl hne
  | v :: vs =>
      obtain ⟨hv, hvs⟩ := hplain
      simp only [Value.printItems, List.length_cons, List.length_append, List.cons_append,
        List.tail_cons, List.append_assoc] at hfuel ⊢
      obtain ⟨fuel, rfl⟩ : ∃ n, fuel = n + 1 := ⟨fuel - 1, by omega⟩
      rw [read_items_blank (hl.gap depth)]
      by_cases hlast : vs = []
      · subst hlast
        refine read_items_last (starts_value_print l hv _) ?_ (skip_space_to hgap rfl rest)
        exact read_value_print v hv (by omega) (ends_number_of_blank hgap (.inr (.inl rfl)) rest)
      · rw [print_items_cons l depth hlast, List.cons_append]
        refine read_items_more (starts_value_print l hv _) ?_ (skip_space_cons rfl _)
          (read_items_print vs hlast hvs (by omega) hgap rest)
        exact read_value_print v hv (by omega) (ends_number_cons (.inl rfl) _)

/-- And that of members, up to the closing brace. -/
theorem read_members_print (members : List (String × Value)) (hne : members ≠ []) {fuel depth : Nat}
    {first : Bool} (hplain : Value.MembersArePlain depth members)
    (hfuel : (Value.printMembers l depth members).length ≤ fuel) {gap : List Char}
    (hgap : IsBlank gap) (rest : List Char) :
    readMembers fuel depth first ((Value.printMembers l depth members).tail ++
      (gap ++ '}' :: rest)) =
      (members, some rest) := by
  match members with
  | [] => exact absurd rfl hne
  | (name, v) :: ms =>
      obtain ⟨hv, hms⟩ := hplain
      obtain ⟨space, hcolon, hspace⟩ := hl.colon
      simp only [Value.printMembers, quote, hcolon, List.length_cons, List.length_append,
        List.cons_append, List.tail_cons, List.append_assoc, List.nil_append] at hfuel ⊢
      -- The row of members and the member take a unit each: the comma and the quotes pay for them.
      obtain ⟨fuel, rfl⟩ : ∃ n, fuel = n + 2 := ⟨fuel - 2, by omega⟩
      rw [read_members_blank (hl.gap depth)]
      by_cases hlast : ms = []
      · subst hlast
        refine read_members_last (read_string_quote name _) ?_ (skip_space_to hgap rfl rest)
        rw [read_value_blank hspace]
        exact read_value_print v hv (by omega) (ends_number_of_blank hgap (.inr (.inr rfl)) rest)
      · rw [print_members_cons l depth hlast, List.cons_append]
        refine read_members_more (read_string_quote name _) ?_ (skip_space_cons rfl _)
          (read_members_print ms hlast hms (by omega) hgap rest)
        rw [read_value_blank hspace]
        exact read_value_print v hv (by omega) (ends_number_cons (.inl rfl) _)
end

/-- A plain value is read back from its text. -/
theorem read_text_print {v : Value} (hplain : v.IsPlain 0) :
    readText (v.print l 0) = (v, some []) := by
  have hfuel : (v.print l 0).length ≤ 2 * (v.print l 0).length + 2 := by omega
  have hend : EndsNumber [] := fun _ h => nomatch h
  have hread := read_value_print hl v hplain hfuel hend
  rwa [List.append_nil] at hread

end

/-! ## Texts that hold a value -/

/-- The text is that of the value, with nothing but space around it. -/
def Holds (text : String) (v : Value) : Prop :=
  ∃ rest, readText text.toList = (v, some rest) ∧ skipSpace rest = []

/-- The text of a plain value holds the value. -/
theorem holds_print {l : Layout} (hl : l.IsSpacious) {v : Value} (hplain : v.IsPlain 0) :
    Holds (String.ofList (v.print l 0)) v :=
  ⟨[], by rw [String.toList_ofList, read_text_print hl hplain], rfl⟩

/-- What a decoder makes of a value is what it makes of a text that holds the value. -/
theorem decode_text_of_holds {α : Type} (decode : Decoder α) {text : String} {v : Value}
    (h : Holds text v) : decodeText decode text = decode v := by
  obtain ⟨rest, hread, hrest⟩ := h
  unfold decodeText
  rw [hread]
  dsimp only
  rw [hrest]
  cases decode v <;> rfl

/-- So it is with the text of a plain value. -/
theorem decode_text_pretty {α : Type} (decode : Decoder α) {v : Value} (hplain : v.IsPlain 0) :
    decodeText decode v.pretty = decode v :=
  decode_text_of_holds decode (holds_print Layout.is_spacious_pretty hplain)

end Transcript.Json
