import Mathlib.Data.List.Forall2
import Mathlib.Data.Option.Basic
import TargetGen.Json.Reader
import TargetGen.Json.Writer

/-!
# JSON texts — what is written is read back

A value without numbers, all of whose strings have a text, is determined by its text: the
reader gives it back and stops behind it, whatever follows. Strings come first. Every
character is written so that it is one piece for the reader, be it as it stands, by a letter
or by its number; a number that is written is below 32, so no two of them make one
character. Values follow by induction. Each step into a value passes at least one character, so
as many steps as there are characters are enough.
-/

namespace TargetGen.Json

/-! ## Characters and strings -/

theorem hexValue_hexDigit : ∀ n < 16, hexValue (hexDigit n) = some n := by decide

/-- Put one piece in front of what is read behind it. -/
def pushPiece (p : Piece) (read : Option (List Piece × List Char)) :
    Option (List Piece × List Char) :=
  read.map fun (content, after) => (p :: content, after)

theorem pushPiece_eq (p : Piece) (read : Option (List Piece × List Char)) :
    (do let (content, after) ← read; return (p :: content, after)) = pushPiece p read := by
  cases read <;> rfl

theorem pieces_plain {c : Char} (rest : List Char) (hlarge : 32 ≤ c.toNat) (hquote : c ≠ '"')
    (hslash : c ≠ '\\') : pieces (c :: rest) = pushPiece (.char c) (pieces rest) := by
  rw [pieces, guard, if_pos ⟨hlarge, hslash⟩]
  · exact pushPiece_eq _ _
  · exact hquote
  · exact fun _ _ _ _ _ h => absurd h hslash
  · exact fun _ _ h => absurd h hslash

theorem pieces_letter {letter c : Char} (rest : List Char) (h : unescape letter = some c) :
    pieces ('\\' :: letter :: rest) = pushPiece (.char c) (pieces rest) := by
  rw [pieces, h]
  · exact pushPiece_eq _ _
  · rintro _ _ _ _ _ rfl
    exact absurd h (Option.some_ne_none c).symm

theorem pieces_number {a b : Char} {m n : Nat} (rest : List Char) (ha : hexValue a = some m)
    (hb : hexValue b = some n) :
    pieces ('\\' :: 'u' :: '0' :: '0' :: a :: b :: rest) =
      pushPiece (.unit (m * 16 + n)) (pieces rest) := by
  have hunit : hexUnit '0' '0' a b = some (m * 16 + n) := by
    have hzero : hexValue '0' = some 0 := by decide
    simp [hexUnit, hzero, ha, hb]
  rw [pieces, hunit]
  exact pushPiece_eq _ _

/-- What a character is for the reader: itself, or a number below 32. -/
inductive PieceOf (c : Char) : Piece → Prop where
  | char : PieceOf c (.char c)
  | unit : c.toNat < 32 → PieceOf c (.unit c.toNat)

theorem escape_cases (c : Char) :
    (∃ letter, escape c = ['\\', letter] ∧ unescape letter = some c) ∨
    (c.toNat < 32 ∧
      escape c = ['\\', 'u', '0', '0', hexDigit (c.toNat / 16), hexDigit (c.toNat % 16)]) ∨
    (32 ≤ c.toNat ∧ c ≠ '"' ∧ c ≠ '\\' ∧ escape c = [c]) := by
  by_cases hletter : c ∈ ['"', '\\', '\x08', '\x0c', '\n', '\r', '\t']
  · simp only [List.mem_cons, List.not_mem_nil, or_false] at hletter
    rcases hletter with rfl | rfl | rfl | rfl | rfl | rfl | rfl <;> exact .inl ⟨_, rfl, rfl⟩
  · simp only [List.mem_cons, List.not_mem_nil, or_false, not_or] at hletter
    obtain ⟨hquote, hslash, hb, hf, hn, hr, ht⟩ := hletter
    rw [escape, if_neg hquote, if_neg hslash, if_neg hb, if_neg hf, if_neg hn, if_neg hr,
      if_neg ht]
    by_cases hsmall : c.toNat < 32
    · exact .inr (.inl ⟨hsmall, if_pos hsmall⟩)
    · exact .inr (.inr ⟨Nat.le_of_not_lt hsmall, hquote, hslash, if_neg hsmall⟩)

/-- **A written character** is one piece for the reader. -/
theorem exists_pieces_escape (c : Char) :
    ∃ p, PieceOf c p ∧ ∀ rest, pieces (escape c ++ rest) = pushPiece p (pieces rest) := by
  rcases escape_cases c with ⟨letter, hescape, hletter⟩ | ⟨hsmall, hescape⟩ |
    ⟨hlarge, hquote, hslash, hescape⟩
  · refine ⟨.char c, .char, fun rest => ?_⟩
    rw [hescape]
    exact pieces_letter rest hletter
  · refine ⟨.unit c.toNat, .unit hsmall, fun rest => ?_⟩
    have hfirst := hexValue_hexDigit (c.toNat / 16) (by omega)
    have hsecond := hexValue_hexDigit (c.toNat % 16) (by omega)
    have hread := pieces_number rest hfirst hsecond
    rw [Nat.div_add_mod'] at hread
    rw [hescape]
    exact hread
  · refine ⟨.char c, .char, fun rest => ?_⟩
    rw [hescape]
    exact pieces_plain rest hlarge hquote hslash

/-- A small number is no half of another character, whatever follows it. -/
theorem decode_unit {n : Nat} (hsmall : n < 32) (ps : List Piece) :
    decode (.unit n :: ps) = (decode ps).map (Char.ofNat n :: ·) := by
  have hleading : isLeading n = false := by
    rw [isLeading, Bool.and_eq_false_iff, decide_eq_false_iff_not]
    omega
  have htrailing : isTrailing n = false := by
    rw [isTrailing, Bool.and_eq_false_iff, decide_eq_false_iff_not]
    omega
  cases ps with
  | nil => simp [decode, hleading, htrailing]
  | cons p rest =>
    cases p with
    | char c => simp [decode, hleading, htrailing]
    | unit m => simp [decode, hleading, htrailing]

theorem decode_of_pieces {cs : List Char} {ps : List Piece} (h : List.Forall₂ PieceOf cs ps) :
    decode ps = some cs := by
  induction h with
  | nil => rfl
  | @cons c p cs ps hp hps ih =>
    cases hp with
    | char => rw [decode, ih, Option.map_some]
    | unit hsmall => rw [decode_unit hsmall, ih, Option.map_some, Char.ofNat_toNat]

theorem exists_pieces (cs rest : List Char) :
    ∃ ps, List.Forall₂ PieceOf cs ps ∧
      pieces (cs.flatMap escape ++ '"' :: rest) = some (ps, rest) := by
  induction cs with
  | nil => exact ⟨[], .nil, by rw [List.flatMap_nil, List.nil_append, pieces]⟩
  | cons c cs ih =>
    obtain ⟨p, hp, hread⟩ := exists_pieces_escape c
    obtain ⟨ps, hps, hrest⟩ := ih
    refine ⟨p :: ps, .cons hp hps, ?_⟩
    rw [List.flatMap_cons, List.append_assoc, hread, hrest]
    rfl

/-- **A written string** is read back after its opening quote. -/
theorem stringBody_written (s : String) (rest : List Char) :
    stringBody (s.toList.flatMap escape ++ '"' :: rest) = some (some s, rest) := by
  obtain ⟨ps, hps, hread⟩ := exists_pieces s.toList rest
  simp [stringBody, hread, decode_of_pieces hps]

/-! ## Values -/

/-- No number stands in a value, and every string and key in it has a text. -/
inductive Worded : Json → Prop where
  | null : Worded .null
  | bool (value : Bool) : Worded (.bool value)
  | string (s : String) : Worded (.string (some s))
  | array {items : List Json} : (∀ item ∈ items, Worded item) → Worded (.array items)
  | object {members : List (Option String × Json)} :
      (∀ member ∈ members, ∃ key, member.1 = some key) → (∀ member ∈ members, Worded member.2) →
      Worded (.object members)

/-- A value is read back in as many steps as it has characters, and so is what follows it. -/
def ReadsBack (json : Json) : Prop :=
  ∀ depth rest, (written json).length ≤ depth →
    value depth (written json ++ rest) = some (json, rest)

theorem skipBlanks_cons {c : Char} (rest : List Char) (h : isBlank c = false) :
    skipBlanks (c :: rest) = c :: rest :=
  List.dropWhile_cons_of_neg (by simp [h])

/-- A value is not taken for a blank or for the end of an array. -/
theorem Worded.head {json : Json} (h : Worded json) :
    ∃ c rest, written json = c :: rest ∧ isBlank c = false ∧ c ≠ ']' := by
  cases h with
  | null => exact ⟨_, _, rfl, by decide, by decide⟩
  | bool value => cases value <;> exact ⟨_, _, rfl, by decide, by decide⟩
  | string s => exact ⟨_, _, rfl, by decide, by decide⟩
  | @array items _ => cases items <;> exact ⟨_, _, rfl, by decide, by decide⟩
  | @object members _ _ => cases members <;> exact ⟨_, _, rfl, by decide, by decide⟩

theorem value_array {depth : Nat} {cs after after' : List Char} {item : Json} {more : List Json}
    {c : Char} {rest : List Char} (hhead : skipBlanks cs = c :: rest) (hopen : c ≠ ']')
    (hitem : value depth cs = some (item, after))
    (hmore : items depth after = some (more, after')) :
    value (depth + 1) ('[' :: cs) = some (.array (item :: more), after') := by
  rw [value, skipBlanks_cons cs (by decide)]
  simp only [hhead]
  split
  next h => exact absurd (List.cons.inj h).1 hopen
  next => simp [hitem, hmore]

theorem value_object {depth : Nat} {cs after after' : List Char} {first : Option String × Json}
    {more : List (Option String × Json)} {c : Char} {rest : List Char}
    (hhead : skipBlanks cs = c :: rest) (hopen : c ≠ '\x7d')
    (hfirst : member depth cs = some (first, after))
    (hmore : members depth after = some (more, after')) :
    value (depth + 1) ('\x7b' :: cs) = some (.object (first :: more), after') := by
  rw [value, skipBlanks_cons cs (by decide)]
  simp only [hhead]
  split
  next h => exact absurd (List.cons.inj h).1 hopen
  next => simp [hfirst, hmore]

/-- **The items after the first one** are read back if each of them is. -/
theorem items_written {more : List Json} (h : ∀ item ∈ more, ReadsBack item) (depth : Nat)
    (rest : List Char) (hdepth : (writtenItems more).length ≤ depth) :
    items depth (writtenItems more ++ rest) = some (more, rest) := by
  induction more generalizing depth with
  | nil =>
    obtain ⟨depth, rfl⟩ := Nat.exists_eq_add_of_le' hdepth
    simp [writtenItems, items, skipBlanks, isBlank]
  | cons item more ih =>
    simp only [writtenItems, List.length_cons, List.length_append] at hdepth
    obtain ⟨depth, rfl⟩ := Nat.exists_eq_add_of_le' (Nat.le_trans (Nat.le_add_left 1 _) hdepth)
    have hitem := h item List.mem_cons_self depth (writtenItems more ++ rest) (by omega)
    have hmore := ih (fun other ho => h other (List.mem_cons_of_mem item ho)) depth (by omega)
    simp [writtenItems, items, skipBlanks_cons, isBlank, hitem, hmore]

theorem member_written {json : Json} (h : ReadsBack json) (key : String) (depth : Nat)
    (rest : List Char) (hdepth : (written json).length < depth) :
    member depth (quoted (some key) ++ ':' :: (written json ++ rest)) =
      some ((some key, json), rest) := by
  obtain ⟨depth, rfl⟩ := Nat.exists_eq_add_of_le' (Nat.lt_of_le_of_lt (Nat.zero_le _) hdepth)
  have hvalue := h depth rest (by omega)
  simp [member, quoted, skipBlanks_cons, isBlank, stringBody_written, hvalue]

/-- **The members after the first one** are read back if their values are. -/
theorem members_written {more : List (Option String × Json)}
    (hkeys : ∀ member ∈ more, ∃ key, member.1 = some key)
    (h : ∀ member ∈ more, ReadsBack member.2) (depth : Nat) (rest : List Char)
    (hdepth : (writtenMembers more).length ≤ depth) :
    members depth (writtenMembers more ++ rest) = some (more, rest) := by
  induction more generalizing depth with
  | nil =>
    obtain ⟨depth, rfl⟩ := Nat.exists_eq_add_of_le' hdepth
    simp [writtenMembers, members, skipBlanks, isBlank]
  | cons first more ih =>
    obtain ⟨key, hkey⟩ := hkeys first List.mem_cons_self
    have hjson := h first List.mem_cons_self
    obtain ⟨name, json⟩ := first
    obtain rfl : name = some key := hkey
    change ReadsBack json at hjson
    simp only [writtenMembers, List.length_cons, List.length_append] at hdepth
    obtain ⟨depth, rfl⟩ := Nat.exists_eq_add_of_le' (Nat.le_trans (Nat.le_add_left 1 _) hdepth)
    have hfirst := member_written hjson key depth (writtenMembers more ++ rest) (by omega)
    have hmore := ih (fun other ho => hkeys other (List.mem_cons_of_mem _ ho))
      (fun other ho => h other (List.mem_cons_of_mem _ ho)) depth (by omega)
    simp [writtenMembers, members, skipBlanks_cons, isBlank, hfirst, hmore]

/-- **A written value is read back.** -/
theorem Worded.readsBack {json : Json} (h : Worded json) : ReadsBack json := by
  induction h with
  | null =>
    intro depth rest hdepth
    obtain ⟨depth, rfl⟩ := Nat.exists_eq_add_of_le' (Nat.le_trans (by decide : 1 ≤ 4) hdepth)
    simp [written, value, skipBlanks, isBlank]
  | bool value =>
    intro depth rest hdepth
    have hpos : 1 ≤ depth := by cases value <;> simp [written] at hdepth <;> omega
    obtain ⟨depth, rfl⟩ := Nat.exists_eq_add_of_le' hpos
    cases value <;> simp [written, Json.value, skipBlanks, isBlank]
  | string s =>
    intro depth rest hdepth
    simp only [written, quoted, List.length_cons] at hdepth
    obtain ⟨depth, rfl⟩ := Nat.exists_eq_add_of_le' (Nat.le_trans (Nat.le_add_left 1 _) hdepth)
    simp [written, quoted, value, skipBlanks_cons, isBlank, stringBody_written]
  | @array items hitems ih =>
    intro depth rest hdepth
    cases items with
    | nil =>
      obtain ⟨depth, rfl⟩ := Nat.exists_eq_add_of_le' (Nat.le_trans (by decide : 1 ≤ 2) hdepth)
      simp [written, value, skipBlanks, isBlank]
    | cons item more =>
      simp only [written, List.length_cons, List.length_append] at hdepth
      obtain ⟨depth, rfl⟩ := Nat.exists_eq_add_of_le' (Nat.le_trans (Nat.le_add_left 1 _) hdepth)
      obtain ⟨c, tail, htext, hblank, hopen⟩ := (hitems item List.mem_cons_self).head
      have hitem := ih item List.mem_cons_self depth (writtenItems more ++ rest) (by omega)
      have hmore := items_written (fun other ho => ih other (List.mem_cons_of_mem item ho)) depth
        rest (by omega)
      have hhead : skipBlanks (written item ++ (writtenItems more ++ rest)) =
          c :: (tail ++ (writtenItems more ++ rest)) := by
        rw [htext, List.cons_append, skipBlanks_cons _ hblank]
      rw [written, List.cons_append, List.append_assoc]
      exact value_array hhead hopen hitem hmore
  | @object members hkeys _ ih =>
    intro depth rest hdepth
    cases members with
    | nil =>
      obtain ⟨depth, rfl⟩ := Nat.exists_eq_add_of_le' (Nat.le_trans (by decide : 1 ≤ 2) hdepth)
      simp [written, value, skipBlanks, isBlank]
    | cons first more =>
      obtain ⟨key, hkey⟩ := hkeys first List.mem_cons_self
      have hjson := ih first List.mem_cons_self
      obtain ⟨name, json⟩ := first
      obtain rfl : name = some key := hkey
      simp only [written, List.length_cons, List.length_append] at hdepth
      obtain ⟨depth, rfl⟩ := Nat.exists_eq_add_of_le' (Nat.le_trans (Nat.le_add_left 1 _) hdepth)
      have hfirst := member_written hjson key depth (writtenMembers more ++ rest)
        (by simp only; omega)
      have hmore := members_written (fun other ho => hkeys other (List.mem_cons_of_mem _ ho))
        (fun other ho => ih other (List.mem_cons_of_mem _ ho)) depth rest (by omega)
      rw [written, List.cons_append, List.append_assoc, List.cons_append, List.append_assoc]
      exact value_object (skipBlanks_cons _ (by decide)) (by decide) hfirst hmore

theorem Worded.record {fields : List (String × Json)} (h : ∀ field ∈ fields, Worded field.2) :
    Worded (.record fields) := by
  refine .object ?_ ?_ <;> intro member hmember <;>
    obtain ⟨field, hfield, rfl⟩ := List.mem_map.mp hmember
  · exact ⟨field.1, rfl⟩
  · exact h field hfield

/-- **Reading inverts writing.** -/
theorem Worded.read_render {json : Json} (h : Worded json) : read (render json) = some json := by
  have hread := h.readsBack (2 * (written json).length + 2) [] (by omega)
  rw [List.append_nil] at hread
  rw [read, render, String.toList_ofList, hread]
  rfl

end TargetGen.Json
