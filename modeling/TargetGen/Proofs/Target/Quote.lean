import Mathlib.Data.List.Basic
import TargetGen.Target

/-!
# Quoted texts — what stands between quotes is read back

A reader of quoted texts stops at the first quote that no backslash escapes. Every
character is printed so that it is one character for the reader: as it stands, or by a
letter behind a backslash. So a quoted text ends where it was meant to end, whatever
follows it, and it stays on its line.
-/

namespace TargetGen.Rendering

/-! ## A reader of quoted texts -/

/-- What a letter behind a backslash stands for. -/
def unescape : Char → Option Char
  | '"' => some '"'
  | '\\' => some '\\'
  | 'n' => some '\n'
  | _ => none

/-- The text up to the closing quote, and what follows the quote. -/
def unquoteBody : List Char → Option (List Char × List Char)
  | [] => none
  | '"' :: rest => some ([], rest)
  | '\\' :: letter :: rest => do
    let c ← unescape letter
    let (text, after) ← unquoteBody rest
    return (c :: text, after)
  | c :: rest => do
    let (text, after) ← unquoteBody rest
    return (c :: text, after)

/-- The quoted text at the beginning, and what follows it. -/
def unquote : List Char → Option (String × List Char)
  | '"' :: rest => (unquoteBody rest).map fun (text, after) => (String.ofList text, after)
  | _ => none

/-- Whether the next character is escaped: right before it stands a backslash that is
not itself escaped. -/
def leavesEscape (cs : List Char) : Bool :=
  cs.foldl (fun escaped c => !escaped && c = '\\') false

/-! ## One character -/

theorem escape_cases (c : Char) :
    (∃ letter, escape c = ['\\', letter] ∧ letter ≠ '\n' ∧ unescape letter = some c) ∨
    (c ≠ '"' ∧ c ≠ '\\' ∧ c ≠ '\n' ∧ escape c = [c]) := by
  by_cases hquote : c = '"'
  · subst hquote
    exact .inl ⟨'"', rfl, by decide, rfl⟩
  by_cases hslash : c = '\\'
  · subst hslash
    exact .inl ⟨'\\', rfl, by decide, rfl⟩
  by_cases hline : c = '\n'
  · subst hline
    exact .inl ⟨'n', rfl, by decide, rfl⟩
  · refine .inr ⟨hquote, hslash, hline, ?_⟩
    rw [escape, if_neg hquote, if_neg hslash, if_neg hline]

theorem newline_notMem_escape (c : Char) : '\n' ∉ escape c := by
  rcases escape_cases c with ⟨letter, hescape, hletter, -⟩ | ⟨-, -, hline, hescape⟩
  · rw [hescape]
    simp [hletter.symm]
  · rw [hescape]
    exact List.mem_singleton.not.mpr (Ne.symm hline)

/-- **A printed character** is one character for the reader. -/
theorem unquoteBody_escape (c : Char) (rest : List Char) :
    unquoteBody (escape c ++ rest) =
      (unquoteBody rest).map fun (text, after) => (c :: text, after) := by
  rcases escape_cases c with ⟨letter, hescape, -, hletter⟩ | ⟨hquote, hslash, -, hescape⟩
  · rw [hescape, List.cons_append, List.cons_append, List.nil_append, unquoteBody, hletter]
    cases unquoteBody rest <;> rfl
  · rw [hescape, List.singleton_append, unquoteBody]
    · cases unquoteBody rest <;> rfl
    · exact hquote
    · exact fun _ _ h => absurd h hslash

/-! ## Whole texts -/

theorem unquoteBody_flatMap_escape (cs rest : List Char) :
    unquoteBody (cs.flatMap escape ++ '"' :: rest) = some (cs, rest) := by
  induction cs with
  | nil => rfl
  | cons c cs ih => rw [List.flatMap_cons, List.append_assoc, unquoteBody_escape, ih]; rfl

/-- **Quoting can be undone**, whatever follows the quoted text. -/
@[simp] theorem unquote_quote (s : String) (rest : List Char) :
    unquote (quote s ++ rest) = some (s, rest) := by
  have hbody := unquoteBody_flatMap_escape s.toList rest
  simp [quote, unquote, hbody]

theorem newline_notMem_quote (s : String) : '\n' ∉ quote s := by
  rw [quote]
  simp [newline_notMem_escape]

/-! ## Quotes between the quotes -/

theorem foldl_escape (c : Char) :
    (escape c).foldl (fun escaped c => !escaped && c = '\\') false = false := by
  rcases escape_cases c with ⟨letter, hescape, -⟩ | ⟨-, hslash, -, hescape⟩
  · simp [hescape]
  · simp [hescape, hslash]

@[simp] theorem leavesEscape_escape_append (c : Char) (cs : List Char) :
    leavesEscape (escape c ++ cs) = leavesEscape cs := by
  rw [leavesEscape, List.foldl_append, foldl_escape, leavesEscape]

@[simp] theorem leavesEscape_flatMap_escape (cs : List Char) :
    leavesEscape (cs.flatMap escape) = false := by
  induction cs with
  | nil => rfl
  | cons c cs ih => rw [List.flatMap_cons, leavesEscape_escape_append, ih]

theorem leavesEscape_of_escape_eq {c : Char} {before after : List Char}
    (h : escape c = before ++ '"' :: after) : leavesEscape before = true := by
  rcases escape_cases c with ⟨letter, hescape, -⟩ | ⟨hquote, -, -, hescape⟩
  · rw [hescape] at h
    cases before with
    | nil => exact absurd (List.cons.inj h).1 (by decide)
    | cons first others =>
      obtain ⟨rfl, hothers⟩ := List.cons.inj h
      cases others with
      | nil => rfl
      | cons _ others =>
        have hnil := (List.cons.inj hothers).2
        simp at hnil
  · rw [hescape] at h
    cases before with
    | nil => exact absurd (List.cons.inj h).1 hquote
    | cons first others =>
      have hnil := (List.cons.inj h).2
      simp at hnil

theorem leavesEscape_of_flatMap_escape_eq {cs before after : List Char}
    (h : cs.flatMap escape = before ++ '"' :: after) : leavesEscape before = true := by
  induction cs generalizing before with
  | nil => simp at h
  | cons c cs ih =>
    rw [List.flatMap_cons] at h
    -- the quote stands behind what is printed for `c`, or within it
    rcases List.append_eq_append_iff.mp h with ⟨between, rfl, hrest⟩ | ⟨between, hescape, hrest⟩
    · rw [leavesEscape_escape_append]
      exact ih hrest
    · cases between with
      | nil =>
        rw [List.append_nil] at hescape
        rw [← hescape, ← List.append_nil (escape c), leavesEscape_escape_append]
        have hinner : cs.flatMap escape = [] ++ '"' :: after := hrest.symm
        exact ih hinner
      | cons first others =>
        obtain ⟨rfl, -⟩ := List.cons.inj hrest
        exact leavesEscape_of_escape_eq hescape

/-- **The closing quote** is the one behind the opening quote that is not escaped. -/
theorem leavesEscape_iff_of_quote_eq {s : String} {before after : List Char}
    (h : quote s = '"' :: (before ++ '"' :: after)) : leavesEscape before = false ↔ after = [] := by
  have hbody : s.toList.flatMap escape ++ ['"'] = before ++ '"' :: after := (List.cons.inj h).2
  rcases List.eq_nil_or_concat after with rfl | ⟨inner, last, rfl⟩
  · rw [← List.append_cancel_right hbody]
    simp
  · rw [List.concat_eq_append, ← List.cons_append, ← List.append_assoc] at hbody
    have hinner := (List.append_inj' hbody rfl).1
    simp [leavesEscape_of_flatMap_escape_eq hinner]

end TargetGen.Rendering
