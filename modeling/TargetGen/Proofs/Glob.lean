import TargetGen.Path
import TargetGen.Proofs.Result
import TargetGen.SourceTree.Basic

/-!
# Literal patterns — what is read as itself

A character that is no wildcard stands for itself, wherever it stands. So a text
without wildcards can always be read as a pattern, which matches that text alone;
and whatever a pattern matches begins with what comes before its first wildcard.
-/

namespace TargetGen.Glob

variable {cs : List Char} {pattern path : String}

theorem tokensFrom_plain {c : Char} (hc : Path.isWildcard c = false) (rest : List Char)
    (position : Nat) (componentStart : Bool) :
    tokensFrom position componentStart (c :: rest) =
      (tokensFrom (position + 1) (c = '/') rest).map (Token.char c :: ·) := by
  have hstar : c ≠ '*' := by
    rintro rfl
    exact absurd hc (by decide)
  have hmark : c ≠ '?' := by
    rintro rfl
    exact absurd hc (by decide)
  have hopen : c ≠ '[' := by
    rintro rfl
    exact absurd hc (by decide)
  rw [tokensFrom]
  · cases tokensFrom (position + 1) (decide (c = '/')) rest <;> rfl
  all_goals simp_all

theorem tokensFrom_literal (h : ∀ c ∈ cs, Path.isWildcard c = false) (position : Nat)
    (componentStart : Bool) : tokensFrom position componentStart cs = .ok (cs.map .char) := by
  induction cs generalizing position componentStart with
  | nil => rw [tokensFrom, List.map_nil]
  | cons c rest ih =>
    rw [tokensFrom_plain (h c List.mem_cons_self),
      ih fun other ho => h other (List.mem_cons_of_mem c ho)]
    rfl

theorem tokensFrom_literal_append (h : ∀ c ∈ cs, Path.isWildcard c = false) (rest : List Char)
    {position : Nat} {componentStart : Bool} {tokens : List Token}
    (htokens : tokensFrom position componentStart (cs ++ rest) = .ok tokens) :
    ∃ later, tokens = cs.map .char ++ later := by
  induction cs generalizing position componentStart tokens with
  | nil => exact ⟨tokens, rfl⟩
  | cons c cs ih =>
    rw [List.cons_append, tokensFrom_plain (h c List.mem_cons_self)] at htokens
    obtain ⟨tokens, hrest, rfl⟩ := map_eq_ok htokens
    obtain ⟨later, rfl⟩ := ih (fun other ho => h other (List.mem_cons_of_mem c ho)) hrest
    exact ⟨later, rfl⟩

@[simp] theorem accepts_literal (cs text : List Char) :
    accepts (cs.map .char) text = true ↔ text = cs := by
  induction cs generalizing text with
  | nil => simp [accepts]
  | cons c rest ih =>
    cases text with
    | nil => simp [accepts, afterOne]
    | cons first later => simp [accepts, afterOne, ih]

theorem accepts_literal_append {later : List Token} {text : List Char}
    (h : accepts (cs.map .char ++ later) text = true) : ∃ rest, text = cs ++ rest := by
  induction cs generalizing text with
  | nil => exact ⟨text, rfl⟩
  | cons c cs ih =>
    cases text with
    | nil => cases h
    | cons first text =>
      obtain ⟨hfirst, hrest⟩ := (Bool.and_eq_true _ _).mp h
      obtain ⟨rest, rfl⟩ := ih hrest
      exact ⟨rest, congrArg (· :: (cs ++ rest)) (of_decide_eq_true hfirst)⟩

/-- A pattern that can be read matches a path. -/
def matchesPath (pattern path : String) : Bool :=
  match compile pattern with
  | .ok g => g.isMatch path
  | .error _ => false

theorem compile_literal (h : Path.isGlob pattern = false) :
    compile pattern = .ok ⟨pattern.toList.map .char⟩ := by
  have hplain : ∀ c ∈ pattern.toList, Path.isWildcard c = false := by
    simpa [Path.isGlob] using h
  rw [compile, ofPattern, tokensFrom_literal hplain]
  rfl

/-- **A literal pattern matches itself only.** -/
theorem matchesPath_literal (h : Path.isGlob pattern = false) :
    matchesPath pattern path = true ↔ path = pattern := by
  rw [matchesPath, compile_literal h]
  show isMatch _ path = true ↔ _
  rw [isMatch_eq_accepts, accepts_literal, String.toList_inj]

/-- **What a pattern matches begins as the pattern does**, up to its first wildcard. -/
theorem isMatch_literal_append {rest : List Char} {g : Glob}
    (h : ∀ c ∈ cs, Path.isWildcard c = false) (hpattern : pattern.toList = cs ++ rest)
    (hg : compile pattern = .ok g) (hmatch : g.isMatch path = true) :
    ∃ later, path.toList = cs ++ later := by
  have htokens : tokensFrom 0 true (cs ++ rest) = .ok g.tokens := by
    rw [compile, ofPattern, hpattern] at hg
    cases hread : tokensFrom 0 true (cs ++ rest) with
    | error e =>
      rw [hread] at hg
      cases hg
    | ok tokens =>
      rw [hread] at hg
      obtain rfl := Except.ok.inj hg
      rfl
  obtain ⟨later, hlater⟩ := tokensFrom_literal_append h rest htokens
  rw [isMatch_eq_accepts, hlater] at hmatch
  exact accepts_literal_append hmatch

end TargetGen.Glob
