import TargetGen.Text

/-!
# Glob patterns — their grammar

A pattern is read from left to right into tokens:

* `?` stands for one character other than `/`, `*` for a run of such characters;
* `**` as a whole path component stands for any number of components;
* `[…]` and `[!…]` stand for one character, other than `/`, in or not in a class;
* any other character stands for itself.

A pattern that is not well formed is refused with the position of the fault,
counted in characters from zero.
-/

namespace TargetGen

namespace Glob

/-- One entry of a character class. -/
inductive Spec where
  | single (c : Char)
  | range (first last : Char)
  deriving DecidableEq

inductive Token where
  | char (c : Char)
  | anyChar
  | anySequence
  | anyRecursive
  | within (specs : List Spec)
  | except (specs : List Spec)
  deriving DecidableEq

inductive Fault where
  | tooManyStars
  | recursiveWithinComponent
  | invalidRange
  deriving DecidableEq

def Fault.message : Fault → String
  | .tooManyStars => "wildcards are either regular `*` or recursive `**`"
  | .recursiveWithinComponent => "recursive wildcards must form a single path component"
  | .invalidRange => "invalid range pattern"

structure SyntaxError where
  position : Nat
  fault : Fault
  deriving DecidableEq

def SyntaxError.message (e : SyntaxError) : String :=
  "Pattern syntax error near position " ++ toString e.position ++ ": " ++ e.fault.message

/-- The entries of a class: `a-b` is a range wherever three characters allow
it, any other character is itself. -/
def specs : List Char → List Spec
  | first :: '-' :: last :: rest => .range first last :: specs rest
  | c :: rest => .single c :: specs rest
  | [] => []

/-- The tokens of a pattern's rest, which starts at `position`; `componentStart`
tells whether a path component starts there. -/
def tokensFrom (position : Nat) (componentStart : Bool) :
    List Char → Except SyntaxError (List Token)
  | [] => .ok []
  | '?' :: rest => do return .anyChar :: (← tokensFrom (position + 1) false rest)
  | '*' :: '*' :: '*' :: _ => .error ⟨position + 2, .tooManyStars⟩
  | '*' :: '*' :: rest =>
    if componentStart then
      match rest with
      | [] => .ok [.anyRecursive]
      | c :: rest' =>
        if c = '/' then do
          return .anyRecursive :: (← tokensFrom (position + 3) true rest')
        else .error ⟨position + 2, .recursiveWithinComponent⟩
    else .error ⟨position - 1, .recursiveWithinComponent⟩
  | '*' :: rest => do return .anySequence :: (← tokensFrom (position + 1) false rest)
  | '[' :: '!' :: c :: rest =>
    match h : Text.cutFirst ']' rest with
    | some (before, after) => do
      return .except (specs (c :: before)) ::
        (← tokensFrom (position + before.length + 4) false after)
    | none => .error ⟨position, .invalidRange⟩
  | '[' :: c :: rest =>
    match h : if c = '!' then none else Text.cutFirst ']' rest with
    | some (before, after) => do
      return .within (specs (c :: before)) ::
        (← tokensFrom (position + before.length + 3) false after)
    | none => .error ⟨position, .invalidRange⟩
  | ['['] => .error ⟨position, .invalidRange⟩
  | c :: rest => do return .char c :: (← tokensFrom (position + 1) (c = '/') rest)
termination_by cs => cs.length
decreasing_by
  all_goals try (simp only [List.length_cons]; omega)
  · have := Text.eq_of_cutFirst h
    simp only [this, List.length_cons, List.length_append]
    omega
  · split at h
    · cases h
    · have := Text.eq_of_cutFirst h
      simp only [this, List.length_cons, List.length_append]
      omega

end Glob

/-- A pattern that has been read. -/
structure Glob where
  tokens : List Glob.Token
  deriving DecidableEq

/-- Read a pattern. -/
def Glob.ofPattern (pattern : String) : Except Glob.SyntaxError Glob := do
  return ⟨← Glob.tokensFrom 0 true pattern.toList⟩

end TargetGen
