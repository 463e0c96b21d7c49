import TargetGen.Glob.Pattern

/-!
# Glob patterns — matching

A pattern matches a path as a whole. Only a literal `/` and `**` match a
separator; a leading dot has no special meaning.

* `Glob.accepts` says what tokens match, by trying every way to split a text;
* `Glob.row` answers the same for all suffixes of a text at once, in one pass
  over the text for each token;
* `row_eq_map_accepts`: the two agree, so matching may use the second.
-/

namespace TargetGen

namespace Glob

def Spec.contains (c : Char) : Spec → Bool
  | .single x => c = x
  | .range first last => first ≤ c && c ≤ last

/-- Whether `next` accepts what is left after some run of characters without
separator. -/
def afterSequence (next : List Char → Bool) : List Char → Bool
  | [] => next []
  | c :: rest => next (c :: rest) || (c != '/' && afterSequence next rest)

/-- Whether `next` accepts what is left after some separator. -/
def afterSeparator (next : List Char → Bool) : List Char → Bool
  | [] => false
  | c :: rest => (c = '/' && next rest) || afterSeparator next rest

/-- Whether `accepts` holds of the first character and `next` of the rest. -/
def afterOne (accepts : Char → Bool) (next : List Char → Bool) : List Char → Bool
  | [] => false
  | c :: rest => accepts c && next rest

/-- Whether tokens match a text. A `**` at the end takes all that is left;
elsewhere it takes whole components, each with the separator behind it. -/
def accepts : List Token → List Char → Bool
  | [], cs => cs.isEmpty
  | .anyRecursive :: rest, cs =>
    rest.isEmpty || accepts rest cs || afterSeparator (accepts rest) cs
  | .anySequence :: rest, cs => afterSequence (accepts rest) cs
  | .anyChar :: rest, cs => afterOne (· != '/') (accepts rest) cs
  | .within specs :: rest, cs =>
    afterOne (fun c => c != '/' && specs.any (·.contains c)) (accepts rest) cs
  | .except specs :: rest, cs =>
    afterOne (fun c => c != '/' && !specs.any (·.contains c)) (accepts rest) cs
  | .char x :: rest, cs => afterOne (· = x) (accepts rest) cs

/-! ## All suffixes at once -/

/-- The suffixes of a text, from the whole of it down to the empty one. -/
def suffixes : List Char → List (List Char)
  | [] => [[]]
  | c :: rest => (c :: rest) :: suffixes rest

/-- Which suffixes are empty. -/
def emptyRow : List Char → List Bool
  | [] => [true]
  | _ :: rest => false :: emptyRow rest

/-- Which suffixes start with a character that `accepts` holds of, followed by
one that `next` marks. -/
def oneRow (accepts : Char → Bool) : List Char → List Bool → List Bool
  | c :: rest, _ :: next => (accepts c && next.headD false) :: oneRow accepts rest next
  | _, _ => [false]

/-- Which suffixes start with a run of characters without separator, followed
by one that `next` marks. -/
def sequenceRow : List Char → List Bool → List Bool
  | c :: rest, here :: next =>
    let later := sequenceRow rest next
    (here || (c != '/' && later.headD false)) :: later
  | _, next => next

/-- Which suffixes hold a separator, followed by one that `next` marks. -/
def separatorRow : List Char → List Bool → List Bool
  | c :: rest, _ :: next =>
    let later := separatorRow rest next
    ((c = '/' && next.headD false) || later.headD false) :: later
  | _, _ => [false]

/-- Which suffixes of a text the tokens match. -/
def row (cs : List Char) : List Token → List Bool
  | [] => emptyRow cs
  | .anyRecursive :: rest =>
    if rest.isEmpty then (suffixes cs).map fun _ => true
    else
      let next := row cs rest
      List.zipWith (· || ·) next (separatorRow cs next)
  | .anySequence :: rest => sequenceRow cs (row cs rest)
  | .anyChar :: rest => oneRow (· != '/') cs (row cs rest)
  | .within specs :: rest =>
    oneRow (fun c => c != '/' && specs.any (·.contains c)) cs (row cs rest)
  | .except specs :: rest =>
    oneRow (fun c => c != '/' && !specs.any (·.contains c)) cs (row cs rest)
  | .char x :: rest => oneRow (· = x) cs (row cs rest)

theorem headD_map_suffixes (f : List Char → Bool) (cs : List Char) (d : Bool) :
    ((suffixes cs).map f).headD d = f cs := by
  cases cs <;> rfl

theorem emptyRow_eq (cs : List Char) : emptyRow cs = (suffixes cs).map List.isEmpty := by
  induction cs with
  | nil => rfl
  | cons c rest ih => simp [emptyRow, suffixes, ih]

theorem oneRow_map (ok : Char → Bool) (next : List Char → Bool) (cs : List Char) :
    oneRow ok cs ((suffixes cs).map next) = (suffixes cs).map (afterOne ok next) := by
  induction cs with
  | nil => rfl
  | cons c rest ih => simp only [suffixes, List.map_cons, oneRow, ih, headD_map_suffixes, afterOne]

theorem sequenceRow_map (next : List Char → Bool) (cs : List Char) :
    sequenceRow cs ((suffixes cs).map next) = (suffixes cs).map (afterSequence next) := by
  induction cs with
  | nil => rfl
  | cons c rest ih =>
    simp only [suffixes, List.map_cons, sequenceRow, ih, headD_map_suffixes, afterSequence]

theorem separatorRow_map (next : List Char → Bool) (cs : List Char) :
    separatorRow cs ((suffixes cs).map next) = (suffixes cs).map (afterSeparator next) := by
  induction cs with
  | nil => rfl
  | cons c rest ih =>
    simp only [suffixes, List.map_cons, separatorRow, ih, headD_map_suffixes, afterSeparator]

/-- A row marks exactly the suffixes that the tokens match. -/
theorem row_eq_map_accepts (cs : List Char) (ts : List Token) :
    row cs ts = (suffixes cs).map (accepts ts) := by
  induction ts with
  | nil => exact emptyRow_eq cs
  | cons t rest ih =>
    cases t with
    | char x => simp only [row, ih, oneRow_map]; rfl
    | anyChar => simp only [row, ih, oneRow_map]; rfl
    | anySequence => simp only [row, ih, sequenceRow_map]; rfl
    | within specs => simp only [row, ih, oneRow_map]; rfl
    | except specs => simp only [row, ih, oneRow_map]; rfl
    | anyRecursive =>
      unfold row
      split
      next h => simp [accepts, h]
      next h =>
        simp only [ih, separatorRow_map, List.zipWith_map, List.zipWith_self]
        simp [accepts, h]

end Glob

/-- Whether a pattern matches a path. -/
def Glob.isMatch (g : Glob) (path : String) : Bool :=
  (Glob.row path.toList g.tokens).headD false

theorem Glob.isMatch_eq_accepts (g : Glob) (path : String) :
    g.isMatch path = Glob.accepts g.tokens path.toList := by
  rw [isMatch, row_eq_map_accepts, headD_map_suffixes]

end TargetGen
