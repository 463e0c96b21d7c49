import TargetGen.Proofs.Path

/-!
# Path algebra — paths behave like lists of names

Normal form is found with a stack from which `..` takes back, and nothing is taken from
an empty one. Containment knows nothing of this: it looks at how the text of one path
begins with that of another, and treats the top by itself. Both come to the same lists
of names. A path in normal form is such a list (`clean_eq_self_iff`), joining goes on
with the stack where the directory left it (`join_join`), and so a path without `..` is
appended (`components_join_of_descends`). To lie below a directory is to have its names
and more (`isWithin_iff_split`), and to see a path from there is to drop them again.
-/

namespace TargetGen.Path

variable {dir path : String} {parts : List (List Char)}

/-! ## Normal form -/

/-- The paths in normal form: the top, and names with `/` between them. -/
inductive Normal : String → Prop where
  | top : Normal top
  | named {parts : List (List Char)} : parts ≠ [] → Names parts →
      Normal (String.ofList (Text.joined '/' parts))

theorem normal_ofComponents (h : Names parts) : Normal (ofComponents parts) := by
  by_cases hnil : parts = []
  · rw [hnil]
    exact .top
  · rw [ofComponents_of_ne_nil hnil]
    exact .named hnil h

theorem normal_clean (path : String) : Normal (clean path) :=
  normal_ofComponents (names_components path)

/-- **Normal form** is where cleaning leads, and it leaves there what is there. -/
theorem clean_eq_self_iff : clean path = path ↔ Normal path := by
  constructor
  · intro h
    rw [← h]
    exact normal_clean path
  · intro h
    cases h with
    | top => decide
    | named hne hnames =>
      rw [← ofComponents_of_ne_nil hne, clean, components_ofComponents hnames]

theorem fields_eq_components (h : clean path = path) (hbelow : path ≠ top) :
    Text.fields '/' path.toList = components path := by
  have hne : components path ≠ [] := mt (components_eq_nil_iff h).mp hbelow
  rw [toList_clean_of_ne_nil h hne, Text.fields_joined hne (names_components path).no_slash]

/-! ## Joining -/

/-- **Joining one path after the other** is joining them with a `/` between. -/
theorem join_join (dir a b : String) : join (join dir a) b = join dir (a ++ "/" ++ b) := by
  have hsame : components (join (join dir a) b) = components (join dir (a ++ "/" ++ b)) := by
    rw [components_join, components_join, components_join, List.reverse_reverse, toList_slash,
      Text.fields_append, foldComponents_append]
  calc join (join dir a) b
      = ofComponents (components (join (join dir a) b)) :=
        (ofComponents_components (clean_join (join dir a) b)).symm
    _ = ofComponents (components (join dir (a ++ "/" ++ b))) := by rw [hsame]
    _ = join dir (a ++ "/" ++ b) := ofComponents_components (clean_join dir (a ++ "/" ++ b))

/-- No component is `..`. -/
def Descends (path : String) : Prop := ".." ∉ Text.split '/' path

instance (path : String) : Decidable (Descends path) := inferInstanceAs (Decidable (_ ∉ _))

/-- Without `..` nothing is taken back of what was there before. -/
theorem foldComponents_of_notMem (h : ['.', '.'] ∉ parts) (kept : List (List Char)) :
    foldComponents kept parts = foldComponents [] parts ++ kept := by
  induction parts generalizing kept with
  | nil => rfl
  | cons c rest ih =>
    obtain ⟨hup, hrest⟩ := not_or.mp (mt List.mem_cons.mpr h)
    have hup : ¬ c = ['.', '.'] := fun heq => hup heq.symm
    rw [foldComponents, foldComponents.eq_2 [] c rest]
    by_cases hskip : c = [] ∨ c = ['.']
    · rw [if_pos hskip, if_pos hskip]
      exact ih hrest kept
    · rw [if_neg hskip, if_neg hskip, if_neg hup, if_neg hup, ih hrest (c :: kept),
        ih hrest [c], List.append_assoc]
      rfl

theorem Descends.notMem (h : Descends path) : ['.', '.'] ∉ Text.fields '/' path.toList :=
  fun hmem => h (List.mem_map.mpr ⟨_, hmem, rfl⟩)

/-- **A path without `..`** is appended when it is joined. -/
theorem components_join_of_descends (dir : String) (h : Descends path) :
    components (join dir path) = components dir ++ components path := by
  rw [components_join, foldComponents_of_notMem h.notMem, List.reverse_append,
    List.reverse_reverse]
  rfl

/-! ## Containment -/

theorem isWithin_iff_split (hdir : clean dir = dir) (hpath : clean path = path)
    (hbelow : path ≠ top) :
    isWithin dir path = true ↔ dir = top ∨
      ∃ rest, rest ≠ [] ∧ Text.split '/' path = Text.split '/' dir ++ rest := by
  by_cases htop : dir = top
  · subst htop
    exact iff_of_true (by rw [isWithin]; rfl) (.inl rfl)
  · rw [isWithin_iff hdir hpath hbelow, Text.split, Text.split, fields_eq_components hpath hbelow,
      fields_eq_components hdir htop]
    constructor
    · rintro ⟨rest, hrest, hsplit⟩
      refine .inr ⟨rest.map String.ofList, mt List.map_eq_nil_iff.mp hrest, ?_⟩
      rw [hsplit, List.map_append]
    · rintro (htop' | ⟨rest, hrest, hsplit⟩)
      · exact absurd htop' htop
      · refine ⟨rest.map String.toList, mt List.map_eq_nil_iff.mp hrest, ?_⟩
        have hlists := congrArg (List.map String.toList) hsplit
        simpa [Function.comp_def] using hlists

theorem join_relativeTo (hdir : clean dir = dir) (hpath : clean path = path) (hbelow : path ≠ top)
    (h : isWithin dir path = true) : join dir (relativeTo dir path) = path := by
  obtain ⟨rest, hrest, hsplit⟩ := (isWithin_iff hdir hpath hbelow).mp h
  have hnames : Names rest := (names_append_iff.mp (hsplit ▸ names_components path)).2
  rw [relativeTo_eq hdir hpath hrest hsplit, join_names dir hnames hrest, ← hsplit]
  exact ofComponents_components hpath

theorem isWithin_join (hdir : clean dir = dir) (h : Descends path) (hne : components path ≠ []) :
    isWithin dir (join dir path) = true := by
  have hsplit := components_join_of_descends dir h
  have hbelow : join dir path ≠ top := by
    rw [ne_eq, ← components_eq_nil_iff (clean_join dir path), hsplit]
    exact List.append_ne_nil_of_right_ne_nil _ hne
  exact (isWithin_iff hdir (clean_join dir path) hbelow).mpr ⟨_, hne, hsplit⟩

theorem relativeTo_join (hdir : clean dir = dir) (h : Descends path) (hne : components path ≠ []) :
    relativeTo dir (join dir path) = clean path := by
  rw [relativeTo_eq hdir (clean_join dir path) hne (components_join_of_descends dir h), clean,
    ofComponents_of_ne_nil hne]

/-- **Paths behave like lists of names.** Cleaning leads to normal form and changes nothing
there. To join one path after the other is to join both at once. A path other than the top
lies below a directory if that is the top or has its first components, but not all of them,
and what is seen of it from there leads back to it. A path without `..` that is not the top
leads below every directory, and is seen from there in normal form. -/
theorem paths_are_lists_of_names :
    (∀ path, clean (clean path) = clean path ∧ Normal (clean path) ∧
      (clean path = path ↔ Normal path)) ∧
    (∀ dir a b, join (join dir a) b = join dir (a ++ "/" ++ b)) ∧
    (∀ dir path, clean dir = dir → clean path = path → path ≠ top →
      (isWithin dir path = true ↔ dir = top ∨
        ∃ rest, rest ≠ [] ∧ Text.split '/' path = Text.split '/' dir ++ rest) ∧
      (isWithin dir path = true → join dir (relativeTo dir path) = path)) ∧
    ∀ dir path, clean dir = dir → Descends path → clean path ≠ top →
      isWithin dir (join dir path) = true ∧ relativeTo dir (join dir path) = clean path := by
  refine ⟨fun path => ⟨clean_clean path, normal_clean path, clean_eq_self_iff⟩, join_join, ?_, ?_⟩
  · intro dir path hdir hpath hbelow
    exact ⟨isWithin_iff_split hdir hpath hbelow, join_relativeTo hdir hpath hbelow⟩
  · intro dir path hdir hdescends hbelow
    have hne : components path ≠ [] := by
      rwa [ne_eq, ← components_clean, components_eq_nil_iff (clean_clean path)]
    exact ⟨isWithin_join hdir hdescends hne, relativeTo_join hdir hdescends hne⟩

/-- A directory and a path that begins with its text without lying below it, and a spelling
of one that does. -/
theorem sources_lie_below_lib :
    isWithin "lib/a" "lib/abc/x.c" = false ∧
      join "lib/a" (relativeTo "lib/a" "lib/a/src/x.c") = "lib/a/src/x.c" ∧
      Descends ".//src/./x.c" ∧
      relativeTo "lib/a" (join "lib/a" ".//src/./x.c") = "src/x.c" := by
  obtain ⟨-, -, hbelow, hjoined⟩ := paths_are_lists_of_names
  have hdir : clean "lib/a" = "lib/a" := by decide +kernel
  have hdescends : Descends ".//src/./x.c" := by decide +kernel
  obtain ⟨hoff, -⟩ := hbelow "lib/a" "lib/abc/x.c" hdir (by decide +kernel) (by decide)
  obtain ⟨-, hback⟩ := hbelow "lib/a" "lib/a/src/x.c" hdir (by decide +kernel) (by decide)
  obtain ⟨-, hseen⟩ := hjoined "lib/a" ".//src/./x.c" hdir hdescends (by decide +kernel)
  refine ⟨?_, hback (by decide +kernel), hdescends, ?_⟩
  · rw [Bool.eq_false_iff, ne_eq, hoff]
    rintro (htop | ⟨rest, -, hsplit⟩)
    · exact absurd htop (by decide)
    · have hpieces : Text.split '/' "lib/abc/x.c" = ["lib", "abc", "x.c"] := by decide +kernel
      have hdirs : Text.split '/' "lib/a" = ["lib", "a"] := by decide +kernel
      rw [hpieces, hdirs] at hsplit
      exact absurd (List.cons.inj (List.cons.inj hsplit).2).1 (by decide)
  · rw [hseen]
    decide +kernel

end TargetGen.Path
