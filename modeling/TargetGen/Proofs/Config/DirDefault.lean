import Mathlib.Data.List.Infix
import TargetGen.Config.Allowlist
import TargetGen.Proofs.Text

/-!
# Directory defaults — the deepest directory above that speaks for a package

A directory lies above a package if its components are the first ones of the package's,
and not all of them. Which entry decides is said in these terms (`DirDefault.Decided`): the
package's own one; without it, of the recursive entries above the one with most
components; and without any the package does not convert.

The package is walked down component by component, and every recursive entry that is met
takes the place of those before. So what stays is the last one met. The walk visits the
first components of the package in the order of their number, hence the last one is the
deepest.
-/

namespace TargetGen

variable {table table' : NameMap DirDefault} {package dir : String} {entry : DirDefault}

namespace DirDefault

/-! ## What decides -/

/-- The entry speaks for the directories below its own. -/
def IsRecursive (entry : DirDefault) : Prop := entry = .yesBelow ∨ entry = .noBelow

/-- The number of components. -/
def depth (dir : String) : Nat := (Text.split '/' dir).length

/-- The components of the directory are the first ones of the package, and more follow. -/
def IsAbove (dir package : String) : Prop :=
  ∃ rest, rest ≠ [] ∧ Text.split '/' package = Text.split '/' dir ++ rest

/-- The directory lies above the package, and its entry speaks for those below. -/
structure Reaches (table : NameMap DirDefault) (package dir : String) (entry : DirDefault) :
    Prop where
  above : IsAbove dir package
  bound : table.get? dir = some entry
  recursive : entry.IsRecursive

/-- Whether a package converts by default, and the directory that decides. -/
inductive Decided (table : NameMap DirDefault) (package : String) : Bool × String → Prop where
  | own {entry : DirDefault} : table.get? package = some entry →
      Decided table package (decide (entry = .yes ∨ entry = .yesBelow), package)
  | above {dir : String} {entry : DirDefault} : table.get? package = none →
      Reaches table package dir entry →
      (∀ other value, Reaches table package other value → depth other ≤ depth dir) →
      Decided table package (decide (entry = .yesBelow), dir)
  | unsaid : table.get? package = none → (∀ dir entry, ¬ Reaches table package dir entry) →
      Decided table package (false, package)

theorem eq_of_split_eq {other : String} (h : Text.split '/' dir = Text.split '/' other) :
    dir = other := by
  rw [← Text.join_split '/' dir, h, Text.join_split]

theorem IsAbove.eq_of_depth {other : String} (h : IsAbove dir package)
    (h' : IsAbove other package) (hdepth : depth dir = depth other) : dir = other := by
  obtain ⟨rest, -, hrest⟩ := h
  obtain ⟨rest', -, hrest'⟩ := h'
  exact eq_of_split_eq (List.append_inj_left (hrest.symm.trans hrest') hdepth)

/-- **One decision at most** agrees with a table. -/
theorem Decided.unique {result result' : Bool × String} (h : Decided table package result)
    (h' : Decided table package result') : result = result' := by
  cases h with
  | own hown =>
    cases h' with
    | own hown' => rw [Option.some.inj (hown.symm.trans hown')]
    | above hnone _ _ => exact absurd (hown.symm.trans hnone) (Option.some_ne_none _)
    | unsaid hnone _ => exact absurd (hown.symm.trans hnone) (Option.some_ne_none _)
  | above hnone hreaches hdeepest =>
    cases h' with
    | own hown => exact absurd (hown.symm.trans hnone) (Option.some_ne_none _)
    | above _ hreaches' hdeepest' =>
      have hdepth := Nat.le_antisymm (hdeepest' _ _ hreaches) (hdeepest _ _ hreaches')
      obtain rfl := hreaches.above.eq_of_depth hreaches'.above hdepth
      rw [Option.some.inj (hreaches.bound.symm.trans hreaches'.bound)]
    | unsaid _ hsilent => exact absurd hreaches (hsilent _ _)
  | unsaid hnone hsilent =>
    cases h' with
    | own hown => exact absurd (hown.symm.trans hnone) (Option.some_ne_none _)
    | above _ hreaches _ => exact absurd hreaches (hsilent _ _)
    | unsaid _ _ => rfl

/-! ## The way down -/

/-- The walk takes up one component more. -/
def descend (walked : List String × String) (part : String) : List String × String :=
  let longer := if walked.2 = "" then part else walked.2 ++ "/" ++ part
  (walked.1 ++ [longer], longer)

/-- The walk has visited every number of first components. For the next `/` to be put in, what
was walked before must not be empty. -/
theorem foldl_descend (first : String) (parts : List String) (hfirst : parts ≠ [] → first ≠ "") :
    (first :: parts).foldl descend ([], "") =
      ((first :: parts).inits.tail.map (Text.join '/'), Text.join '/' (first :: parts)) := by
  -- on the last component, which is the last step of the walk
  induction parts using List.reverseRecOn with
  | nil => simp [descend]
  | append_singleton parts part ih =>
    have hne : Text.join '/' (first :: parts) ≠ "" := by
      by_cases hparts : parts = []
      · rw [hparts, Text.join_singleton]
        exact hfirst (by simp)
      · rw [Text.join_cons first hparts]
        simp
    have hjoin : Text.join '/' (first :: (parts ++ [part])) =
        Text.join '/' (first :: parts) ++ "/" ++ part := by
      have happend := Text.join_append (List.cons_ne_nil first parts) (List.cons_ne_nil part [])
      rwa [Text.join_singleton] at happend
    have hinits : (first :: (parts ++ [part])).inits.tail =
        (first :: parts).inits.tail ++ [first :: (parts ++ [part])] := by
      simp [List.inits_append]
    rw [← List.cons_append, List.foldl_append, ih fun _ => hfirst (by simp), List.foldl_cons,
      List.foldl_nil, descend, if_neg hne, List.cons_append, ← hjoin, hinits, List.map_append]
    rfl

theorem lineage_eq (hrelative : Text.startsWith "/" package = false) :
    lineage package = (Text.split '/' package).inits.tail.map (Text.join '/') := by
  have hjoin := Text.join_split '/' package
  change ((Text.split '/' package).foldl descend ([], "")).1 = _
  cases hsplit : Text.split '/' package with
  | nil => exact absurd hsplit (Text.split_ne_nil '/' package)
  | cons first parts =>
    rw [foldl_descend first parts]
    -- an empty first component with others behind it would be a `/` at the start
    rintro hparts rfl
    rw [hsplit, Text.join_cons "" hparts, String.empty_append] at hjoin
    have hstart := Text.startsWith_iff.mpr ⟨_, hjoin.symm⟩
    exact Bool.false_ne_true (hrelative.symm.trans hstart)

theorem mem_tail_inits {parts ps : List String} :
    ps ∈ parts.inits.tail ↔ ps ≠ [] ∧ ps <+: parts := by
  cases parts with
  | nil => simp
  | cons first more =>
    rw [List.inits_cons, List.tail_cons, List.mem_map]
    simp only [List.mem_inits]
    constructor
    · rintro ⟨before, hbefore, rfl⟩
      exact ⟨List.cons_ne_nil _ _, (List.prefix_cons_inj first).mpr hbefore⟩
    · rintro ⟨hne, hstart⟩
      obtain ⟨before, rfl, hbefore⟩ := (List.prefix_cons_iff.mp hstart).resolve_left hne
      exact ⟨before, hbefore, rfl⟩

theorem split_join_of_mem {ps : List String} (h : ps ∈ (Text.split '/' package).inits.tail) :
    Text.split '/' (Text.join '/' ps) = ps := by
  obtain ⟨hne, hstart⟩ := mem_tail_inits.mp h
  refine Text.split_join hne ?_
  intro piece hpiece
  exact Text.notMem_of_mem_split (hstart.subset hpiece)

/-- **The way down** leads through all directories above the package, and to the package. -/
theorem mem_lineage_iff (hrelative : Text.startsWith "/" package = false) :
    dir ∈ lineage package ↔ IsAbove dir package ∨ dir = package := by
  rw [lineage_eq hrelative, List.mem_map]
  constructor
  · rintro ⟨ps, hmem, rfl⟩
    obtain ⟨rest, hrest⟩ := (mem_tail_inits.mp hmem).2
    cases rest with
    | nil =>
      rw [List.append_nil] at hrest
      rw [hrest, Text.join_split]
      exact .inr rfl
    | cons next more =>
      refine .inl ⟨next :: more, List.cons_ne_nil next more, ?_⟩
      rw [split_join_of_mem hmem, hrest]
  · have hends : Text.split '/' dir <+: Text.split '/' package →
        ∃ ps ∈ (Text.split '/' package).inits.tail, Text.join '/' ps = dir := by
      intro hstart
      exact ⟨Text.split '/' dir, mem_tail_inits.mpr ⟨Text.split_ne_nil '/' dir, hstart⟩,
        Text.join_split '/' dir⟩
    rintro (⟨rest, -, hrest⟩ | rfl)
    · exact hends ⟨rest, hrest.symm⟩
    · exact hends (List.prefix_refl _)

theorem pairwise_lineage (hrelative : Text.startsWith "/" package = false) :
    (lineage package).Pairwise fun a b => depth a < depth b := by
  have hinits : (Text.split '/' package).inits.Pairwise fun a b => a.length < b.length := by
    rw [List.pairwise_iff_getElem]
    intro i j hi hj hlt
    rw [List.length_inits] at hi hj
    rw [List.getElem_inits, List.getElem_inits, List.length_take, List.length_take]
    omega
  rw [lineage_eq hrelative, List.pairwise_map]
  refine hinits.tail.imp_of_mem ?_
  intro a b ha hb hlt
  rw [depth, depth, split_join_of_mem ha, split_join_of_mem hb]
  exact hlt

/-! ## What is met on the way -/

theorem converts_eq (entry : DirDefault) :
    entry.converts = decide (entry = .yes ∨ entry = .yesBelow) := by
  cases entry <;> rfl

theorem below?_eq_some_iff {value : Bool} :
    entry.below? = some value ↔ entry.IsRecursive ∧ value = decide (entry = .yesBelow) := by
  cases entry <;> simp [below?, IsRecursive, eq_comm]

theorem bind_below?_eq_some_iff {value : Bool} :
    (table.get? dir).bind below? = some value ↔
      ∃ entry, table.get? dir = some entry ∧ entry.IsRecursive ∧
        value = decide (entry = .yesBelow) := by
  rw [Option.bind_eq_some_iff]
  simp only [below?_eq_some_iff]

theorem resolve_of_get?_eq_some (h : table.get? package = some entry) :
    resolve package table = (decide (entry = .yes ∨ entry = .yesBelow), package) := by
  rw [resolve, h]
  exact congrArg (·, package) (converts_eq entry)

/-- What is said in a directory takes the place of what was found before. -/
def hear (table : NameMap DirDefault) (found : Bool × String) (dir : String) : Bool × String :=
  match (table.get? dir).bind below? with
  | some value => (value, dir)
  | none => found

theorem resolve_of_get?_eq_none (h : table.get? package = none) :
    resolve package table = (lineage package).foldl (hear table) (false, package) := by
  rw [resolve, h]
  rfl

/-- Of what is said on the way **the last word stays**. -/
theorem foldl_hear (table : NameMap DirDefault) (found : Bool × String) (dirs : List String) :
    (dirs.foldl (hear table) found = found ∧
      ∀ dir ∈ dirs, (table.get? dir).bind below? = none) ∨
    ∃ before dir after value, dirs = before ++ dir :: after ∧
      dirs.foldl (hear table) found = (value, dir) ∧
      (table.get? dir).bind below? = some value ∧
      ∀ other ∈ after, (table.get? other).bind below? = none := by
  induction dirs using List.reverseRecOn with
  | nil => exact .inl ⟨rfl, List.forall_mem_nil _⟩
  | append_singleton dirs dir ih =>
    rw [List.foldl_append, List.foldl_cons, List.foldl_nil]
    cases hsaid : (table.get? dir).bind below? with
    | some value =>
      refine .inr ⟨dirs, dir, [], value, rfl, ?_, hsaid, List.forall_mem_nil _⟩
      rw [hear, hsaid]
    | none =>
      have hkeep : hear table (dirs.foldl (hear table) found) dir =
          dirs.foldl (hear table) found := by rw [hear, hsaid]
      have hlater : ∀ {others : List String},
          (∀ other ∈ others, (table.get? other).bind below? = none) →
          ∀ other ∈ others ++ [dir], (table.get? other).bind below? = none := by
        intro others hothers
        rw [List.forall_mem_append, List.forall_mem_singleton]
        exact ⟨hothers, hsaid⟩
      rw [hkeep]
      rcases ih with ⟨hfound, hsilent⟩ | ⟨before, spoken, after, value, rfl, hfound, hsome, hsilent⟩
      · exact .inl ⟨hfound, hlater hsilent⟩
      · refine .inr ⟨before, spoken, after ++ [dir], value, ?_, hfound, hsome, hlater hsilent⟩
        rw [List.append_assoc, List.cons_append]

theorem Reaches.heard (hrelative : Text.startsWith "/" package = false)
    (h : Reaches table package dir entry) :
    dir ∈ lineage package ∧ (table.get? dir).bind below? ≠ none := by
  refine ⟨(mem_lineage_iff hrelative).mpr (.inl h.above), ?_⟩
  rw [bind_below?_eq_some_iff.mpr ⟨entry, h.bound, h.recursive, rfl⟩]
  exact Option.some_ne_none _

/-- **The deepest one is met last**, so it decides. -/
theorem decided_resolve (hrelative : Text.startsWith "/" package = false)
    (table : NameMap DirDefault) : Decided table package (resolve package table) := by
  cases hown : table.get? package with
  | some entry =>
    rw [resolve_of_get?_eq_some hown]
    exact .own hown
  | none =>
    rw [resolve_of_get?_eq_none hown]
    rcases foldl_hear table (false, package) (lineage package) with
      ⟨hfound, hsilent⟩ | ⟨before, dir, after, value, hlineage, hfound, hsaid, hsilent⟩
    · rw [hfound]
      refine .unsaid hown ?_
      intro dir entry hreaches
      obtain ⟨hmem, hheard⟩ := hreaches.heard hrelative
      exact hheard (hsilent dir hmem)
    · obtain ⟨entry, hbound, hrecursive, rfl⟩ := bind_below?_eq_some_iff.mp hsaid
      have hmem : dir ∈ lineage package := by
        rw [hlineage]
        exact List.mem_append_right before List.mem_cons_self
      have hne : dir ≠ package := by
        rintro rfl
        exact absurd (hbound.symm.trans hown) (Option.some_ne_none _)
      have habove : IsAbove dir package :=
        ((mem_lineage_iff hrelative).mp hmem).resolve_right hne
      rw [hfound]
      refine .above hown ⟨habove, hbound, hrecursive⟩ ?_
      intro other value hreaches
      obtain ⟨hother, hheard⟩ := hreaches.heard hrelative
      have hpairwise := pairwise_lineage hrelative
      rw [hlineage] at hother hpairwise
      -- met before, it is less deep; met later, it would have been heard
      rcases List.mem_append.mp hother with hbefore | hbehind
      · exact ((List.pairwise_append.mp hpairwise).2.2 other hbefore dir List.mem_cons_self).le
      · rcases List.mem_cons.mp hbehind with rfl | hafter
        · exact le_rfl
        · exact absurd (hsilent other hafter) hheard

/-! ## Longest prefix -/

/-- What is decided depends on the package's own entry and on those that reach it. -/
theorem Decided.of_reaches {result : Bool × String} (hown : table'.get? package = table.get? package)
    (hreaches : ∀ dir entry, Reaches table' package dir entry ↔ Reaches table package dir entry)
    (h : Decided table package result) : Decided table' package result := by
  cases h with
  | own hbound => exact .own (hown.trans hbound)
  | above hnone hdir hdeepest =>
    refine .above (hown.trans hnone) ((hreaches _ _).mpr hdir) ?_
    intro other value hother
    exact hdeepest other value ((hreaches other value).mp hother)
  | unsaid hnone hsilent =>
    refine .unsaid (hown.trans hnone) ?_
    intro dir entry hdir
    exact hsilent dir entry ((hreaches dir entry).mp hdir)

/-- **Directory defaults are a longest-prefix match.** Apart from the package's own entry,
only the recursive entries above the package count, hence tables that agree in these have
the same answer. -/
theorem resolve_finds_deepest (hrelative : Text.startsWith "/" package = false) :
    (∀ table result, resolve package table = result ↔ Decided table package result) ∧
    ∀ table table' : NameMap DirDefault, table'.get? package = table.get? package →
      (∀ dir entry, IsAbove dir package → entry.IsRecursive →
        (table'.get? dir = some entry ↔ table.get? dir = some entry)) →
      resolve package table' = resolve package table := by
  constructor
  · intro table result
    constructor
    · rintro rfl
      exact decided_resolve hrelative table
    · exact (decided_resolve hrelative table).unique
  · intro table table' hown hagree
    have hreaches : ∀ dir entry,
        Reaches table' package dir entry ↔ Reaches table package dir entry := by
      intro dir entry
      constructor
      · rintro ⟨habove, hbound, hrecursive⟩
        exact ⟨habove, (hagree dir entry habove hrecursive).mp hbound, hrecursive⟩
      · rintro ⟨habove, hbound, hrecursive⟩
        exact ⟨habove, (hagree dir entry habove hrecursive).mpr hbound, hrecursive⟩
    have hdecided := decided_resolve hrelative table
    exact (decided_resolve hrelative table').unique (hdecided.of_reaches hown hreaches)

/-- Everything below `a` converts, but nothing below `a/b`; in `a/b/c` itself modules stay. -/
def mixedDefaults : NameMap DirDefault :=
  NameMap.ofList [("a", .yesBelow), ("a/b", .noBelow), ("a/b/c", .no)]

/-- The same with `a/b/c` converting, and with entries that share only text with the package. -/
def mixedDefaultsMore : NameMap DirDefault :=
  NameMap.ofList [("a", .yesBelow), ("a/b", .noBelow), ("a/b/c", .yes), ("a/b/c/do", .yesBelow),
    ("a/b/c/dog/e", .yesBelow), ("", .yesBelow)]

theorem mixedDefaults_deepest_wins :
    resolve "a/b/c/dog" mixedDefaults = (false, "a/b") ∧
      Decided mixedDefaults "a/b/c/dog" (false, "a/b") ∧
      resolve "a/b/c/dog" mixedDefaultsMore = resolve "a/b/c/dog" mixedDefaults := by
  have hrelative : Text.startsWith "/" "a/b/c/dog" = false := by decide
  have hresolve : resolve "a/b/c/dog" mixedDefaults = (false, "a/b") := by decide +kernel
  obtain ⟨hdecided, hagree⟩ := resolve_finds_deepest hrelative
  refine ⟨hresolve, (hdecided _ _).mp hresolve, hagree _ _ (by decide +kernel) ?_⟩
  have hway : lineage "a/b/c/dog" = ["a", "a/b", "a/b/c", "a/b/c/dog"] := by decide +kernel
  intro dir entry habove hrecursive
  have hmem := (mem_lineage_iff hrelative).mpr (.inl habove)
  rw [hway] at hmem
  simp only [List.mem_cons, List.not_mem_nil, or_false] at hmem
  rcases hmem with rfl | rfl | rfl | rfl <;> rcases hrecursive with rfl | rfl <;> decide +kernel

end DirDefault

end TargetGen
