import TargetGen.Proofs.Build.Targets
import TargetGen.Proofs.Target.Quote
import TargetGen.Proofs.Text

/-!
# Build files — what is printed is read back

A build file is read line by line. The reader stands outside all targets, behind the line
that opens one, among its attributes, or among the items of a list; in each of these
places there are only a few forms that a line can have. A quoted text stays on its line and
ends where it was meant to end, so no text that is printed is taken for a line, and the
reader comes out of each attribute and each target as it came in, with one more read.

A label is printed as its address. Names that are printed without quotes are words:
without a blank, at which a line is cut, and without a line break.
-/

namespace TargetGen

/-! ## What a build file shows -/

/-- The value of an attribute as far as it is printed. -/
inductive ShownValue where
  | bool (value : Bool)
  | text (value : String)
  | texts (items : List String)
  deriving DecidableEq

/-- A target as far as it is printed. -/
structure Declaration where
  rule : String
  name : String
  attrs : List (String × ShownValue)
  deriving DecidableEq

def Declaration.withAttr (d : Declaration) (name : String) (value : ShownValue) : Declaration :=
  { d with attrs := d.attrs ++ [(name, value)] }

def AttrValue.shown : AttrValue → ShownValue
  | .bool b => .bool b
  | .text s => .text s
  | .texts items => .texts items
  | .label l => .text l.address
  | .labels items => .texts (items.map Label.address)

def Target.declared (t : Target) : Declaration :=
  ⟨t.rule, t.name, t.attrs.entries.map fun (name, v) => (name, v.shown)⟩

/-- A name without blanks and line breaks. -/
def IsWord (s : String) : Prop := ' ' ∉ s.toList ∧ '\n' ∉ s.toList

instance (s : String) : Decidable (IsWord s) := inferInstanceAs (Decidable (_ ∧ _))

/-- Identifiers are words. -/
theorem IsWord.of_isAlphanum {s : String} (h : ∀ c ∈ s.toList, c.isAlphanum ∨ c = '_') :
    IsWord s := by
  constructor
  · exact fun hblank => absurd (h ' ' hblank) (by decide)
  · exact fun hline => absurd (h '\n' hline) (by decide)

/-- The rule and the attributes of a target are called by words. -/
structure Target.NamedByWords (t : Target) : Prop where
  rule : IsWord t.rule
  attrs : ∀ entry ∈ t.attrs.entries, IsWord entry.1

instance (t : Target) : Decidable t.NamedByWords :=
  decidable_of_iff (IsWord t.rule ∧ ∀ entry ∈ t.attrs.entries, IsWord entry.1)
    ⟨fun ⟨hrule, hattrs⟩ => ⟨hrule, hattrs⟩, fun ⟨hrule, hattrs⟩ => ⟨hrule, hattrs⟩⟩

namespace BuildFile

open Rendering

/-! ## The reader -/

/-- The text in quotes that stands before `closing`. -/
def unquoteTo (closing cs : List Char) : Option String :=
  match unquote cs with
  | some (s, after) => if after = closing then some s else none
  | none => none

/-- The name and the value on the line of an attribute. -/
def assignment (line : List Char) : Option (List Char × List Char) := do
  let rest ← indent.isPrefixOf? line
  let (name, rest) ← Text.cutFirst ' ' rest
  let value ← ['=', ' '].isPrefixOf? rest
  return (name, value)

/-- A value that ends on the line on which it begins. -/
def lineValue (cs : List Char) : Option ShownValue :=
  if cs = ['T', 'r', 'u', 'e', ','] then some (.bool true)
  else if cs = ['F', 'a', 'l', 's', 'e', ','] then some (.bool false)
  else if cs = ['[', ']', ','] then some (.texts [])
  else
    match cs with
    | '[' :: rest => (unquoteTo [']', ','] rest).map fun item => .texts [item]
    | _ => (unquoteTo [','] cs).map .text

/-- Where a reader stands, with the targets it has read completely. -/
inductive State where
  | outside (complete : List Declaration)
  /-- Before the name of a target. -/
  | opened (complete : List Declaration) (rule : String)
  | inside (complete : List Declaration) (current : Declaration)
  /-- Among the items of a list. -/
  | within (complete : List Declaration) (current : Declaration) (attr : String)
    (items : List String)

/-- Read a line. -/
def step : State → List Char → Option State
  | .outside complete, line =>
    if line = [] then some (.outside complete)
    else
      match Text.cutLast '(' line with
      | some (rule, []) => some (.opened complete (String.ofList rule))
      | _ => none
  | .opened complete rule, line => do
    let (attr, value) ← assignment line
    if attr = ['n', 'a', 'm', 'e'] then
      let name ← unquoteTo [','] value
      return .inside complete ⟨rule, name, []⟩
    else none
  | .inside complete current, line =>
    if line = [')'] then some (.outside (complete ++ [current]))
    else do
      let (attr, value) ← assignment line
      if value = ['['] then return .within complete current (String.ofList attr) []
      else
        let value ← lineValue value
        return .inside complete (current.withAttr (String.ofList attr) value)
  | .within complete current attr items, line =>
    if line = indent ++ [']', ','] then
      some (.inside complete (current.withAttr attr (.texts items)))
    else do
      let rest ← (indent ++ indent).isPrefixOf? line
      let item ← unquoteTo [','] rest
      return .within complete current attr (items ++ [item])

/-- Read all lines of a text. -/
def run (st : State) (cs : List Char) : Option State := (Text.fields '\n' cs).foldlM step st

/-- The targets that a build file declares. -/
def read (text : String) : Option (List Declaration) :=
  match run (.outside []) text.toList with
  | some (.outside complete) => some complete
  | _ => none

variable {st : State} {complete : List Declaration} {current : Declaration} {attr : String}
  {line value rest : List Char} {shown : ShownValue}

/-! ## Lines -/

theorem run_line (st : State) (rest : List Char) (hline : '\n' ∉ line) :
    run st (line ++ '\n' :: rest) = (step st line).bind fun st' => run st' rest := by
  rw [run, Text.fields_append, Text.fields_of_notMem hline, List.singleton_append,
    List.foldlM_cons]
  rfl

theorem unquoteTo_quote (s : String) (closing : List Char) :
    unquoteTo closing (quote s ++ closing) = some s := by
  rw [unquoteTo, unquote_quote]
  exact if_pos rfl

theorem assignment_attr (value : List Char) (hattr : ' ' ∉ attr.toList) :
    assignment (indent ++ attr.toList ++ [' ', '=', ' '] ++ value) =
      some (attr.toList, value) := by
  have hcut : Text.cutFirst ' ' (attr.toList ++ ' ' :: '=' :: ' ' :: value) =
      some (attr.toList, '=' :: ' ' :: value) := Text.cutFirst_eq_some_iff.mpr ⟨rfl, hattr⟩
  have hindent : indent.isPrefixOf? (indent ++ attr.toList ++ [' ', '=', ' '] ++ value) =
      some (attr.toList ++ ' ' :: '=' :: ' ' :: value) :=
    List.isPrefixOf?_eq_some_iff_append_eq.mpr (by simp)
  rw [assignment, hindent]
  simp [hcut, List.isPrefixOf?]

theorem attr_append (name value rest : List Char) :
    Rendering.attr name value ++ rest =
      (indent ++ name ++ [' ', '=', ' '] ++ (value ++ [','])) ++ '\n' :: rest := by
  simp [Rendering.attr]

theorem newline_notMem_attr (hattr : '\n' ∉ attr.toList) (hvalue : '\n' ∉ value) :
    '\n' ∉ indent ++ attr.toList ++ [' ', '=', ' '] ++ value := by
  simp [indent, hattr, hvalue]

theorem attr_ne_close (value : List Char) :
    indent ++ attr.toList ++ [' ', '=', ' '] ++ value ≠ [')'] := by
  simp [indent]

/-! ## Attributes -/

theorem run_attr_line (hattr : IsWord attr) (hvalue : '\n' ∉ value)
    (hread : lineValue (value ++ [',']) = some shown) :
    run (.inside complete current) (Rendering.attr attr.toList value ++ rest) =
      run (.inside complete (current.withAttr attr shown)) rest := by
  have hnewline : '\n' ∉ value ++ [','] := by simp [hvalue]
  have hlist : value ++ [','] ≠ ['['] := by
    intro h
    have hlast := congrArg List.getLast? h
    simp at hlast
  rw [attr_append, run_line _ _ (newline_notMem_attr hattr.2 hnewline), step,
    if_neg (attr_ne_close _), assignment_attr _ hattr.1]
  simp [hlist, hread]

/-- The lines of a list behind the one that opens it. -/
def itemLines (items : List String) : List Char :=
  items.flatMap (fun item => indent ++ indent ++ quote item ++ [',', '\n'])
    ++ indent ++ [']', ',', '\n']

theorem run_itemLines (attr : String) (items read : List String) (rest : List Char) :
    run (.within complete current attr read) (itemLines items ++ rest) =
      run (.inside complete (current.withAttr attr (.texts (read ++ items)))) rest := by
  induction items generalizing read with
  | nil =>
    have hsplit : itemLines [] ++ rest = (indent ++ [']', ',']) ++ '\n' :: rest := by
      simp [itemLines]
    rw [hsplit, run_line _ _ (by decide), step, if_pos rfl, List.append_nil]
    rfl
  | cons item items ih =>
    have hsplit : itemLines (item :: items) ++ rest =
        (indent ++ indent ++ (quote item ++ [','])) ++ '\n' :: (itemLines items ++ rest) := by
      simp [itemLines]
    have hline : '\n' ∉ indent ++ indent ++ (quote item ++ [',']) := by
      simp [indent, newline_notMem_quote]
    have hclose : indent ++ indent ++ (quote item ++ [',']) ≠ indent ++ [']', ','] := by
      simp [indent]
    have hindent : (indent ++ indent).isPrefixOf? (indent ++ indent ++ (quote item ++ [','])) =
        some (quote item ++ [',']) :=
      List.isPrefixOf?_eq_some_iff_append_eq.mpr rfl
    rw [hsplit, run_line _ _ hline, step, if_neg hclose, hindent,
      List.append_cons read item items, ← ih]
    simp [unquoteTo_quote]

theorem lineValue_quote (s : String) : lineValue (quote s ++ [',']) = some (.text s) := by
  have hread := unquoteTo_quote s [',']
  have hsplit : quote s ++ [','] = '"' :: (s.toList.flatMap escape ++ ['"', ',']) := by
    simp [quote]
  rw [hsplit] at hread ⊢
  simp [lineValue, hread]

theorem lineValue_singleton (item : String) :
    lineValue (list [item] ++ [',']) = some (.texts [item]) := by
  have hread := unquoteTo_quote item [']', ',']
  have hsplit : list [item] ++ [','] = '[' :: (quote item ++ [']', ',']) := by simp [list]
  have hempty : '[' :: (quote item ++ [']', ',']) ≠ ['[', ']', ','] := by simp [quote]
  rw [hsplit, lineValue, if_neg (by simp), if_neg (by simp), if_neg hempty, hread]
  rfl

theorem run_attr_list (hattr : IsWord attr) (items : List String) :
    run (.inside complete current) (Rendering.attr attr.toList (list items) ++ rest) =
      run (.inside complete (current.withAttr attr (.texts items))) rest := by
  match items with
  | [] => exact run_attr_line hattr (by decide) rfl
  | [item] =>
    have hline : '\n' ∉ list [item] := by simp [list, newline_notMem_quote]
    exact run_attr_line hattr hline (lineValue_singleton item)
  | first :: second :: others =>
    have hsplit : Rendering.attr attr.toList (list (first :: second :: others)) ++ rest =
        (indent ++ attr.toList ++ [' ', '=', ' '] ++ ['[']) ++ '\n' ::
          (itemLines (first :: second :: others) ++ rest) := by
      simp [Rendering.attr, list, itemLines]
    rw [hsplit, run_line _ _ (newline_notMem_attr hattr.2 (by decide)), step,
      if_neg (attr_ne_close _), assignment_attr _ hattr.1]
    have hitems : run (.within complete current attr [])
        (itemLines (first :: second :: others) ++ rest) = _ := run_itemLines attr _ [] rest
    simpa using hitems

/-- **An attribute** is read, and the reader stands behind it. -/
theorem run_attr (hattr : IsWord attr) (v : AttrValue) :
    run (.inside complete current) (Rendering.attr attr.toList (Rendering.value v) ++ rest) =
      run (.inside complete (current.withAttr attr v.shown)) rest := by
  cases v with
  | bool b => cases b <;> exact run_attr_line hattr (by decide) rfl
  | text s => exact run_attr_line hattr (newline_notMem_quote s) (lineValue_quote s)
  | texts items => exact run_attr_list hattr items
  | label l =>
    exact run_attr_line hattr (newline_notMem_quote l.address) (lineValue_quote l.address)
  | labels items => exact run_attr_list hattr (items.map Label.address)

theorem run_attrs {entries : List (String × AttrValue)}
    (hwords : ∀ entry ∈ entries, IsWord entry.1) (current : Declaration) :
    run (.inside complete current)
        (entries.flatMap (fun (name, v) => Rendering.attr name.toList (Rendering.value v))
          ++ rest) =
      run (.inside complete { current with
        attrs := current.attrs ++ entries.map fun (name, v) => (name, v.shown) }) rest := by
  induction entries generalizing current with
  | nil => simp
  | cons entry entries ih =>
    have hentry := hwords entry List.mem_cons_self
    have hentries := fun other ho => hwords other (List.mem_cons_of_mem entry ho)
    rw [List.flatMap_cons, List.append_assoc, run_attr hentry, ih hentries]
    simp [Declaration.withAttr]

theorem value_eq_iff {v w : AttrValue} :
    Rendering.value v = Rendering.value w ↔ v.shown = w.shown := by
  constructor
  · intro h
    have hword : IsWord "" := by decide
    have hread (u : AttrValue) :
        run (.inside [] ⟨"", "", []⟩) (Rendering.attr [] (Rendering.value u) ++ [')']) =
          some (.outside [⟨"", "", [("", u.shown)]⟩]) := run_attr hword u
    have hboth := hread v
    rw [h, hread w] at hboth
    simpa using hboth.symm
  · intro h
    cases v <;> cases w <;> simp_all [AttrValue.shown, Rendering.value]

/-! ## Targets -/

theorem run_rule {rule : String} (hrule : IsWord rule) :
    run (.outside complete) (rule.toList ++ ['('] ++ '\n' :: rest) =
      run (.opened complete rule) rest := by
  have hline : '\n' ∉ rule.toList ++ ['('] := by simp [hrule.2]
  have hcut : Text.cutLast '(' (rule.toList ++ ['(']) = some (rule.toList, []) :=
    Text.cutLast_eq_some_iff.mpr ⟨rfl, List.not_mem_nil⟩
  rw [run_line _ _ hline, step, if_neg (by simp), hcut]
  simp

theorem run_name (rule name : String) :
    run (.opened complete rule) (Rendering.attr ['n', 'a', 'm', 'e'] (quote name) ++ rest) =
      run (.inside complete ⟨rule, name, []⟩) rest := by
  have hline : '\n' ∉ quote name ++ [','] := by simp [newline_notMem_quote]
  have hname : ['n', 'a', 'm', 'e'] = "name".toList := rfl
  rw [hname, attr_append, run_line _ _ (newline_notMem_attr (by decide) hline), step,
    assignment_attr _ (by decide)]
  simp [unquoteTo_quote]

theorem run_close : run (.inside complete current) (')' :: '\n' :: rest) =
    run (.outside (complete ++ [current])) rest := by
  have hline : '\n' ∉ [')'] := by decide
  exact run_line _ rest hline

theorem run_blank : run (.outside complete) ('\n' :: rest) = run (.outside complete) rest :=
  run_line _ rest List.not_mem_nil

/-- **A target** is read, and the reader stands behind it. -/
theorem run_target {t : Target} (ht : t.NamedByWords) :
    run (.outside complete) (Rendering.target t ++ '\n' :: rest) =
      run (.outside (complete ++ [t.declared])) rest := by
  have hsplit : Rendering.target t ++ '\n' :: rest =
      t.rule.toList ++ ['('] ++ '\n' :: (Rendering.attr ['n', 'a', 'm', 'e'] (quote t.name) ++
        (t.attrs.entries.flatMap (fun (name, v) => Rendering.attr name.toList (Rendering.value v))
          ++ ')' :: '\n' :: rest)) := by
    simp [Rendering.target]
  rw [hsplit, run_rule ht.rule, run_name, run_attrs ht.attrs, run_close]
  rfl

theorem run_file {ts : List Target} (hts : ∀ t ∈ ts, t.NamedByWords)
    (complete : List Declaration) :
    run (.outside complete) (Rendering.file ts) =
      some (.outside (complete ++ ts.map Target.declared)) := by
  induction ts generalizing complete with
  | nil =>
    rw [List.map_nil, List.append_nil]
    rfl
  | cons t others ih =>
    have ht := hts t List.mem_cons_self
    have hothers := fun u hu => hts u (List.mem_cons_of_mem t hu)
    cases others with
    | nil => exact run_target ht
    | cons next others =>
      have hsplit : Rendering.file (t :: next :: others) =
          Rendering.target t ++ '\n' :: '\n' :: Rendering.file (next :: others) := by
        simp [Rendering.file]
      rw [hsplit, run_target ht, run_blank, ih hothers, List.append_assoc]
      rfl

theorem read_renderFile {ts : List Target} (hts : ∀ t ∈ ts, t.NamedByWords) :
    read (Target.renderFile ts) = some (ts.map Target.declared) := by
  rw [read, Target.renderFile, String.toList_ofList, run_file hts, List.nil_append]

example : read "filegroup(\n    name = \"files\",\n    tags = [\"manual\"],\n)\n" =
    some [⟨"filegroup", "files", [("tags", .texts ["manual"])]⟩] := by decide +kernel

/-! ## The build files of a report -/

theorem mem_targets_of_mem_targetsIn {r : BuildReport} {package : String} {t : Target}
    (h : t ∈ r.targetsIn package) : t ∈ r.targets := by
  rw [(r.targetsIn_perm package).mem_iff] at h
  exact List.mem_of_mem_filter h

theorem map_read_renderedFiles {r : BuildReport} (hr : ∀ t ∈ r.targets, t.NamedByWords) :
    r.renderedFiles.map (fun (package, text) => (package, read text)) =
      r.buildFiles.map (fun (package, ts) => (package, some (ts.map Target.declared))) := by
  rw [BuildReport.renderedFiles, BuildReport.buildFiles, List.map_map, List.map_map, List.map_map]
  refine List.map_congr_left fun package _ => ?_
  have hread := read_renderFile fun t (ht : t ∈ r.targetsIn package) =>
    hr t (mem_targets_of_mem_targetsIn ht)
  exact congrArg (Prod.mk package) hread

/-- **Build files can be read back.** A reader gives the rule, the name and the attributes
of each target that was printed, in order, for any list of targets and for every file of a
report. Quoted texts can be told from what follows them: they hold no line break, and the
only quote in them that is not escaped, but for the first, is the last. Values are printed
alike only if they show the same. -/
theorem build_files_read_back :
    (∀ ts : List Target, (∀ t ∈ ts, t.NamedByWords) →
      read (Target.renderFile ts) = some (ts.map Target.declared)) ∧
    (∀ r : BuildReport, (∀ t ∈ r.targets, t.NamedByWords) →
      r.renderedFiles.map (fun (package, text) => (package, read text)) =
        r.buildFiles.map fun (package, ts) => (package, some (ts.map Target.declared))) ∧
    (∀ s rest, unquote (quote s ++ rest) = some (s, rest)) ∧
    (∀ s, '\n' ∉ quote s) ∧
    (∀ s before after, quote s = '"' :: (before ++ '"' :: after) →
      (leavesEscape before = false ↔ after = [])) ∧
    (∀ v w, Rendering.value v = Rendering.value w ↔ v.shown = w.shown) := by
  refine ⟨fun ts hts => read_renderFile hts, fun r hr => map_read_renderedFiles hr,
    unquote_quote, newline_notMem_quote, fun s before after h => ?_, fun v w => value_eq_iff⟩
  exact leavesEscape_iff_of_quote_eq h

/-- Texts that look like lines of a build file. -/
def misleading : List Target :=
  [((Target.plain "genrule" "say \"hi\"\\" "a").withAttr "cmd"
      (.text ")\n\ngenrule(\n    name = \"x\",\n)\n")).withAttr "tags"
        (.texts ["    ],", "a,\n", "\\\\\""]),
    (((Target.plain "filegroup" "" "a").withAttr "data" (.texts [])).withAttr "srcs"
      (.labels [Label.ofAddress "[\"//x:y\"]"])).withAttr "visible" (.bool true)]

theorem misleading_read_back : (∀ t ∈ misleading, t.NamedByWords) ∧
    read (Target.renderFile misleading) = some (misleading.map Target.declared) := by
  have hwords : ∀ t ∈ misleading, t.NamedByWords := by decide +kernel
  exact ⟨hwords, build_files_read_back.1 misleading hwords⟩

end BuildFile

end TargetGen
