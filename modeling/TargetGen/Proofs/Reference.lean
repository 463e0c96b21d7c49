import TargetGen.Expansion
import TargetGen.Proofs.Result
import TargetGen.Proofs.Text
import TargetGen.SourceTree.Listing

/-!
# References — which texts are read as one

Behind its mark a reference is a name, or a name and a tag in braces, and neither of
them holds a brace of its own. The name ends at the first opening brace, so it cannot
hold one; and what is left is looked through for both braces. But a closing brace in
the name is looked for only where no tag follows. So reading accepts a little more
than is written (`Reference.ofMarked_eq_ok_iff`): a stray closing brace before a tag
becomes a part of the name.

Everywhere else the grammar is what is read (`Viewpoint.reads_grammar_iff`), and a
reference that is written is read back as it was.

What a whole entry refers to depends on its mark (`Viewpoint.Refers`); where modules are
listed by name, an entry without a mark means the module of that name (`Viewpoint.Means`).
-/

namespace TargetGen

variable {entry rest : String} {reference : Reference} {cs name tag : List Char}

namespace Reference

/-! ## The grammar -/

/-- A text without braces. -/
def Unbraced (text : String) : Prop := '\x7b' ∉ text.toList ∧ '\x7d' ∉ text.toList

instance (text : String) : Decidable (Unbraced text) := inferInstanceAs (Decidable (_ ∧ _))

/-- A name with a tag in braces behind it. -/
def tagged (name tag : String) : String := name ++ "\x7b" ++ tag ++ "\x7d"

/-- What stands behind the mark of a reference: a name, or a name and a tag in braces. -/
inductive Written : String → Reference → Prop where
  | plain {name : String} : name ≠ "" → Unbraced name → Written name ⟨name, ""⟩
  | tagged {name tag : String} : name ≠ "" → Unbraced name → Unbraced tag →
      Written (tagged name tag) ⟨name, tag⟩

/-- A name with a stray closing brace, and a tag behind it. -/
inductive Strayed : String → Reference → Prop where
  | intro {name tag : String} : '\x7b' ∉ name.toList → '\x7d' ∈ name.toList → Unbraced tag →
      Strayed (tagged name tag) ⟨name, tag⟩

/-- What a reference to a module in sight is spelled like; an empty tag is left out. -/
def spelled (reference : Reference) : String :=
  ":" ++ if reference.tag = "" then reference.name else tagged reference.name reference.tag

theorem toList_tagged (name tag : String) :
    (tagged name tag).toList = name.toList ++ '\x7b' :: (tag.toList ++ ['\x7d']) := by
  simp [tagged]

/-! ## Reading on characters -/

theorem splitTag_of_plain (hname : name ≠ []) (hopen : '\x7b' ∉ name) (hclose : '\x7d' ∉ name) :
    splitTag name = .ok (name, []) := by
  have hcut : Text.cutFirst '\x7b' name = none := Text.cutFirst_eq_none_iff.mpr hopen
  simp [splitTag, bind, Except.bind, hcut, hclose, hname]

theorem splitTag_of_tagged (hname : name ≠ []) (hopen : '\x7b' ∉ name) (htag : '\x7b' ∉ tag)
    (hclose : '\x7d' ∉ tag) :
    splitTag (name ++ '\x7b' :: (tag ++ ['\x7d'])) = .ok (name, tag) := by
  have hcut : Text.cutFirst '\x7b' (name ++ '\x7b' :: (tag ++ ['\x7d'])) =
      some (name, tag ++ ['\x7d']) := Text.cutFirst_eq_some_iff.mpr ⟨rfl, hopen⟩
  simp [splitTag, bind, Except.bind, hcut, htag, hclose, hname]

theorem eq_of_named {before after : List Char}
    (h : (if before = [] then Except.error ReferenceFault.emptyName else .ok (before, after)) =
      .ok (name, tag)) : before ≠ [] ∧ before = name ∧ after = tag := by
  split at h
  next => cases h
  next hname => exact ⟨hname, Prod.mk.inj (Except.ok.inj h)⟩

/-- What is read is a plain name, or a tagged one that may hold a closing brace. -/
theorem eq_of_splitTag (h : splitTag cs = .ok (name, tag)) :
    name ≠ [] ∧ '\x7b' ∉ name ∧
      (cs = name ∧ tag = [] ∧ '\x7d' ∉ name ∨
        cs = name ++ '\x7b' :: (tag ++ ['\x7d']) ∧ '\x7b' ∉ tag ∧ '\x7d' ∉ tag) := by
  unfold splitTag at h
  simp only [bind, Except.bind] at h
  split at h
  next before after hcut =>
    obtain ⟨rfl, hopen⟩ := Text.cutFirst_eq_some_iff.mp hcut
    split at h
    next hlast =>
      obtain ⟨inner, rfl⟩ := List.getLast?_eq_some_iff.mp hlast
      rw [List.dropLast_concat] at h
      split at h
      next => cases h
      next hbraces =>
        obtain ⟨hname, rfl, rfl⟩ := eq_of_named h
        exact ⟨hname, hopen, .inr ⟨rfl, not_or.mp hbraces⟩⟩
    next => cases h
  next hcut =>
    split at h
    next => cases h
    next hclose =>
      obtain ⟨hname, rfl, rfl⟩ := eq_of_named h
      exact ⟨hname, Text.cutFirst_eq_none_iff.mp hcut, .inl ⟨rfl, rfl, hclose⟩⟩

/-! ## Reading on strings -/

theorem ofMarked_eq_ok_iff_splitTag :
    ofMarked entry rest = .ok reference ↔
      splitTag rest.toList = .ok (reference.name.toList, reference.tag.toList) := by
  unfold ofMarked
  constructor
  · intro h
    split at h
    next name tag hsplit =>
      obtain rfl := Except.ok.inj h
      rw [hsplit, String.toList_ofList, String.toList_ofList]
    next => cases h
  · intro h
    simp [h]

/-- **What is read behind a mark**: what is written there, and a tagged name with a
stray closing brace. -/
theorem ofMarked_eq_ok_iff :
    ofMarked entry rest = .ok reference ↔ Written rest reference ∨ Strayed rest reference := by
  rw [ofMarked_eq_ok_iff_splitTag]
  constructor
  · intro h
    obtain ⟨name, tag⟩ := reference
    obtain ⟨hname, hopen, ⟨hrest, htag, hclose⟩ | ⟨hrest, htag⟩⟩ := eq_of_splitTag h
    · obtain rfl : rest = name := String.toList_injective hrest
      obtain rfl : tag = "" := String.toList_injective htag
      exact .inl (.plain (mt String.toList_eq_nil_iff.mpr hname) ⟨hopen, hclose⟩)
    · obtain rfl : rest = tagged name tag :=
        String.toList_injective (hrest.trans (toList_tagged name tag).symm)
      by_cases hclose : '\x7d' ∈ name.toList
      · exact .inr (.intro hopen hclose htag)
      · exact .inl (.tagged (mt String.toList_eq_nil_iff.mpr hname) ⟨hopen, hclose⟩ htag)
  · rintro (h | h)
    · cases h with
      | plain hname hplain =>
        exact splitTag_of_plain (mt String.toList_eq_nil_iff.mp hname) hplain.1 hplain.2
      | tagged hname hplain htag =>
        rw [toList_tagged]
        exact splitTag_of_tagged (mt String.toList_eq_nil_iff.mp hname) hplain.1 htag.1 htag.2
    · cases h with
      | intro hopen hclose htag =>
        rw [toList_tagged]
        exact splitTag_of_tagged (List.ne_nil_of_mem hclose) hopen htag.1 htag.2

theorem ofMarked_eq_error {e : ModuleError} (h : ofMarked entry rest = .error e) :
    ∃ fault, e = .malformedReference entry fault := by
  unfold ofMarked at h
  split at h
  next => cases h
  next fault _ => exact ⟨fault, (Except.error.inj h).symm⟩

theorem name_ne_empty_of_marked (h : ofMarked entry rest = .ok reference) :
    reference.name ≠ "" := by
  obtain ⟨hname, -⟩ := eq_of_splitTag (ofMarked_eq_ok_iff_splitTag.mp h)
  exact mt String.toList_eq_nil_iff.mpr hname

theorem eq_of_tagged_eq {name tag name' tag' : String} (h : tagged name tag = tagged name' tag')
    (hopen : '\x7b' ∉ name.toList) (hopen' : '\x7b' ∉ name'.toList) : name = name' := by
  have hcut := Text.cutFirst_eq_some_iff.mpr ⟨toList_tagged name tag, hopen⟩
  have hcut' := Text.cutFirst_eq_some_iff.mpr ⟨toList_tagged name' tag', hopen'⟩
  rw [h, hcut'] at hcut
  exact String.toList_injective (Prod.mk.inj (Option.some.inj hcut)).1.symm

theorem Strayed.not_written (h : Strayed rest reference) (other : Reference) :
    ¬ Written rest other := by
  obtain ⟨hopen, hclose, -⟩ := h
  intro hwritten
  generalize hrest : tagged _ _ = rest at hwritten
  cases hwritten with
  | plain _ hplain =>
    apply hplain.1
    rw [← hrest, toList_tagged]
    exact List.mem_append_right _ List.mem_cons_self
  | tagged _ hplain _ =>
    obtain rfl := eq_of_tagged_eq hrest hopen hplain.1
    exact hplain.2 hclose

theorem exists_spelled (hname : reference.name ≠ "") (hplain : Unbraced reference.name)
    (htag : Unbraced reference.tag) :
    ∃ rest, reference.spelled = ":" ++ rest ∧ Written rest reference := by
  obtain ⟨name, tag⟩ := reference
  unfold spelled
  split
  next hempty =>
    obtain rfl : tag = "" := hempty
    exact ⟨name, rfl, .plain hname hplain⟩
  next => exact ⟨tagged name tag, rfl, .tagged hname hplain htag⟩

end Reference

/-! ## Entries -/

namespace Viewpoint

variable {v : Viewpoint}

theorem reference?_marked (v : Viewpoint) (rest : String) :
    v.reference? (":" ++ rest) = (Reference.ofMarked (":" ++ rest) rest).map some := by
  rw [reference?, Text.afterStart_eq_some.mpr rfl]
  show (Reference.ofMarked (":" ++ rest) rest >>= fun reference => pure (some reference)) = _
  cases Reference.ofMarked (":" ++ rest) rest <;> rfl

theorem reference?_eq_error {e : ModuleError} (h : v.reference? entry = .error e) :
    ∃ fault, e = .malformedReference entry fault := by
  unfold reference? at h
  split at h
  next rest _ =>
    rcases bind_eq_error h with hr | ⟨_, -, h⟩
    · exact Reference.ofMarked_eq_error hr
    · cases h
  next =>
    split at h
    next scope rest _ =>
      rcases bind_eq_error h with hr | ⟨reference, -, h⟩
      · exact Reference.ofMarked_eq_error hr
      · split at h <;> cases h
    next => cases h

/-! ### What entries refer to -/

/-- An entry refers to a module by a name and a tag behind a mark. -/
inductive Refers (v : Viewpoint) (entry : String) : Reference → Prop where
  /-- Behind `:` stands a module in sight. -/
  | insight {body : String} {reference : Reference} : entry = ":" ++ body →
      Reference.ofMarked entry body = .ok reference → Refers v entry reference
  /-- Behind `//ns:` stands a module of the namespace `ns`, if it has one. -/
  | qualified {scope body : String} {reference : Reference} {id : ModuleId} :
      entry = "//" ++ scope ++ ":" ++ body → ':' ∉ scope.toList →
      Reference.ofMarked entry body = .ok reference →
      v.graph.find? reference.name scope = some id →
      Refers v entry ⟨Reference.qualified scope reference.name, reference.tag⟩

/-- Whether an entry with a namespace is a reference depends on the modules of that. -/
theorem reference?_qualified {scope body : String} {found : Reference}
    (hentry : entry = "//" ++ scope ++ ":" ++ body) (hscope : ':' ∉ scope.toList)
    (hread : Reference.ofMarked entry body = .ok found) :
    v.reference? entry = match v.graph.find? found.name scope with
      | some _ => .ok (some ⟨Reference.qualified scope found.name, found.tag⟩)
      | none => .ok none := by
  have hlocal : Text.afterStart ":" entry = none := by
    rw [Text.afterStart_eq_none, hentry]
    simp [Text.startsWith, List.isPrefixOf]
  have habsolute : Text.afterStart "//" entry = some (scope ++ ":" ++ body) := by
    rw [Text.afterStart_eq_some, hentry]
    simp only [String.append_assoc]
  rw [reference?, hlocal, habsolute]
  simp only [Option.bind_some, Text.splitFirst_colon hscope, hread]
  show (match v.graph.find? found.name scope with | some _ => _ | none => _) = _
  cases v.graph.find? found.name scope <;> rfl

theorem refers_iff : v.Refers entry reference ↔ v.reference? entry = .ok (some reference) := by
  constructor
  · intro h
    cases h with
    | @insight body _ hentry hread =>
      have hlocal : Text.afterStart ":" entry = some body := Text.afterStart_eq_some.mpr hentry
      rw [reference?, hlocal]
      simp only [hread]
      rfl
    | @qualified scope body found id hentry hscope hread hfind =>
      rw [reference?_qualified hentry hscope hread, hfind]
  · intro h
    unfold reference? at h
    split at h
    next body hlocal =>
      obtain ⟨found, hread, h⟩ := bind_eq_ok h
      obtain rfl := Option.some.inj (Except.ok.inj h)
      exact .insight (Text.afterStart_eq_some.mp hlocal) hread
    next =>
      split at h
      next scope body hmarked =>
        obtain ⟨found, hread, h⟩ := bind_eq_ok h
        obtain ⟨rest, habsolute, hsplit⟩ := Option.bind_eq_some_iff.mp hmarked
        obtain ⟨hrest, hscope⟩ := Text.splitFirst_eq_some_iff.mp hsplit
        have hentry : entry = "//" ++ scope ++ ":" ++ body := by
          rw [Text.afterStart_eq_some.mp habsolute]
          apply String.toList_injective
          simp [hrest]
        split at h
        next id hfind =>
          obtain rfl := Option.some.inj (Except.ok.inj h)
          exact .qualified hentry hscope hread hfind
        next => cases h
      next => cases h

/-- An entry is marked as a reference and is none. -/
def Malformed (v : Viewpoint) (entry : String) : Prop :=
  ∃ fault, v.reference? entry = .error (.malformedReference entry fault)

theorem exists_reference_of_readable (h : ¬ v.Malformed entry) :
    ∃ reference, v.reference? entry = .ok reference := by
  cases hread : v.reference? entry with
  | ok reference => exact ⟨reference, rfl⟩
  | error e =>
    obtain ⟨fault, rfl⟩ := reference?_eq_error hread
    exact absurd ⟨fault, hread⟩ h

/-- What an entry of a list of modules means: the reference that it is, or else the module
of that very name. -/
inductive Means (v : Viewpoint) (entry : String) : Reference → Prop where
  | marked {reference : Reference} : v.Refers entry reference → Means v entry reference
  | plain : v.reference? entry = .ok none → Means v entry ⟨entry, ""⟩

theorem means_iff {found : Option Reference} (h : v.reference? entry = .ok found) :
    v.Means entry reference ↔ found.getD ⟨entry, ""⟩ = reference := by
  constructor
  · intro hmeans
    cases hmeans with
    | marked hrefers =>
      obtain rfl := Except.ok.inj (h.symm.trans (refers_iff.mp hrefers))
      rfl
    | plain hplain =>
      obtain rfl := Except.ok.inj (h.symm.trans hplain)
      rfl
  · rintro rfl
    cases found with
    | none => exact .plain h
    | some reference => exact .marked (refers_iff.mpr h)

theorem exists_of_means (h : v.Means entry reference) :
    ∃ found, v.reference? entry = .ok found ∧ found.getD ⟨entry, ""⟩ = reference := by
  cases h with
  | marked hrefers => exact ⟨_, refers_iff.mp hrefers, rfl⟩
  | plain hplain => exact ⟨_, hplain, rfl⟩

/-! ### Expanded entries -/

theorem reference?_of_expandEntry {excludes : List String} {e : Expanded}
    (h : v.expandEntry excludes entry = .ok e) : v.reference? entry = .ok e.reference? := by
  obtain ⟨found, hread, h⟩ := bind_eq_ok h
  rw [hread]
  cases found with
  | some reference =>
    obtain rfl := Except.ok.inj h
    rfl
  | none =>
    dsimp only at h
    split at h
    next =>
      obtain ⟨labels, -, h⟩ := bind_eq_ok h
      obtain rfl := Except.ok.inj h
      rfl
    next =>
      obtain rfl := Except.ok.inj h
      rfl

theorem expandName_of_means (h : v.Means entry reference) (hname : reference.name ≠ "") :
    v.expandName entry = .ok (.named reference (v.moduleLabel entry reference)) := by
  obtain ⟨found, hread, hfound⟩ := exists_of_means h
  rw [expandName, hread]
  show (if (found.getD ⟨entry, ""⟩).name = "" then _ else _) = _
  rw [hfound, if_neg hname]
  rfl

theorem exists_means_of_expandName {e : Expanded} (h : v.expandName entry = .ok e) :
    ∃ reference, e.reference? = some reference ∧ v.Means entry reference := by
  obtain ⟨found, hread, h⟩ := bind_eq_ok h
  dsimp only at h
  split at h
  next => cases h
  next =>
    obtain rfl := Except.ok.inj h
    exact ⟨_, rfl, (means_iff hread).mpr rfl⟩

theorem collect_eq_iff_mapM {α : Type} {f : String → Except ModuleError α} {entries : List String}
    {found : List α} : collect f entries = (found, none) ↔ entries.mapM f = .ok found := by
  rw [mapM_eq_ok_iff]
  constructor
  · intro h
    induction entries generalizing found with
    | nil =>
      obtain ⟨rfl, -⟩ := Prod.mk.inj h
      exact .nil
    | cons entry rest ih =>
      rw [collect] at h
      split at h
      next e _ => exact absurd (Prod.mk.inj h).2 (Option.some_ne_none e)
      next a hentry =>
        obtain ⟨rfl, hnone⟩ := Prod.mk.inj h
        exact .cons hentry (ih (Prod.ext rfl hnone))
  · intro h
    induction h with
    | nil => rfl
    | cons hentry _ ih => rw [collect, hentry, ih]

/-! ### Entries behind a colon -/

/-- **What an entry behind `:` is read as**: what is written there, and a tagged name
with a stray closing brace. -/
theorem reference?_marked_eq_ok_iff :
    v.reference? (":" ++ rest) = .ok (some reference) ↔
      Reference.Written rest reference ∨ Reference.Strayed rest reference := by
  rw [reference?_marked, ← Reference.ofMarked_eq_ok_iff]
  constructor
  · intro h
    obtain ⟨found, hread, hfound⟩ := map_eq_ok h
    rw [hread, Option.some.inj hfound]
  · intro h
    rw [h]
    rfl

theorem reference?_marked_eq_error (h : ∀ reference, ¬ Reference.Written rest reference)
    (h' : ∀ reference, ¬ Reference.Strayed rest reference) :
    ∃ fault, v.reference? (":" ++ rest) = .error (.malformedReference (":" ++ rest) fault) := by
  cases hread : Reference.ofMarked (":" ++ rest) rest with
  | ok reference =>
    rcases Reference.ofMarked_eq_ok_iff.mp hread with hwritten | hstrayed
    · exact absurd hwritten (h reference)
    · exact absurd hstrayed (h' reference)
  | error e =>
    obtain ⟨fault, rfl⟩ := Reference.ofMarked_eq_error hread
    exact ⟨fault, by rw [reference?_marked, hread]; rfl⟩

/-- A text behind `:` is read as the reference that it is written for, and refused as a
whole if it is written for none. -/
structure ReadsAsWritten (v : Viewpoint) (rest : String) : Prop where
  reads : ∀ reference, v.reference? (":" ++ rest) = .ok (some reference) ↔
    Reference.Written rest reference
  refuses : (∀ reference, ¬ Reference.Written rest reference) →
    ∃ fault, v.reference? (":" ++ rest) = .error (.malformedReference (":" ++ rest) fault)

theorem not_readsAsWritten (h : Reference.Strayed rest reference) : ¬ v.ReadsAsWritten rest := by
  intro hreads
  have hread := (reference?_marked_eq_ok_iff (v := v)).mpr (.inr h)
  exact h.not_written reference ((hreads.reads reference).mp hread)

theorem readsAsWritten_of_not_strayed (h : ∀ reference, ¬ Reference.Strayed rest reference) :
    v.ReadsAsWritten rest where
  reads reference := by
    rw [reference?_marked_eq_ok_iff]
    exact or_iff_left (h reference)
  refuses hwritten := reference?_marked_eq_error hwritten h

/-- **The grammar is what is read**, unless a closing brace strays into the name in front
of a tag: then it is taken for a part of the name. What is spelled by the grammar is read
back as it was. -/
theorem reads_grammar_iff (v : Viewpoint) (rest : String) (reference : Reference) :
    (v.ReadsAsWritten rest ↔ ∀ stray, ¬ Reference.Strayed rest stray) ∧
      (Reference.Strayed rest reference →
        v.reference? (":" ++ rest) = .ok (some reference)) ∧
      (reference.name ≠ "" → Reference.Unbraced reference.name →
        Reference.Unbraced reference.tag →
        v.reference? reference.spelled = .ok (some reference)) := by
  refine ⟨⟨fun hreads stray hstray => ?_, readsAsWritten_of_not_strayed⟩, fun hstrayed => ?_,
    fun hname hplain htag => ?_⟩
  · exact not_readsAsWritten hstray hreads
  · exact reference?_marked_eq_ok_iff.mpr (.inr hstrayed)
  · obtain ⟨behind, hspelled, hwritten⟩ := Reference.exists_spelled hname hplain htag
    rw [hspelled]
    exact reference?_marked_eq_ok_iff.mpr (.inl hwritten)

/-! A module that is alone in its graph. -/

def loneView : Viewpoint where
  graph := ⟨[⟨Module.plain "m" "lib" "x", ProviderStore.empty, []⟩], []⟩
  registry := Registry.empty
  config := Config.ofTree Listing.empty.sourceTree
  id := 0

theorem lone_reads_tag_back :
    loneView.ReadsAsWritten "lib\x7b.hdrs\x7d" ∧
      loneView.reference? ":lib\x7b.hdrs\x7d" = .ok (some ⟨"lib", ".hdrs"⟩) := by
  obtain ⟨hreads, -, hback⟩ :=
    reads_grammar_iff loneView "lib\x7b.hdrs\x7d" ⟨"lib", ".hdrs"⟩
  have hwritten : Reference.Written "lib\x7b.hdrs\x7d" ⟨"lib", ".hdrs"⟩ :=
    @Reference.Written.tagged "lib" ".hdrs" (by decide) (by decide) (by decide)
  exact ⟨hreads.mpr fun stray hstray => hstray.not_written _ hwritten,
    hback (by decide) (by decide) (by decide)⟩

/-- **A stray brace is read** as a part of the name in front of the tag, though the text is
written for no reference. -/
theorem lone_reads_stray_brace :
    loneView.reference? ":a\x7db\x7bc\x7d" = .ok (some ⟨"a\x7db", "c"⟩) ∧
      (∀ reference, ¬ Reference.Written "a\x7db\x7bc\x7d" reference) ∧
      ¬ loneView.ReadsAsWritten "a\x7db\x7bc\x7d" := by
  have hstrayed : Reference.Strayed "a\x7db\x7bc\x7d" ⟨"a\x7db", "c"⟩ :=
    @Reference.Strayed.intro "a\x7db" "c" (by decide) (by decide) (by decide)
  exact ⟨reference?_marked_eq_ok_iff.mpr (.inr hstrayed), hstrayed.not_written,
    not_readsAsWritten hstrayed⟩

end Viewpoint

end TargetGen
