import Mathlib.Data.List.Induction
import TargetGen.Graph.Loader
import TargetGen.Proofs.Graph.Loading
import TargetGen.Proofs.Text

/-!
# Loader — which modules load, and where their names lead

A list of modules loads if all types are known and no name occurs twice within a
namespace (`Loadable`); the graph is then known in full (`Graph.ofLoadable`). Otherwise
loading stops at one module. Those before it are loadable, so it is the first that has
a reason to be refused (`Refused`).

Because names are unique, a search for a name and an index of names lead to the same
place. The index of a loader is kept in step with its modules, one entry a module
(`Loader.InStep`).
-/

namespace TargetGen

variable {registry : Registry} {modules before after : List Module} {m : Module} {g g' : Graph}
  {e : GraphError} {id : ModuleId} {name scope : String}

/-! ## What loads -/

/-- Two modules have one name in one namespace; no namespace is the empty one. -/
def Module.Namesakes (a b : Module) : Prop := a.name = b.name ∧ a.scopeName = b.scopeName

instance (a b : Module) : Decidable (a.Namesakes b) := inferInstanceAs (Decidable (_ ∧ _))

/-- All types are registered, and no two modules are namesakes. -/
structure Loadable (registry : Registry) (modules : List Module) : Prop where
  typed : ∀ m ∈ modules, ∃ type, registry.get? m.moduleType = some type
  named : modules.Pairwise fun a b => ¬ a.Namesakes b

/-- Why a module cannot be loaded behind others. -/
inductive Refused (registry : Registry) (before : List Module) (m : Module) :
    GraphError → Prop where
  | unknownType : registry.get? m.moduleType = none →
      Refused registry before m (.unknownType m.name m.moduleType)
  | duplicate {type : ModuleType} {earlier : Module} :
      registry.get? m.moduleType = some type → earlier ∈ before → earlier.Namesakes m →
      Refused registry before m (.duplicateModule m.name m.scopeName)

/-- The module in a place has a name in a namespace. -/
def NamedAt (modules : List Module) (id : ModuleId) (name scope : String) : Prop :=
  ∃ m, modules[id]? = some m ∧ m.name = name ∧ m.scopeName = scope

/-- The module with the capability of its type. -/
def Registry.equip (registry : Registry) (m : Module) : Module :=
  match registry.get? m.moduleType with
  | some type => { m with capability := type.ability.capability }
  | none => m

@[simp] theorem Registry.name_equip (registry : Registry) (m : Module) :
    (registry.equip m).name = m.name := by
  unfold equip
  split <;> rfl

@[simp] theorem Registry.scopeName_equip (registry : Registry) (m : Module) :
    (registry.equip m).scopeName = m.scopeName := by
  unfold equip
  split <;> rfl

/-- The graph of modules that load. -/
def Graph.ofLoadable (registry : Registry) (modules : List Module) : Graph :=
  ⟨modules.map fun m => ⟨registry.equip m, ProviderStore.empty, []⟩, []⟩

/-! ## One module more -/

theorem loadable_append_iff : Loadable registry (before ++ after) ↔
    Loadable registry before ∧ Loadable registry after ∧
      ∀ a ∈ before, ∀ b ∈ after, ¬ a.Namesakes b := by
  constructor
  · rintro ⟨htyped, hnamed⟩
    rw [List.forall_mem_append] at htyped
    obtain ⟨hbefore, hafter, hacross⟩ := List.pairwise_append.mp hnamed
    exact ⟨⟨htyped.1, hbefore⟩, ⟨htyped.2, hafter⟩, hacross⟩
  · rintro ⟨⟨htyped, hbefore⟩, ⟨htyped', hafter⟩, hacross⟩
    exact ⟨List.forall_mem_append.mpr ⟨htyped, htyped'⟩,
      List.pairwise_append.mpr ⟨hbefore, hafter, hacross⟩⟩

theorem loadable_nil (registry : Registry) : Loadable registry [] :=
  ⟨List.forall_mem_nil _, List.Pairwise.nil⟩

/-- **A module that is not refused** is loadable with those before. -/
theorem Loadable.snoc_or_refused (h : Loadable registry before) (m : Module) :
    Loadable registry (before ++ [m]) ∨ ∃ e, Refused registry before m e := by
  cases htype : registry.get? m.moduleType with
  | none => exact .inr ⟨_, .unknownType htype⟩
  | some type =>
    by_cases htaken : ∃ earlier ∈ before, earlier.Namesakes m
    · obtain ⟨earlier, hearlier, hnamesakes⟩ := htaken
      exact .inr ⟨_, .duplicate htype hearlier hnamesakes⟩
    · push Not at htaken
      refine .inl (loadable_append_iff.mpr ⟨h, ⟨?_, List.pairwise_singleton _ _⟩, ?_⟩)
      · rw [List.forall_mem_singleton]
        exact ⟨type, htype⟩
      · simpa using htaken

namespace Graph

theorem ofLoadable_snoc {type : ModuleType} (htype : registry.get? m.moduleType = some type) :
    ofLoadable registry (before ++ [m]) =
      { ofLoadable registry before with
        nodes := (ofLoadable registry before).nodes ++
          [⟨{ m with capability := type.ability.capability }, ProviderStore.empty, []⟩] } := by
  simp [ofLoadable, Registry.equip, htype]

theorem find?_ofLoadable (registry : Registry) (modules : List Module) (name scope : String) :
    (ofLoadable registry modules).find? name scope =
      modules.findIdx? fun m => m.name = name && m.scopeName = scope := by
  simp [find?, ofLoadable, List.findIdx?_map, Function.comp_def]

theorem find?_ofLoadable_eq_none_iff :
    (ofLoadable registry before).find? m.name m.scopeName = none ↔
      ∀ earlier ∈ before, ¬ earlier.Namesakes m := by
  simp [find?_ofLoadable, Module.Namesakes]

theorem load_ofLoadable (h : Loadable registry (before ++ [m])) :
    (ofLoadable registry before).load registry m = .ok (ofLoadable registry (before ++ [m])) := by
  obtain ⟨-, hm, hacross⟩ := loadable_append_iff.mp h
  obtain ⟨type, htype⟩ := hm.typed m List.mem_cons_self
  have hfree : (ofLoadable registry before).find? m.name m.scopeName = none := by
    rw [find?_ofLoadable_eq_none_iff]
    exact fun earlier hearlier => hacross earlier hearlier m List.mem_cons_self
  rw [ofLoadable_snoc htype, load, htype]
  simp only [hfree]

theorem load_of_refused (h : Refused registry before m e) :
    (ofLoadable registry before).load registry m = .error e := by
  cases h with
  | unknownType htype => rw [load, htype]
  | duplicate htype hearlier hnamesakes =>
    rw [load, htype]
    cases hfound : (ofLoadable registry before).find? m.name m.scopeName with
    | some id => rfl
    | none => exact absurd hnamesakes (find?_ofLoadable_eq_none_iff.mp hfound _ hearlier)

/-! ## All modules -/

theorem ofModules_snoc (registry : Registry) (modules : List Module) (m : Module) :
    ofModules registry (modules ++ [m]) = ofModules registry modules >>= (load registry · m) := by
  simp only [ofModules, List.foldlM_append, List.foldlM_cons, List.foldlM_nil, bind_pure]

/-- **Loadable modules load.** -/
theorem ofModules_of_loadable (h : Loadable registry modules) :
    ofModules registry modules = .ok (ofLoadable registry modules) := by
  induction modules using List.reverseRecOn with
  | nil => rfl
  | append_singleton modules m ih =>
    rw [ofModules_snoc, ih (loadable_append_iff.mp h).1]
    exact load_ofLoadable h

/-- **A refused module ends the loading.** -/
theorem ofModules_of_refused (hbefore : Loadable registry before)
    (h : Refused registry before m e) : ofModules registry (before ++ m :: after) = .error e := by
  have hloaded := ofModules_of_loadable hbefore
  have hload := load_of_refused h
  rw [ofModules] at hloaded ⊢
  rw [List.foldlM_append, hloaded]
  change List.foldlM (load registry) _ (m :: after) = _
  rw [List.foldlM_cons, hload]
  rfl

end Graph

theorem exists_first_refused (h : ¬ Loadable registry modules) :
    ∃ before m after e, modules = before ++ m :: after ∧ Loadable registry before ∧
      Refused registry before m e := by
  induction modules using List.reverseRecOn with
  | nil => exact absurd (loadable_nil registry) h
  | append_singleton modules m ih =>
    by_cases hmodules : Loadable registry modules
    · obtain ⟨e, hrefused⟩ := (hmodules.snoc_or_refused m).resolve_left h
      exact ⟨modules, m, [], e, rfl, hmodules, hrefused⟩
    · obtain ⟨before, first, after, e, rfl, hbefore, hrefused⟩ := ih hmodules
      exact ⟨before, first, after ++ [m], e, by simp, hbefore, hrefused⟩

namespace Graph

theorem ofModules_eq_ok_iff : ofModules registry modules = .ok g ↔
    Loadable registry modules ∧ g = ofLoadable registry modules := by
  constructor
  · intro h
    by_cases hloadable : Loadable registry modules
    · rw [ofModules_of_loadable hloadable] at h
      exact ⟨hloadable, (Except.ok.inj h).symm⟩
    · obtain ⟨before, m, after, e, rfl, hbefore, hrefused⟩ := exists_first_refused hloadable
      rw [ofModules_of_refused hbefore hrefused] at h
      cases h
  · rintro ⟨hloadable, rfl⟩
    exact ofModules_of_loadable hloadable

theorem ofModules_eq_error_iff : ofModules registry modules = .error e ↔
    ∃ before m after, modules = before ++ m :: after ∧ Loadable registry before ∧
      Refused registry before m e := by
  constructor
  · intro h
    have hnot : ¬ Loadable registry modules := by
      intro hloadable
      rw [ofModules_of_loadable hloadable] at h
      cases h
    obtain ⟨before, m, after, e', rfl, hbefore, hrefused⟩ := exists_first_refused hnot
    rw [ofModules_of_refused hbefore hrefused] at h
    obtain rfl := Except.error.inj h
    exact ⟨before, m, after, rfl, hbefore, hrefused⟩
  · rintro ⟨before, m, after, rfl, hbefore, hrefused⟩
    exact ofModules_of_refused hbefore hrefused

/-! ## Names -/

theorem find?_eq_some_iff (h : Loadable registry modules) :
    (ofLoadable registry modules).find? name scope = some id ↔ NamedAt modules id name scope := by
  rw [find?_ofLoadable, List.findIdx?_eq_some_iff_getElem]
  constructor
  · rintro ⟨hlt, hname, -⟩
    refine ⟨modules[id], List.getElem?_eq_getElem hlt, ?_⟩
    simpa using hname
  · rintro ⟨m, hm, rfl, rfl⟩
    obtain ⟨hlt, rfl⟩ := List.getElem?_eq_some_iff.mp hm
    refine ⟨hlt, by simp, ?_⟩
    intro earlier hearlier
    have hdistinct := List.pairwise_iff_getElem.mp h.named earlier id (by omega) hlt hearlier
    simpa [Module.Namesakes] using hdistinct

theorem module_ofLoadable (h : modules[id]? = some m) :
    (ofLoadable registry modules).module id = registry.equip m := by
  simp [module, node, ofLoadable, List.getD_eq_getElem?_getD, h]

/-- A module without a namespace is in the one of the empty name, so it makes no
difference whether a plain name is looked up in the module's own namespace first. -/
theorem lookup_plain (g : Graph) (source : ModuleId) (hplain : Text.startsWith "//" name = false) :
    g.lookup source name =
      (g.find? name (g.module source).scopeName).or (g.find? name "") := by
  rw [lookup, Text.afterStart_eq_none.mpr hplain]
  cases hscope : (g.module source).scope with
  | none => simp [Module.scopeName, hscope]
  | some scope => simp [Module.scopeName, hscope]

end Graph

/-- Which module a plain name denotes for another one: that of its own namespace, or else
the global one. -/
inductive Denoted (modules : List Module) (source : Module) (name : String) (id : ModuleId) :
    Prop where
  | own : NamedAt modules id name source.scopeName → Denoted modules source name id
  | elsewhere : (∀ other, ¬ NamedAt modules other name source.scopeName) →
      NamedAt modules id name "" → Denoted modules source name id

theorem Graph.lookup_eq_some_iff (h : Loadable registry modules) {source : ModuleId}
    (hsource : modules[source]? = some m) (hplain : Text.startsWith "//" name = false) :
    (ofLoadable registry modules).lookup source name = some id ↔ Denoted modules m name id := by
  have hnone : (ofLoadable registry modules).find? name m.scopeName = none ↔
      ∀ other, ¬ NamedAt modules other name m.scopeName := by
    rw [Option.eq_none_iff_forall_ne_some]
    exact forall_congr' fun other => not_congr (find?_eq_some_iff h)
  rw [lookup_plain _ _ hplain, module_ofLoadable hsource, Registry.scopeName_equip,
    Option.or_eq_some_iff, hnone, find?_eq_some_iff h, find?_eq_some_iff h]
  constructor
  · rintro (hown | ⟨hfree, hglobal⟩)
    · exact .own hown
    · exact .elsewhere hfree hglobal
  · rintro (hown | ⟨hfree, hglobal⟩)
    · exact .inl hown
    · exact .inr ⟨hfree, hglobal⟩

/-! ## The index -/

namespace Loader

variable {l l' : Loader}

/-- The index leads where a search leads. -/
def InStep (l : Loader) : Prop := ∀ name scope, l.find? name scope = l.graph.find? name scope

theorem map_graph_load (h : l.InStep) (registry : Registry) (m : Module) :
    (l.load registry m).map graph = l.graph.load registry m := by
  have hfind : l.places.lookup (m.scopeName, m.name) = l.graph.find? m.name m.scopeName :=
    h m.name m.scopeName
  rw [load, Graph.load]
  cases registry.get? m.moduleType with
  | none => rfl
  | some type =>
    simp only [hfind]
    cases l.graph.find? m.name m.scopeName with
    | some id => rfl
    | none => simp [Except.map, graph]

theorem find?_graph_snoc (l : Loader) (places : List ((String × String) × ModuleId)) (m : Module) :
    (graph ⟨l.modules ++ [m], places⟩).find? name scope =
      (l.graph.find? name scope).or
        (if m.name = name ∧ m.scopeName = scope then some l.modules.length else none) := by
  simp [graph, Graph.find?, List.findIdx?_append, List.findIdx?_cons]

theorem find?_cons (l : Loader) (id : ModuleId) (m : Module) :
    find? ⟨l.modules ++ [m], ((m.scopeName, m.name), id) :: l.places⟩ name scope =
      if m.name = name ∧ m.scopeName = scope then some id else l.find? name scope := by
  by_cases hkey : m.name = name ∧ m.scopeName = scope
  · obtain ⟨rfl, rfl⟩ := hkey
    simp [find?]
  · have hne : ((scope, name) == (m.scopeName, m.name)) = false := by
      rw [beq_eq_false_iff_ne, ne_eq, Prod.mk.injEq]
      rintro ⟨rfl, rfl⟩
      exact hkey ⟨rfl, rfl⟩
    rw [if_neg hkey, find?, List.lookup_cons, hne]
    rfl

/-- **The index stays in step**: the name that is added was free before. -/
theorem InStep.load (h : l.InStep) (hload : l.load registry m = .ok l') : l'.InStep := by
  rw [Loader.load] at hload
  split at hload
  next => cases hload
  next type htype =>
    simp only at hload
    split at hload
    next => cases hload
    next hfree =>
      obtain rfl := Except.ok.inj hload
      have hnone : l.graph.find? m.name m.scopeName = none := (h _ _).symm.trans hfree
      let loaded : Module := { m with capability := type.ability.capability }
      intro name scope
      refine (find?_cons l l.modules.length loaded).trans ?_
      rw [find?_graph_snoc]
      change (if m.name = name ∧ m.scopeName = scope then _ else _) =
        Option.or _ (if m.name = name ∧ m.scopeName = scope then _ else _)
      split
      next hkey =>
        obtain ⟨rfl, rfl⟩ := hkey
        rw [hnone, Option.none_or]
      next =>
        rw [Option.or_none]
        exact h name scope

theorem inStep_empty : empty.InStep := fun _ _ => rfl

/-- Loading with an index comes to the same as loading without, and leaves the index in
step. -/
theorem foldlM_load (registry : Registry) (modules : List Module) (h : l.InStep) :
    (modules.foldlM (load registry) l).map graph = modules.foldlM (Graph.load registry) l.graph ∧
      ∀ l', modules.foldlM (load registry) l = .ok l' → l'.InStep := by
  induction modules generalizing l with
  | nil =>
    refine ⟨rfl, ?_⟩
    intro l' hl'
    exact Except.ok.inj hl' ▸ h
  | cons m rest ih =>
    rw [List.foldlM_cons, List.foldlM_cons, ← map_graph_load h]
    cases hload : l.load registry m with
    | error e => exact ⟨rfl, nofun⟩
    | ok next => exact ih (h.load hload)

end Loader

/-! ## Loading -/

namespace Graph

/-- What a graph is like just after some modules have been loaded. -/
structure LoadedFrom (registry : Registry) (modules : List Module) (g : Graph) : Prop where
  ids : g.ids = List.range modules.length
  record : ∀ id m, modules[id]? = some m → ∃ type,
    registry.get? m.moduleType = some type ∧
      g.module id = { m with capability := type.ability.capability }
  fresh : g.Fresh
  named : ∀ id name scope, g.find? name scope = some id ↔ NamedAt modules id name scope
  lookup : ∀ source m name id, modules[source]? = some m →
    Text.startsWith "//" name = false →
    (g.lookup source name = some id ↔ Denoted modules m name id)

theorem fresh_ofLoadable (registry : Registry) (modules : List Module) :
    (ofLoadable registry modules).Fresh := by
  have hnode : ∀ id, ((ofLoadable registry modules).node id).errors = [] ∧
      ((ofLoadable registry modules).node id).store.published = [] := by
    intro id
    rw [node, List.getD_eq_getElem?_getD, ofLoadable, List.getElem?_map]
    cases modules[id]? with
    | none => exact ⟨rfl, rfl⟩
    | some m => exact ⟨rfl, rfl⟩
  exact ⟨rfl, fun id => (hnode id).1, fun id => (hnode id).2⟩

theorem loadedFrom_ofLoadable (h : Loadable registry modules) :
    LoadedFrom registry modules (ofLoadable registry modules) where
  ids := by simp [ids, size, ofLoadable]
  record id m hm := by
    obtain ⟨type, htype⟩ := h.typed m (List.mem_of_getElem? hm)
    refine ⟨type, htype, ?_⟩
    rw [module_ofLoadable hm, Registry.equip, htype]
  fresh := fresh_ofLoadable registry modules
  named _ _ _ := find?_eq_some_iff h
  lookup _ _ _ _ hsource hplain := lookup_eq_some_iff h hsource hplain

/-- **Loading.** Modules load if their types are known and no two of them share a name
within a namespace; otherwise the error is that of the first module that is refused. The
graph has the modules in their places and nothing else, names lead to where they are, and
an index that is built in passing leads to the same places. -/
theorem loads_unless_refused (registry : Registry) (modules : List Module) :
    ((∃ g, ofModules registry modules = .ok g) ↔ Loadable registry modules) ∧
    (∀ e, ofModules registry modules = .error e ↔
      ∃ before m after, modules = before ++ m :: after ∧ Loadable registry before ∧
        Refused registry before m e) ∧
    (∀ g, ofModules registry modules = .ok g → LoadedFrom registry modules g) ∧
    (Loader.ofModules registry modules).map Loader.graph = ofModules registry modules ∧
    ∀ l, Loader.ofModules registry modules = .ok l →
      ∀ name scope, l.find? name scope = l.graph.find? name scope := by
  obtain ⟨hindexed, hinStep⟩ := Loader.foldlM_load registry modules Loader.inStep_empty
  refine ⟨?_, fun e => ofModules_eq_error_iff, ?_, hindexed, hinStep⟩
  · constructor
    · rintro ⟨g, hg⟩
      exact (ofModules_eq_ok_iff.mp hg).1
    · intro h
      exact ⟨_, ofModules_of_loadable h⟩
  · intro g hg
    obtain ⟨hloadable, rfl⟩ := ofModules_eq_ok_iff.mp hg
    exact loadedFrom_ofLoadable hloadable

/-- A registry of one type. -/
def libraryTypes : Registry := Registry.empty.register "lib" ⟨.native, []⟩

/-- Two modules of one name in different namespaces, and one that may mean either. -/
def vendored : List Module := [
  Module.plain "m" "lib" "x",
  (Module.plain "m" "lib" "y").inScope "vendor",
  (Module.plain "app" "lib" "z").inScope "vendor"]

/-- One more module, of a name that is taken and of a type that is not known. -/
def vendoredAndStray : List Module := vendored ++ [Module.plain "m" "gone" "w"]

theorem vendored_loads_without_stray :
    Loadable libraryTypes vendored ∧
      (∃ g, ofModules libraryTypes vendored = .ok g ∧ g.lookup 2 "m" = some 1 ∧
        g.find? "m" "" = some 0) ∧
      ofModules libraryTypes vendoredAndStray = .error (.unknownType "m" "gone") := by
  have hloadable : Loadable libraryTypes vendored := by
    refine ⟨?_, by decide⟩
    intro m hm
    simp only [vendored, List.mem_cons, List.not_mem_nil, or_false] at hm
    rcases hm with rfl | rfl | rfl <;> exact ⟨_, rfl⟩
  obtain ⟨hloads, -, hfrom, -, -⟩ := loads_unless_refused libraryTypes vendored
  obtain ⟨g, hg⟩ := hloads.mpr hloadable
  have hown : NamedAt vendored 1 "m" "vendor" := ⟨_, rfl, rfl, rfl⟩
  refine ⟨hloadable, ⟨g, hg, ?_, ?_⟩, ?_⟩
  · exact ((hfrom g hg).lookup 2 _ "m" 1 rfl (by decide)).mpr (.own hown)
  · exact ((hfrom g hg).named 0 "m" "").mpr ⟨_, rfl, rfl, rfl⟩
  · exact ((loads_unless_refused libraryTypes vendoredAndStray).2.1 _).mpr
      ⟨vendored, _, [], rfl, hloadable, .unknownType (by decide)⟩

end Graph

end TargetGen
