import Mathlib.Data.List.Forall2
import TargetGen.Proofs.Graph.Frame

/-!
# Loading — what a graph is like before anything has run

Loading appends one node a module, with nothing published and no error, and
makes no edges. So the modules stand in the graph as they were listed, but for
their capabilities, which are those of their types. Looking up a name only ever
finds a module that was loaded.
-/

namespace TargetGen

theorem Registry.get?_register_empty {name other : String} {type found : ModuleType}
    (h : (Registry.empty.register name type).get? other = some found) : found = type := by
  have hlist : List.lookup other [(name, type)] = some found := h
  rw [List.lookup_cons] at hlist
  split at hlist
  next => exact (Option.some.inj hlist).symm
  next => cases hlist

theorem Registry.converter?_register_empty {name : String} {type : ModuleType} {m : Module}
    {c : Converter} (h : (Registry.empty.register name type).converter? m = some c) :
    type.ability.converter? = some c := by
  obtain ⟨found, hfound, hc⟩ := Option.bind_eq_some_iff.mp h
  exact get?_register_empty hfound ▸ hc

theorem Registry.builder?_register_empty {name : String} {type : ModuleType} {m : Module}
    {b : MixedBuilder} (h : (Registry.empty.register name type).builder? m = some b) :
    type.ability.builder? = some b := by
  obtain ⟨found, hfound, hb⟩ := Option.bind_eq_some_iff.mp h
  exact get?_register_empty hfound ▸ hb

namespace Graph

variable {g g' : Graph} {registry : Registry} {id : ModuleId}

/-- A graph in which nothing has run yet. -/
structure Fresh (g : Graph) : Prop where
  edges : g.edges = []
  errors : ∀ id, g.errors id = []
  published : ∀ id, (g.node id).store.published = []

/-- Every module is of a registered type, and its capability is that of the type. -/
def Typed (registry : Registry) (g : Graph) : Prop :=
  ∀ id < g.size, ∃ type, registry.get? (g.module id).moduleType = some type ∧
    (g.module id).capability = type.ability.capability

theorem node_snoc (g : Graph) (n : Node) (id : ModuleId) :
    node { g with nodes := g.nodes ++ [n] } id = if id = g.size then n else g.node id := by
  simp only [node, size, List.getD_eq_getElem?_getD, List.getElem?_append]
  split
  next hlt => rw [if_neg (Nat.ne_of_lt hlt)]
  next hge =>
    by_cases hid : id = g.nodes.length
    · simp [hid]
    · have hbehind : g.nodes.length < id :=
        Nat.lt_of_le_of_ne (Nat.le_of_not_lt hge) (Ne.symm hid)
      rw [if_neg hid, List.getElem?_eq_none (Nat.le_of_not_lt hge)]
      cases hk : id - g.nodes.length with
      | zero => exact absurd hk (Nat.sub_ne_zero_of_lt hbehind)
      | succ k => rfl

theorem load_eq_ok {m : Module} (h : g.load registry m = .ok g') :
    ∃ type, registry.get? m.moduleType = some type ∧
      g' = { g with nodes := g.nodes ++
        [⟨{ m with capability := type.ability.capability }, ProviderStore.empty, []⟩] } := by
  unfold load at h
  split at h
  next => cases h
  next type htype =>
    split at h
    next => cases h
    next => exact ⟨type, htype, (Except.ok.inj h).symm⟩

theorem Fresh.load {m : Module} (hg : g.Fresh) (h : g.load registry m = .ok g') : g'.Fresh := by
  obtain ⟨_, -, rfl⟩ := load_eq_ok h
  refine ⟨hg.edges, fun id => ?_, fun id => ?_⟩
  · rw [Graph.errors, node_snoc]
    split
    · rfl
    · exact hg.errors id
  · rw [node_snoc]
    split
    · rfl
    · exact hg.published id

theorem Typed.load {m : Module} (hg : g.Typed registry) (h : g.load registry m = .ok g') :
    g'.Typed registry := by
  obtain ⟨type, htype, rfl⟩ := load_eq_ok h
  intro id hid
  rw [Graph.module, node_snoc]
  split
  next => exact ⟨type, htype, rfl⟩
  next hne =>
    have hle : id ≤ g.size := by simpa [size, Nat.lt_succ_iff] using hid
    exact hg id (Nat.lt_of_le_of_ne hle hne)

/-- The modules of a graph are those of a list, in its order, but for what they are
capable of. -/
def Holds (modules : List Module) (g : Graph) : Prop :=
  List.Forall₂ (fun m loaded => ∃ capability, loaded = { m with capability := capability })
    modules (g.nodes.map Node.module)

theorem Holds.load {modules : List Module} {m : Module} (hg : g.Holds modules)
    (h : g.load registry m = .ok g') : g'.Holds (modules ++ [m]) := by
  obtain ⟨type, -, rfl⟩ := load_eq_ok h
  rw [Holds, List.map_append]
  exact List.rel_append hg (.cons ⟨type.ability.capability, rfl⟩ .nil)

theorem fresh_empty : empty.Fresh := ⟨rfl, fun _ => rfl, fun _ => rfl⟩

theorem typed_empty (registry : Registry) : empty.Typed registry :=
  fun _ hid => absurd hid (Nat.not_lt_zero _)

theorem ofModules_induct {P : List Module → Graph → Prop} {modules : List Module}
    (hempty : P [] empty)
    (hload : ∀ {loaded g g' m}, P loaded g → Graph.load registry g m = .ok g' →
      P (loaded ++ [m]) g')
    (h : ofModules registry modules = .ok g) : P modules g := by
  have hall : ∀ (modules loaded : List Module) (g g' : Graph), P loaded g →
      modules.foldlM (Graph.load registry) g = .ok g' → P (loaded ++ modules) g' := by
    intro modules
    induction modules with
    | nil =>
      intro loaded g g' hg h
      rw [List.append_nil]
      exact Except.ok.inj h ▸ hg
    | cons m rest ih =>
      intro loaded g g' hg h
      rw [List.foldlM_cons] at h
      cases hm : Graph.load registry g m with
      | error e => rw [hm] at h; cases h
      | ok g₁ =>
        rw [hm] at h
        rw [List.append_cons]
        exact ih (loaded ++ [m]) g₁ g' (hload hg hm) h
  exact hall modules [] empty g hempty h

/-- **Nothing has run in a graph just loaded.** -/
theorem fresh_ofModules {modules : List Module} (h : ofModules registry modules = .ok g) :
    g.Fresh :=
  ofModules_induct (P := fun _ => Fresh) fresh_empty Fresh.load h

/-- **Capabilities come from the registry.** -/
theorem typed_ofModules {modules : List Module} (h : ofModules registry modules = .ok g) :
    g.Typed registry :=
  ofModules_induct (P := fun _ => Typed registry) (typed_empty registry) Typed.load h

/-- **Modules stand in the order in which they were listed.** -/
theorem holds_ofModules {modules : List Module} (h : ofModules registry modules = .ok g) :
    g.Holds modules :=
  ofModules_induct (P := Holds) .nil Holds.load h

theorem map_module_ids (g : Graph) : g.ids.map g.module = g.nodes.map Node.module := by
  apply List.ext_getElem
  · simp [ids, size]
  · intro i h _
    have hinside : i < g.nodes.length := by simpa [ids, size] using h
    simp [ids, Graph.module, node, List.getD_eq_getElem?_getD, hinside]

/-! ## Lookup -/

theorem find?_lt_size {name scope : String} (h : g.find? name scope = some id) :
    id < g.size := (List.findIdx?_eq_some_iff_findIdx_eq.mp h).1

theorem lookup_lt_size {source : ModuleId} {name : String} (h : g.lookup source name = some id) :
    id < g.size := by
  unfold lookup at h
  split at h
  next rest _ =>
    split at h
    next => exact find?_lt_size h
    next => cases h
  next =>
    rcases Option.or_eq_some_iff.mp h with hscope | ⟨-, hglobal⟩
    · obtain ⟨scope, -, hfound⟩ := Option.bind_eq_some_iff.mp hscope
      exact find?_lt_size hfound
    · exact find?_lt_size hglobal

end Graph

end TargetGen
