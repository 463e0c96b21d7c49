import TargetGen.Decision
import TargetGen.Proofs.Config.DirDefault
import TargetGen.SourceTree.Listing

/-!
# Decisions — a closed form, and what they depend on

The rules are tried one after another, and the first one that applies decides. Where the
tables are asked at all (`Module.GoesByTables`), the order of the rules shows in the choice
of a message only: whether the module converts and whether tables contradict each other
about it are conditions on four answers of the tables and on the module's own word.

Nothing else of a configuration is read. Of the directory defaults, the entries for the
module's directory and for those above it are, so a configuration that answers alike about
these decides alike (`Module.AgreeOn`).
-/

namespace TargetGen

/-! ## Directory defaults -/

theorem DirDefault.resolve_congr {table table' : NameMap DirDefault} {package : String}
    (hrelative : Text.startsWith "/" package = false)
    (hown : table'.get? package = table.get? package)
    (habove : ∀ dir, IsAbove dir package → table'.get? dir = table.get? dir) :
    resolve package table' = resolve package table := by
  have hreaches : ∀ dir entry,
      Reaches table' package dir entry ↔ Reaches table package dir entry := by
    intro dir entry
    constructor
    · rintro ⟨hdir, hbound, hrecursive⟩
      exact ⟨hdir, habove dir hdir ▸ hbound, hrecursive⟩
    · rintro ⟨hdir, hbound, hrecursive⟩
      exact ⟨hdir, (habove dir hdir).trans hbound, hrecursive⟩
  have hdecided := decided_resolve hrelative table
  exact (decided_resolve hrelative table').unique (hdecided.of_reaches hown hreaches)

/-! ## Decisions without conflict -/

/-- No table contradicts another one, and the module converts under a condition. -/
structure Decision.Undisputed (d : Decision) (condition : Prop) : Prop where
  conflicts : d.conflicts = []
  reason : d.reason ≠ .conflict
  convert : d.convert = true ↔ condition

namespace Module

variable {m : Module} {config config' : Config}

/-! ## What is asked -/

/-- The module is forced in by its name. -/
def ForcedByName (m : Module) (config : Config) : Prop :=
  config.allowlist.always.contains m.name = true

/-- The module is forced in by its type. -/
def ForcedByType (m : Module) (config : Config) : Prop :=
  config.allowlist.alwaysTypes.contains m.moduleType = true

def Denied (m : Module) (config : Config) : Prop :=
  config.allowlist.never.contains m.name = true

/-- The directory of the module converts by default. -/
def InConvertingDir (m : Module) (config : Config) : Prop :=
  (DirDefault.resolve m.dir config.allowlist.dirDefaults).1 = true

/-- The module's own word, or else whether a table speaks for it. -/
def Wanted (m : Module) (config : Config) : Prop :=
  match m.settings.available with
  | some value => value = true
  | none => m.InConvertingDir config ∨ m.ForcedByName config ∨ m.ForcedByType config

/-- Tables contradict each other: the module is forced in by name, and something else is
said about it as well. -/
def Contested (m : Module) (config : Config) : Prop :=
  m.ForcedByName config ∧ (m.ForcedByType config ∨ m.Denied config ∨ m.InConvertingDir config)

instance : Decidable (m.ForcedByName config) := inferInstanceAs (Decidable (_ = true))

instance : Decidable (m.ForcedByType config) := inferInstanceAs (Decidable (_ = true))

instance : Decidable (m.Denied config) := inferInstanceAs (Decidable (_ = true))

instance : Decidable (m.InConvertingDir config) := inferInstanceAs (Decidable (_ = true))

instance : Decidable (m.Contested config) := inferInstanceAs (Decidable (_ ∧ _))

/-- Modules of this type convert, the run is not about API surfaces, and the module is not
one that opts in at the top of the tree. -/
structure GoesByTables (m : Module) (config : Config) : Prop where
  convertible : m.capability.isConvertible = true
  full : config.mode = .full
  notOptedIn : ¬ (m.dir = Path.top ∧ m.settings.available = some true)

/-- What a conflict says about a module is so. -/
inductive Suffers (m : Module) (config : Config) : Conflict → Prop where
  | nameAndType : m.ForcedByName config → m.ForcedByType config →
      Suffers m config (.nameAndType m.name m.moduleType)
  | nameAndDenial : m.ForcedByName config → m.Denied config →
      Suffers m config (.nameAndDenial m.name)
  | nameAndDirectory {dir : String} : m.ForcedByName config →
      DirDefault.resolve m.dir config.allowlist.dirDefaults = (true, dir) →
      Suffers m config (.nameAndDirectory m.name dir)

/-- Two configurations are of one mode and answer alike what is asked about a module. -/
structure AgreeOn (m : Module) (config config' : Config) : Prop where
  mode : config'.mode = config.mode
  byName : m.ForcedByName config' ↔ m.ForcedByName config
  byType : m.ForcedByType config' ↔ m.ForcedByType config
  denied : m.Denied config' ↔ m.Denied config
  own : config'.allowlist.dirDefaults.get? m.dir = config.allowlist.dirDefaults.get? m.dir
  above : ∀ dir, DirDefault.IsAbove dir m.dir →
    config'.allowlist.dirDefaults.get? dir = config.allowlist.dirDefaults.get? dir

/-! ## The rules in turn -/

/-- **A contested module** has one conflict, and what it says is so. -/
theorem decide_of_contested (h : m.GoesByTables config) (hcontested : m.Contested config) :
    ∃ conflict dir, m.decide config = .inConflict conflict dir ∧ m.Suffers config conflict := by
  obtain ⟨hname, hother⟩ := hcontested
  by_cases htype : m.ForcedByType config
  · refine ⟨_, none, ?_, .nameAndType hname htype⟩
    simp only [ForcedByName, ForcedByType] at hname htype
    simp [decide, h.convertible, h.full, h.notOptedIn, hname, htype]
  · by_cases hdenied : m.Denied config
    · refine ⟨_, none, ?_, .nameAndDenial hname hdenied⟩
      simp only [ForcedByName, ForcedByType, Denied] at hname htype hdenied
      simp [decide, h.convertible, h.full, h.notOptedIn, hname, htype, hdenied]
    · have hdir := (hother.resolve_left htype).resolve_left hdenied
      obtain ⟨dir, hresolve⟩ :
          ∃ dir, DirDefault.resolve m.dir config.allowlist.dirDefaults = (true, dir) :=
        ⟨_, Prod.ext hdir rfl⟩
      refine ⟨_, some dir, ?_, .nameAndDirectory hname hresolve⟩
      simp only [ForcedByName, ForcedByType, Denied] at hname htype hdenied
      simp [decide, h.convertible, h.full, h.notOptedIn, hname, htype, hdenied, hresolve]

theorem undisputed_of_denied (h : m.GoesByTables config) (hname : ¬ m.ForcedByName config)
    (hdenied : m.Denied config) : (m.decide config).Undisputed False := by
  simp only [ForcedByName, Denied] at hname hdenied
  have hdecide : m.decide config = .plain false .denied := by
    simp [decide, h.convertible, h.full, h.notOptedIn, hname, hdenied]
  rw [hdecide]
  exact ⟨rfl, nofun, by simp [Decision.plain]⟩

theorem undisputed_of_inConvertingDir (h : m.GoesByTables config)
    (hname : ¬ m.ForcedByName config) (hdenied : ¬ m.Denied config)
    (hinside : m.InConvertingDir config) : (m.decide config).Undisputed (m.Wanted config) := by
  obtain ⟨dir, hresolve⟩ :
      ∃ dir, DirDefault.resolve m.dir config.allowlist.dirDefaults = (true, dir) :=
    ⟨_, Prod.ext hinside rfl⟩
  have hdecide : m.decide config =
      .inDirectory (m.settings.available.getD true) .directoryDefault dir := by
    simp only [ForcedByName, Denied] at hname hdenied
    simp [decide, h.convertible, h.full, h.notOptedIn, hname, hdenied, hresolve]
  rw [hdecide]
  refine ⟨rfl, nofun, ?_⟩
  cases hown : m.settings.available with
  | some value => simp [Decision.inDirectory, Wanted, hown]
  | none => simp [Decision.inDirectory, Wanted, hown, hinside]

theorem undisputed_elsewhere (h : m.GoesByTables config)
    (honce : ¬ (m.ForcedByName config ∧ m.ForcedByType config)) (hdenied : ¬ m.Denied config)
    (houtside : ¬ m.InConvertingDir config) :
    (m.decide config).Undisputed (m.Wanted config) := by
  obtain ⟨dir, hresolve⟩ :
      ∃ dir, DirDefault.resolve m.dir config.allowlist.dirDefaults = (false, dir) :=
    ⟨_, Prod.ext (eq_false_of_ne_true houtside) rfl⟩
  cases hown : m.settings.available with
  | some value =>
    have hdecide : m.decide config = .inDirectory value .explicit dir := by
      have hnotOptedIn := h.notOptedIn
      rw [hown, Option.some.injEq] at hnotOptedIn
      simp only [ForcedByName, ForcedByType, Denied] at honce hdenied
      simp [decide, h.convertible, h.full, hnotOptedIn, hown, honce, hdenied, hresolve]
    rw [hdecide]
    exact ⟨rfl, nofun, by simp [Decision.inDirectory, Wanted, hown]⟩
  | none =>
    by_cases hforced : m.ForcedByName config ∨ m.ForcedByType config
    · have hdecide : m.decide config = .inDirectory true .allowlisted dir := by
        simp only [ForcedByName, ForcedByType, Denied] at honce hdenied hforced
        simp [decide, h.convertible, h.full, hown, honce, hdenied, hresolve, hforced]
      rw [hdecide]
      exact ⟨rfl, nofun, by simp [Decision.inDirectory, Wanted, hown, hforced]⟩
    · have hdecide : m.decide config = .inDirectory false .fallback dir := by
        simp only [ForcedByName, ForcedByType, Denied] at honce hdenied hforced
        simp [decide, h.convertible, h.full, hown, honce, hdenied, hresolve, hforced]
      rw [hdecide]
      exact ⟨rfl, nofun, by simp [Decision.inDirectory, Wanted, hown, hforced, houtside]⟩

/-- **A module that is not contested** has no conflict. It converts if it is wanted and not
denied. -/
theorem undisputed_of_not_contested (h : m.GoesByTables config) (hfree : ¬ m.Contested config) :
    (m.decide config).Undisputed (¬ m.Denied config ∧ m.Wanted config) := by
  by_cases hdenied : m.Denied config
  · have hname : ¬ m.ForcedByName config := fun hname => hfree ⟨hname, .inr (.inl hdenied)⟩
    simpa [hdenied] using undisputed_of_denied h hname hdenied
  · simp only [hdenied, not_false_eq_true, true_and]
    by_cases hinside : m.InConvertingDir config
    · have hname : ¬ m.ForcedByName config := fun hname => hfree ⟨hname, .inr (.inr hinside)⟩
      exact undisputed_of_inConvertingDir h hname hdenied hinside
    · have honce : ¬ (m.ForcedByName config ∧ m.ForcedByType config) :=
        fun hboth => hfree ⟨hboth.1, .inl hboth.2⟩
      exact undisputed_elsewhere h honce hdenied hinside

theorem decide_congr (hrelative : Text.startsWith "/" m.dir = false)
    (h : m.AgreeOn config config') : m.decide config' = m.decide config := by
  have hname := Bool.eq_iff_iff.mpr h.byName
  have htype := Bool.eq_iff_iff.mpr h.byType
  have hdenied := Bool.eq_iff_iff.mpr h.denied
  have hresolve := DirDefault.resolve_congr hrelative h.own h.above
  rw [decide, decide, hname, htype, hdenied, hresolve, h.mode]

/-- **Decisions in closed form.** A module that goes by the tables converts if it is not
denied, no table contradicts its being forced in by name, and it is wanted. It has one
conflict if it is contested and none otherwise; with a conflict, for which that is the
reason given, it does not convert. In whatever mode, configurations that agree on a module
decide alike about it. -/
theorem decides_by_answers :
    (∀ (m : Module) (config : Config), m.GoesByTables config →
      ((m.decide config).convert = true ↔
        ¬ m.Denied config ∧
        ¬ (m.ForcedByName config ∧ (m.ForcedByType config ∨ m.InConvertingDir config)) ∧
        m.Wanted config) ∧
      (m.Contested config →
        ∃ conflict, (m.decide config).conflicts = [conflict] ∧ m.Suffers config conflict) ∧
      (¬ m.Contested config → (m.decide config).conflicts = []) ∧
      ((m.decide config).conflicts ≠ [] → (m.decide config).convert = false) ∧
      ((m.decide config).reason = .conflict ↔ (m.decide config).conflicts ≠ [])) ∧
    ∀ (m : Module) (config config' : Config), Text.startsWith "/" m.dir = false →
      m.AgreeOn config config' → m.decide config' = m.decide config := by
  refine ⟨?_, fun m config config' => decide_congr⟩
  intro m config h
  by_cases hcontested : m.Contested config
  · obtain ⟨conflict, dir, hdecide, hsuffers⟩ := decide_of_contested h hcontested
    rw [hdecide]
    obtain ⟨hname, hother⟩ := hcontested
    refine ⟨?_, fun _ => ⟨conflict, rfl, hsuffers⟩, ?_, fun _ => rfl, by simp [Decision.inConflict]⟩
    · simp only [Decision.inConflict]
      tauto
    · exact fun hfree => absurd ⟨hname, hother⟩ hfree
  · obtain ⟨hnone, hreason, hconvert⟩ := undisputed_of_not_contested h hcontested
    refine ⟨?_, fun h => absurd h hcontested, fun _ => hnone, fun h => absurd hnone h, ?_⟩
    · rw [hconvert]
      simp only [Contested] at hcontested
      tauto
    · simp [hreason, hnone]

/-- A module about which all tables have something to say. -/
def torn : Module := { plain "torn" "lib" "x/y" with capability := .convertible }

/-- It is forced in by name and by type, denied, and below a directory that converts. -/
def tearing : Config :=
  { Config.ofTree (Listing.empty).sourceTree with
    allowlist := Allowlist.empty.alwaysConvert "torn" |>.alwaysConvertType "lib"
      |>.neverConvert "torn" |>.setDirDefault "x" .yesBelow }

/-- The same with entries about other modules, types and directories, where missing modules
are tolerated. -/
def tearingMore : Config :=
  { tearing with
    allowMissing := true
    allowlist := tearing.allowlist.alwaysConvert "other" |>.alwaysConvertType "app"
      |>.neverConvert "another" |>.setDirDefault "x/yy" .no |>.setDirDefault "" .noBelow }

theorem torn_has_one_conflict :
    torn.GoesByTables tearing ∧ torn.Contested tearing ∧
      (∃ conflict, (torn.decide tearing).conflicts = [conflict] ∧
        torn.Suffers tearing conflict) ∧
      (torn.decide tearing).convert = false ∧
      torn.AgreeOn tearing tearingMore ∧ torn.decide tearingMore = torn.decide tearing := by
  have hrelative : Text.startsWith "/" torn.dir = false := by decide
  have hagree : torn.AgreeOn tearing tearingMore := by
    refine ⟨rfl, by decide +kernel, by decide +kernel, by decide +kernel, by decide +kernel, ?_⟩
    have hway : DirDefault.lineage torn.dir = ["x", "x/y"] := by decide +kernel
    intro dir habove
    have hmem := (DirDefault.mem_lineage_iff hrelative).mpr (.inl habove)
    rw [hway] at hmem
    simp only [List.mem_cons, List.not_mem_nil, or_false] at hmem
    rcases hmem with rfl | rfl <;> decide +kernel
  have hgoes : torn.GoesByTables tearing := ⟨rfl, rfl, by decide⟩
  have hcontested : torn.Contested tearing := by decide +kernel
  obtain ⟨hclosed, hlocal⟩ := decides_by_answers
  obtain ⟨-, hone, -, hstays, -⟩ := hclosed torn tearing hgoes
  obtain ⟨conflict, hconflict, hsuffers⟩ := hone hcontested
  refine ⟨hgoes, hcontested, ⟨conflict, hconflict, hsuffers⟩, hstays ?_, hagree,
    hlocal torn tearing tearingMore hrelative hagree⟩
  rw [hconflict]
  exact List.cons_ne_nil conflict []

end Module

end TargetGen
