import TargetGen.Build.Phases
import TargetGen.Proofs.Graph.Frame
import TargetGen.Proofs.Reference
import TargetGen.Proofs.Result

/-!
# Steps — what the steps of a build come to

A step ends in an error of its module or in an output. Here is what each of them
may be, a lemma for either end of a step; whoever reasons about a build cites
these and opens no step.
-/

namespace TargetGen

open TargetGen.Graph

namespace Build

/-! ## Discovery -/

theorem declarations_eq_error {v : Viewpoint} {properties : List DependencyProperty}
    {e : ModuleError} (h : declarations v properties = .error e) :
    ∃ entry fault, e = .malformedReference entry fault := by
  rcases bind_eq_error h with hall | ⟨_, -, h⟩
  · obtain ⟨⟨kind, entry⟩, -, hentry⟩ := exists_of_mapM_eq_error hall
    rcases bind_eq_error hentry with hr | ⟨_, -, hentry⟩
    · exact ⟨entry, Viewpoint.reference?_eq_error hr⟩
    · cases hentry
  · cases h

theorem discover_eq_error {v : Viewpoint} {e : ModuleError} (h : discover v = .error e) :
    (∃ entry fault, e = .malformedReference entry fault) ∨
      (∃ names, e = .missingDependencies names) ∧ v.config.allowMissing = false := by
  unfold discover at h
  split at h
  next => cases h
  next type _ =>
    rcases bind_eq_error h with hd | ⟨found, -, h⟩
    · exact .inl (declarations_eq_error hd)
    · dsimp only at h
      split at h
      next hstrict => exact .inr ⟨⟨_, (Except.error.inj h).symm⟩, hstrict.2⟩
      next => cases h

theorem tolerated_iff {names : List String} {allow : Bool} :
    ¬ (names ≠ [] ∧ allow = false) ↔ names = [] ∨ allow = true := by
  rw [not_and_or, not_not, Bool.not_eq_false]

theorem eq_nil_of_tolerated {names : List String} {allow : Bool} (hstrict : allow = false)
    (h : names = [] ∨ allow = true) : names = [] := by
  rcases h with hnone | hallow
  · exact hnone
  · rw [hstrict] at hallow
    cases hallow

/-- **What a discovery that succeeds comes to**: the names that it could not find,
and the edges of what it found. -/
theorem discover_eq_ok {v : Viewpoint} {output : StepOutput} (h : discover v = .ok output) :
    (v.registry.get? v.module.moduleType = none ∧ output = ⟨[.discovery []], []⟩) ∨
      ∃ type found, v.registry.get? v.module.moduleType = some type ∧
        declarations v type.dependencyProperties = .ok found ∧
        (missingNames v found = [] ∨ v.config.allowMissing = true) ∧
        output = ⟨[.discovery (missingNames v found)], declaredEdges v found⟩ := by
  unfold discover at h
  split at h
  next htype => exact .inl ⟨htype, (Except.ok.inj h).symm⟩
  next type htype =>
    obtain ⟨found, hfound, h⟩ := bind_eq_ok h
    dsimp only at h
    split at h
    next => cases h
    next htolerated =>
      exact .inr ⟨type, found, htype, hfound, tolerated_iff.mp htolerated,
        (Except.ok.inj h).symm⟩

/-! ## Conversions -/

theorem convert_eq_error {v : Viewpoint} {e : ModuleError} (h : convert v = .ok (.error e)) :
    (∃ c, v.registry.converter? v.module = some c ∧
      (c.run v ReferenceRecord.empty).1 = .ok (.error e)) ∨
      (∃ names, e = .missingDependencies names) ∧ v.config.allowMissing = false := by
  obtain ⟨provider, -, h⟩ := bind_eq_ok h
  split at h
  next =>
    split at h
    next => cases h
    next c hc =>
      obtain ⟨result, hresult, h⟩ := bind_eq_ok h
      cases result with
      | error e' =>
        obtain rfl : e' = e := Except.error.inj (Except.ok.inj h)
        exact .inl ⟨c, hc, hresult⟩
      | ok targets =>
        dsimp only at h
        split at h
        next hstrict =>
          exact .inr ⟨⟨_, (Except.error.inj (Except.ok.inj h)).symm⟩, hstrict.2⟩
        next => cases h
  next => cases h

/-- A conversion that succeeds: the module was decided to convert, its converter came to
`targets` with the record `r`, and names that it could not find are tolerated. -/
structure Converts (v : Viewpoint) (targets : List Target) (r : ReferenceRecord) : Prop where
  decided : v.graph.decidedToConvert v.id = true
  converter : ∃ c, v.registry.converter? v.module = some c ∧
    c.run v ReferenceRecord.empty = (.ok (.ok targets), r)
  tolerated : r.missing = [] ∨ v.config.allowMissing = true

theorem Converts.unique {v : Viewpoint} {targets targets' : List Target}
    {r r' : ReferenceRecord} (h : Converts v targets r) (h' : Converts v targets' r') :
    targets' = targets ∧ r' = r := by
  obtain ⟨c, hc, hrun⟩ := h.converter
  obtain ⟨c', hc', hrun'⟩ := h'.converter
  obtain rfl := Option.some.inj (hc.symm.trans hc')
  obtain ⟨hresult, hrecord⟩ := Prod.mk.inj (hrun'.symm.trans hrun)
  exact ⟨Except.ok.inj (Except.ok.inj hresult), hrecord⟩

/-- **What a conversion that succeeds comes to.** It has read the decision about its
module. It adds nothing unless that says to convert and there is a converter;
then it adds what this one came to. -/
theorem convert_eq_ok {v : Viewpoint} {output : StepOutput} (h : convert v = .ok (.ok output)) :
    ∃ d, v.graph.provider? v.id .decision = some (.decision d) ∧
      ((d.convert = false ∨ v.registry.converter? v.module = none) ∧ output = StepOutput.empty ∨
        ∃ targets r, Converts v targets r ∧ output = converted targets r) := by
  obtain ⟨provider, hread, h⟩ := bind_eq_ok h
  unfold Graph.provider at hread
  split at hread
  next p hp =>
    obtain rfl := Except.ok.inj hread
    have hkind := kind_of_provider? hp
    cases p with
    | decision d =>
      refine ⟨d, hp, ?_⟩
      obtain ⟨convert, reason, directory, conflicts⟩ := d
      cases convert with
      | false => exact .inl ⟨.inl rfl, (Except.ok.inj (Except.ok.inj h)).symm⟩
      | true =>
        dsimp only at h
        split at h
        next hnone => exact .inl ⟨.inr hnone, (Except.ok.inj (Except.ok.inj h)).symm⟩
        next c hc =>
          obtain ⟨result, hresult, h⟩ := bind_eq_ok h
          cases result with
          | error e => cases h
          | ok targets =>
            dsimp only at h
            split at h
            next => cases h
            next htolerated =>
              have hconverts : Converts v targets (c.run v ReferenceRecord.empty).2 :=
                ⟨decidedToConvert_iff.mpr ⟨_, hp, rfl⟩, ⟨c, hc, Prod.ext hresult rfl⟩,
                  tolerated_iff.mp htolerated⟩
              exact .inr ⟨targets, _, hconverts, (Except.ok.inj (Except.ok.inj h)).symm⟩
    | _ => cases hkind
  next => cases hread

theorem Converts.convert_eq {v : Viewpoint} {targets : List Target} {r : ReferenceRecord}
    (h : Converts v targets r) : convert v = .ok (.ok (converted targets r)) := by
  obtain ⟨d, hd, hconvert⟩ := decidedToConvert_iff.mp h.decided
  obtain ⟨c, hc, hrun⟩ := h.converter
  obtain ⟨_, reason, directory, conflicts⟩ := d
  obtain rfl : _ = true := hconvert
  have htolerated := tolerated_iff.mpr h.tolerated
  simp only [convert, Graph.provider, hd, hc, hrun, bind, Except.bind, if_neg htolerated, pure,
    Except.pure]

/-! ## Queries -/

/-- The step of a module queues what its builder asks if the module is to run
externally, and publishes its status only otherwise. -/
theorem ask_cases (v : Viewpoint) :
    (∃ builder, v.registry.builder? v.module = some builder ∧
      v.module.mixedStatus (some builder.supported) (v.graph.decidedToConvert v.id) v.config =
        .enabled ∧
      ask v = ⟨[.queries (builder.queries v.module v.label v.config), .status .enabled], []⟩) ∨
    ((∀ builder, v.registry.builder? v.module = some builder →
      v.module.mixedStatus (some builder.supported) (v.graph.decidedToConvert v.id) v.config ≠
        .enabled) ∧
      ∃ status, ask v = ⟨[.status status], []⟩) := by
  cases hb : v.registry.builder? v.module with
  | none =>
    refine .inr ⟨fun builder hbuilder => (by cases hbuilder), ?_⟩
    exact ⟨v.module.mixedStatus none (v.graph.decidedToConvert v.id) v.config, by simp [ask, hb]⟩
  | some builder =>
    by_cases hstatus : v.module.mixedStatus (some builder.supported)
        (v.graph.decidedToConvert v.id) v.config = .enabled
    · exact .inl ⟨builder, rfl, hstatus, by simp [ask, hb, hstatus]⟩
    · refine .inr ⟨fun other hother => ?_, ?_⟩
      · obtain rfl := Option.some.inj hother
        exact hstatus
      · refine ⟨v.module.mixedStatus (some builder.supported)
          (v.graph.decidedToConvert v.id) v.config, ?_⟩
        unfold ask
        rw [hb]
        dsimp only [Option.map_some]
        split
        next henabled _ => exact absurd henabled hstatus
        next => rfl

/-! ## Consumption -/

theorem consume_eq (v : Viewpoint) :
    consume v =
      match v.graph.provider? v.id .queries, v.registry.builder? v.module with
      | some _, some builder => (builder.consume (inbox v)).map (⟨·, []⟩)
      | _, _ => .ok StepOutput.empty := by
  unfold consume
  cases v.graph.provider? v.id .queries with
  | none => rfl
  | some queue =>
    cases v.registry.builder? v.module with
    | none => rfl
    | some builder =>
      show ((builder.consume (inbox v)) >>= fun ps => Except.ok (StepOutput.mk ps [])) =
        (builder.consume (inbox v)).map (⟨·, []⟩)
      cases builder.consume (inbox v) <;> rfl

theorem consume_of_queries {v : Viewpoint} {builder : MixedBuilder}
    (hqueue : (v.graph.provider? v.id .queries).isSome = true)
    (hb : v.registry.builder? v.module = some builder) :
    consume v = (builder.consume (inbox v)).map (⟨·, []⟩) := by
  obtain ⟨p, hp⟩ := Option.isSome_iff_exists.mp hqueue
  rw [consume_eq, hp, hb]

theorem consume_eq_error {v : Viewpoint} {e : ModuleError} (h : consume v = .error e) :
    ∃ b inbox, v.registry.builder? v.module = some b ∧ b.consume inbox = .error e := by
  rw [consume_eq] at h
  split at h
  next b _ hb => exact ⟨b, inbox v, hb, map_eq_error h⟩
  next => cases h

theorem consume_eq_ok {v : Viewpoint} {output : StepOutput} (h : consume v = .ok output) :
    output = StepOutput.empty ∨ ∃ b inbox ps, v.registry.builder? v.module = some b ∧
      b.consume inbox = .ok ps ∧ output = ⟨ps, []⟩ := by
  rw [consume_eq] at h
  split at h
  next b _ hb =>
    obtain ⟨ps, hps, rfl⟩ := map_eq_ok h
    exact .inr ⟨b, inbox v, ps, hb, hps, rfl⟩
  next => exact .inl (Except.ok.inj h).symm

/-! ## Edges -/

theorem edges_eq_nil {v : Viewpoint} {executor : Executor} {p : Phase} {output : StepOutput}
    (hp : p ∈ [decisions, queries executor, consumption])
    (h : p.step v = .ok (.ok output)) : output.edges = [] := by
  simp only [List.mem_cons, List.not_mem_nil, or_false] at hp
  rcases hp with rfl | rfl | rfl
  · obtain rfl := Except.ok.inj (Except.ok.inj h)
    rfl
  · have hask : ask v = output := Except.ok.inj (Except.ok.inj h)
    rcases ask_cases v with ⟨builder, -, -, heq⟩ | ⟨-, status, heq⟩
    · rw [← hask, heq]
    · rw [← hask, heq]
  · rcases consume_eq_ok (Except.ok.inj h) with rfl | ⟨b, inbox, ps, -, -, rfl⟩
    · rfl
    · rfl

end Build

end TargetGen
