import TargetGen.Proofs.Reference

/-!
# Gathering — what becomes of a list of entries

Entries are expanded one after the other until one fails, first the excluded ones and then
the others. If none fails, the labels that they have come to are gathered in a list
(`Viewpoint.gathered`). So it is known for every list whether its expansion succeeds, and
with what (`Viewpoint.expand_eq_ok_iff`, `Viewpoint.expand_eq_error_iff`).
-/

namespace TargetGen.Viewpoint

variable {v : Viewpoint} {paths excludes : List String} {r : ReferenceRecord}

/-! ## Up to the first error -/

section

variable {α : Type} {f : String → Except ModuleError α} {before after : List String}

theorem collect_append (f : String → Except ModuleError α) (before after : List String) :
    collect f (before ++ after) =
      match collect f before with
      | (found, some e) => (found, some e)
      | (found, none) => (found ++ (collect f after).1, (collect f after).2) := by
  induction before with
  | nil => rfl
  | cons entry rest ih =>
    rw [List.cons_append, collect, collect]
    cases f entry with
    | error e => rfl
    | ok a =>
      dsimp only
      rw [ih]
      cases collect f rest with
      | mk found error => cases error <;> rfl

theorem collect_append_eq_iff {found : List α} :
    collect f (before ++ after) = (found, none) ↔
      ∃ first rest, collect f before = (first, none) ∧ collect f after = (rest, none) ∧
        first ++ rest = found := by
  rw [collect_append]
  cases collect f before with
  | mk first error =>
    cases error with
    | some e => simp
    | none => cases collect f after; simp [and_comm]

end

/-! ## Whole lists -/

/-- The list that expanded entries come to, less those that are excluded. -/
def gathered (v : Viewpoint) (found out : List Expanded) : LabelList :=
  (v.config.packages.resolveList v.module.dir
    ⟨found.flatMap (·.keptLabels ((out.flatMap Expanded.labels).map Label.address)),
      out.flatMap Expanded.labels⟩).subtractExcludes

theorem expand_eq_error_iff {e : ModuleError} :
    (v.expand paths excludes r).1 = .error e ↔
      (collect (v.expandEntry []) excludes).2 = some e ∨
      ∃ out, collect (v.expandEntry []) excludes = (out, none) ∧
        (collect (v.expandEntry (out.filterMap Expanded.path?)) paths).2 = some e := by
  unfold expand
  cases collect (v.expandEntry []) excludes with
  | mk out error =>
    cases error with
    | some e' => simp
    | none =>
      cases hfound : collect (v.expandEntry (out.filterMap Expanded.path?)) paths with
      | mk found error => cases error <;> simp [hfound]

/-- Otherwise it gathers what all entries have come to. -/
theorem expand_eq_ok_iff {list : LabelList} :
    (v.expand paths excludes r).1 = .ok list ↔
      ∃ out found, collect (v.expandEntry []) excludes = (out, none) ∧
        collect (v.expandEntry (out.filterMap Expanded.path?)) paths = (found, none) ∧
        v.gathered found out = list := by
  unfold expand
  cases collect (v.expandEntry []) excludes with
  | mk out error =>
    cases error with
    | some e' => simp
    | none =>
      cases hfound : collect (v.expandEntry (out.filterMap Expanded.path?)) paths with
      | mk found error => cases error <;> simp [hfound, gathered]

end TargetGen.Viewpoint
