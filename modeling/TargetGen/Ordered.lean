/-!
# Ordered — strictly increasing lists, sets of names and maps keyed by name

Tables, attributes and query batches are kept in increasing order, so equal
contents are equal values and every listing comes out sorted.

* `Ordered.insert`, `Ordered.ofList`: insertion under a comparison function;
* `NameSet`, `NameMap`: sets of names and maps keyed by name, with their order
  as a proof field.
-/

namespace TargetGen

/-! ## Insertion -/

namespace Ordered

variable {α : Type}

/-- Put `a` at its place in an increasing list; an element that compares equal
to it gives way. -/
def insert (cmp : α → α → Ordering) (a : α) : List α → List α
  | [] => [a]
  | b :: rest =>
    match cmp a b with
    | .lt => a :: b :: rest
    | .eq => a :: rest
    | .gt => b :: insert cmp a rest

/-- The increasing list of the elements of `xs`; of elements that compare equal
the last one stays. -/
def ofList (cmp : α → α → Ordering) (xs : List α) : List α :=
  xs.foldl (fun sorted a => insert cmp a sorted) []

/-- Strictly increasing under `cmp`. -/
def Increasing (cmp : α → α → Ordering) (xs : List α) : Prop :=
  xs.Pairwise fun a b => cmp a b = .lt

theorem mem_of_mem_insert {cmp : α → α → Ordering} {a x : α} {xs : List α}
    (h : x ∈ insert cmp a xs) : x = a ∨ x ∈ xs := by
  induction xs with
  | nil => simpa [insert] using h
  | cons b rest ih =>
    unfold insert at h
    split at h
    · simpa using h
    · rcases List.mem_cons.mp h with rfl | h
      · exact .inl rfl
      · exact .inr (List.mem_cons_of_mem _ h)
    · rcases List.mem_cons.mp h with rfl | h
      · exact .inr List.mem_cons_self
      · exact (ih h).imp id (List.mem_cons_of_mem _)

theorem increasing_insert {cmp : α → α → Ordering} [Std.TransCmp cmp] (a : α)
    {xs : List α} (h : Increasing cmp xs) : Increasing cmp (insert cmp a xs) := by
  induction xs with
  | nil => exact List.pairwise_singleton _ _
  | cons b rest ih =>
    obtain ⟨hb, hrest⟩ := List.pairwise_cons.mp h
    unfold insert
    split
    next hlt =>
      refine List.pairwise_cons.mpr ⟨fun x hx => ?_, h⟩
      rcases List.mem_cons.mp hx with rfl | hx
      · exact hlt
      · exact Std.TransCmp.lt_trans hlt (hb x hx)
    next heq =>
      exact List.pairwise_cons.mpr
        ⟨fun x hx => Std.TransCmp.lt_of_eq_of_lt heq (hb x hx), hrest⟩
    next hgt =>
      refine List.pairwise_cons.mpr ⟨fun x hx => ?_, ih hrest⟩
      rcases mem_of_mem_insert hx with rfl | hx
      · exact Std.OrientedCmp.lt_of_gt hgt
      · exact hb x hx

theorem increasing_ofList {cmp : α → α → Ordering} [Std.TransCmp cmp] (xs : List α) :
    Increasing cmp (ofList cmp xs) := by
  have grow : ∀ (ys sorted : List α), Increasing cmp sorted →
      Increasing cmp (ys.foldl (fun s a => insert cmp a s) sorted) := by
    intro ys
    induction ys with
    | nil => exact fun _ h => h
    | cons y rest ih => exact fun _ h => ih _ (increasing_insert y h)
  exact grow xs [] List.Pairwise.nil

theorem mem_insert_iff_of_unique {cmp : α → α → Ordering} {a x : α} {xs : List α}
    (hunique : ∀ b ∈ xs, cmp a b = .eq → a = b) : x ∈ insert cmp a xs ↔ x = a ∨ x ∈ xs := by
  refine ⟨mem_of_mem_insert, fun h => ?_⟩
  induction xs with
  | nil => simpa [insert] using h
  | cons b rest ih =>
    unfold insert
    split
    next => simpa using h
    next heq =>
      obtain rfl := hunique b List.mem_cons_self heq
      simpa using h
    next =>
      have ih := ih fun c hc => hunique c (List.mem_cons_of_mem b hc)
      rw [List.mem_cons] at h ⊢
      rcases h with h | h | h
      · exact .inr (ih (.inl h))
      · exact .inl h
      · exact .inr (ih (.inr h))

theorem mem_ofList_iff_of_unique {cmp : α → α → Ordering} {x : α} {xs : List α}
    (hunique : ∀ a ∈ xs, ∀ b ∈ xs, cmp a b = .eq → a = b) : x ∈ ofList cmp xs ↔ x ∈ xs := by
  have grow : ∀ (ys sorted : List α), (∀ a ∈ ys, ∀ b, b ∈ ys ∨ b ∈ sorted → cmp a b = .eq → a = b) →
      (x ∈ ys.foldl (fun s a => insert cmp a s) sorted ↔ x ∈ ys ∨ x ∈ sorted) := by
    intro ys
    induction ys with
    | nil => simp
    | cons y rest ih =>
      intro sorted hunique
      have hinsert : ∀ b, b ∈ insert cmp y sorted ↔ b = y ∨ b ∈ sorted := fun b =>
        mem_insert_iff_of_unique fun c hc => hunique y List.mem_cons_self c (.inr hc)
      rw [List.foldl_cons, ih, hinsert, List.mem_cons]
      · constructor
        · rintro (h | h | h)
          · exact .inl (.inr h)
          · exact .inl (.inl h)
          · exact .inr h
        · rintro ((h | h) | h)
          · exact .inr (.inl h)
          · exact .inl h
          · exact .inr (.inr h)
      · intro a ha b hb
        refine hunique a (List.mem_cons_of_mem y ha) b ?_
        rw [hinsert] at hb
        rcases hb with hb | rfl | hb
        · exact .inl (List.mem_cons_of_mem y hb)
        · exact .inl List.mem_cons_self
        · exact .inr hb
  simpa [ofList] using grow xs [] fun a ha b hb => hunique a ha b (by simpa using hb)

@[simp] theorem mem_insert_iff {cmp : α → α → Ordering} [Std.LawfulEqCmp cmp] {a x : α}
    {xs : List α} : x ∈ insert cmp a xs ↔ x = a ∨ x ∈ xs :=
  mem_insert_iff_of_unique fun _ _ heq => Std.LawfulEqCmp.eq_of_compare heq

@[simp] theorem mem_ofList_iff {cmp : α → α → Ordering} [Std.LawfulEqCmp cmp] {x : α}
    {xs : List α} : x ∈ ofList cmp xs ↔ x ∈ xs :=
  mem_ofList_iff_of_unique fun _ _ _ _ heq => Std.LawfulEqCmp.eq_of_compare heq

theorem Increasing.nodup {cmp : α → α → Ordering} [Std.TransCmp cmp] {xs : List α}
    (h : Increasing cmp xs) : xs.Nodup := by
  refine h.imp fun {a b} hlt heq => ?_
  have hself : cmp b b = .eq := Std.ReflCmp.compare_self
  rw [heq, hself] at hlt
  cases hlt

theorem Increasing.eq_of_mem_iff {cmp : α → α → Ordering} [Std.TransCmp cmp] {xs ys : List α}
    (hx : Increasing cmp xs) (hy : Increasing cmp ys) (h : ∀ x, x ∈ xs ↔ x ∈ ys) : xs = ys := by
  have horiented : ∀ a b, cmp a b = .lt → ¬ cmp b a = .lt :=
    fun _ _ => Std.OrientedCmp.not_lt_of_lt
  exact List.Perm.eq_of_pairwise (fun a b _ _ hab hba => absurd hba (horiented a b hab)) hx hy
    ((List.perm_ext_iff_of_nodup hx.nodup hy.nodup).mpr h)

theorem ofList_congr {cmp : α → α → Ordering} [Std.TransCmp cmp] [Std.LawfulEqCmp cmp]
    {xs ys : List α} (h : ∀ x, x ∈ xs ↔ x ∈ ys) : ofList cmp xs = ofList cmp ys := by
  apply (increasing_ofList xs).eq_of_mem_iff (increasing_ofList ys)
  intro x
  rw [mem_ofList_iff, mem_ofList_iff, h]

theorem Increasing.eq_of_compare {cmp : α → α → Ordering} [Std.TransCmp cmp] {xs : List α}
    (h : Increasing cmp xs) {a b : α} (ha : a ∈ xs) (hb : b ∈ xs) (heq : cmp a b = .eq) :
    a = b := by
  induction xs with
  | nil => cases ha
  | cons x rest ih =>
    obtain ⟨hx, hrest⟩ := List.pairwise_cons.mp h
    rcases List.mem_cons.mp ha with rfl | ha' <;> rcases List.mem_cons.mp hb with rfl | hb'
    · rfl
    · have hlt := hx b hb'
      rw [heq] at hlt
      cases hlt
    · have hgt := Std.OrientedCmp.gt_of_lt (hx a ha')
      rw [heq] at hgt
      cases hgt
    · exact ih hrest ha' hb'

/-- **An increasing list** stays as it is. -/
theorem Increasing.ofList_eq {cmp : α → α → Ordering} [Std.TransCmp cmp] {xs : List α}
    (h : Increasing cmp xs) : ofList cmp xs = xs := by
  apply (increasing_ofList xs).eq_of_mem_iff h
  intro x
  exact mem_ofList_iff_of_unique fun a ha b hb => h.eq_of_compare ha hb

end Ordered

/-- The order of names: by code points. -/
def compareNames (a b : String) : Ordering := compare a b

instance : Std.TransCmp compareNames :=
  inferInstanceAs (Std.TransCmp (compare : String → String → Ordering))

instance : Std.LawfulEqCmp compareNames :=
  inferInstanceAs (Std.LawfulEqCmp (compare : String → String → Ordering))

/-! ## Sets of names -/

/-- A finite set of names. -/
structure NameSet where
  names : List String
  increasing : Ordered.Increasing compareNames names
  deriving DecidableEq

namespace NameSet

def empty : NameSet := ⟨[], List.Pairwise.nil⟩

instance : Inhabited NameSet := ⟨empty⟩

def insert (s : NameSet) (name : String) : NameSet :=
  ⟨Ordered.insert compareNames name s.names, Ordered.increasing_insert name s.increasing⟩

def ofList (names : List String) : NameSet :=
  ⟨Ordered.ofList compareNames names, Ordered.increasing_ofList names⟩

def contains (s : NameSet) (name : String) : Bool := s.names.contains name

@[simp] theorem ofList_names (s : NameSet) : ofList s.names = s := by
  unfold ofList
  congr
  exact s.increasing.ofList_eq

end NameSet

/-! ## Maps keyed by name -/

/-- The order of map entries: by key. -/
def compareKeys {β : Type} (a b : String × β) : Ordering := compareNames a.1 b.1

instance {β : Type} : Std.TransCmp (compareKeys (β := β)) where
  eq_swap {a b} := @Std.OrientedCmp.eq_swap _ compareNames _ a.1 b.1
  isLE_trans {a b c} := @Std.TransCmp.isLE_trans _ compareNames _ a.1 b.1 c.1

/-- A finite map keyed by name. -/
structure NameMap (β : Type) where
  entries : List (String × β)
  increasing : Ordered.Increasing compareKeys entries
  deriving DecidableEq

namespace NameMap

variable {β : Type}

def empty : NameMap β := ⟨[], List.Pairwise.nil⟩

instance : Inhabited (NameMap β) := ⟨empty⟩

/-- Bind `name` to `value`, replacing what it was bound to. -/
def insert (m : NameMap β) (name : String) (value : β) : NameMap β :=
  ⟨Ordered.insert compareKeys (name, value) m.entries,
    Ordered.increasing_insert (name, value) m.increasing⟩

/-- The map of a list of bindings; of repeated names the last binding stays. -/
def ofList (bindings : List (String × β)) : NameMap β :=
  ⟨Ordered.ofList compareKeys bindings, Ordered.increasing_ofList bindings⟩

def get? (m : NameMap β) (name : String) : Option β := m.entries.lookup name

def contains (m : NameMap β) (name : String) : Bool := (m.get? name).isSome

@[simp] theorem ofList_entries (m : NameMap β) : ofList m.entries = m := by
  unfold ofList
  congr
  exact m.increasing.ofList_eq

theorem lookup_eq_some_iff {entries : List (String × β)} {name : String} {value : β}
    (h : Ordered.Increasing compareKeys entries) :
    entries.lookup name = some value ↔ (name, value) ∈ entries := by
  induction entries with
  | nil => simp
  | cons entry rest ih =>
    obtain ⟨key, bound⟩ := entry
    obtain ⟨hkey, hrest⟩ := List.pairwise_cons.mp h
    by_cases heq : name = key
    · -- no later entry has this key
      have hnone : (name, value) ∉ rest := by
        intro hmem
        have hlt : compareNames key name = .lt := hkey _ hmem
        have hself : compareNames name name = .eq := Std.ReflCmp.compare_self
        rw [← heq, hself] at hlt
        cases hlt
      simp [heq ▸ hnone, heq, eq_comm]
    · have hne : (name == key) = false := beq_false_of_ne heq
      rw [List.lookup_cons, hne, List.mem_cons, ih hrest]
      simp [heq]

theorem get?_eq_some_iff {m : NameMap β} {name : String} {value : β} :
    m.get? name = some value ↔ (name, value) ∈ m.entries :=
  lookup_eq_some_iff m.increasing

end NameMap

end TargetGen
