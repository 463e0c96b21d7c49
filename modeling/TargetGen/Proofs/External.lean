import Mathlib.Data.List.Basic
import TargetGen.External.Builder

/-!
# External — batches of queries, and answers to those who asked

A batch holds each query once and in order, and no other (`mem_batch`): queries
that compare equal are equal. A question of a builder stands for one query,
`Question.query`, on whichever side it is asked: it is what the queue collects
(`mem_queries`) and what the inbox looks up (`read_eq`). So an inbox that was
given the answers to some queries answers just the questions that stand for them.
-/

namespace TargetGen

/-! ## Batches -/

namespace Request

theorem eq_of_rank_of_text {a b : Request} (hrank : a.rank = b.rank) (htext : a.text = b.text) :
    a = b := by
  cases a <;> cases b <;> simp_all [rank, text]

end Request

namespace Query

theorem eq_of_compare {a b : Query} (h : compare a b = .eq) : a = b := by
  obtain ⟨label, ⟨os, arch⟩, request⟩ := a
  obtain ⟨label', ⟨os', arch'⟩, request'⟩ := b
  simp only [compare, compareLex, compareOn, Ordering.then_eq_eq,
    Std.LawfulEqCmp.compare_eq_iff_eq] at h
  obtain ⟨rfl, rfl, rfl, hrank, htext⟩ := h
  rw [Request.eq_of_rank_of_text hrank htext]

@[simp] theorem compare_self (a : Query) : compare a a = .eq := by
  simp [compare, compareLex, compareOn]

instance : Std.LawfulEqCmp compare where
  compare_self {a} := compare_self a
  eq_of_compare := eq_of_compare

@[simp] theorem mem_batch {q : Query} {queries : List Query} : q ∈ batch queries ↔ q ∈ queries :=
  Ordered.mem_ofList_iff

theorem increasing_batch (queries : List Query) :
    Ordered.Increasing compare (batch queries) :=
  Ordered.increasing_ofList queries

end Query

/-! ## Answers -/

namespace Answers

theorem get?_restrict (a : Answers) (queries : List Query) (q : Query) :
    (a.restrict queries).get? q = if q ∈ queries then a.get? q else none := by
  show (queries.filterMap fun q => (a.get? q).map (q, ·)).lookup q = _
  induction queries with
  | nil => rfl
  | cons first rest ih =>
    rw [List.filterMap_cons]
    by_cases hq : q = first
    · subst hq
      cases ha : a.get? q with
      | none => simp [ha, ih]
      | some answer => simp
    · have hne : (q == first) = false := beq_eq_false_iff_ne.mpr hq
      cases ha : a.get? first with
      | none => simp [ih, hq]
      | some answer => simp [List.lookup_cons, hne, ih, hq]

@[simp] theorem get?_restrict_eq_some {a : Answers} {queries : List Query} {q : Query}
    {answer : String} : (a.restrict queries).get? q = some answer ↔
      q ∈ queries ∧ a.get? q = some answer := by
  rw [get?_restrict]
  split
  next h => simp [h]
  next h => simp [h]

end Answers

/-! ## Questions -/

/-- The query that a question stands for, asked by a module with the address `own`. -/
def Question.query (own : String) (platform : Platform) : Question → Query
  | .own request => ⟨own, platform, request⟩
  | .about label request => ⟨label, platform, request⟩

theorem Queue.add_eq (queue : Queue) (question : Question) :
    queue.add question =
      { queue with
        queries := Distinct.append queue.queries
          (question.query queue.label.address queue.platform) } := by
  cases question <;> rfl

/-- **What is queued** are the queries that the questions stand for. -/
theorem MixedBuilder.mem_queries {b : MixedBuilder} {m : Module} {label : Label}
    {config : Config} {q : Query} :
    q ∈ b.queries m label config ↔
      ∃ question ∈ b.questions m label, q = question.query label.address config.platform := by
  have grow : ∀ (questions : List Question) (queue : Queue),
      q ∈ (questions.foldl Queue.add queue).queries ↔ q ∈ queue.queries ∨
        ∃ question ∈ questions, q = question.query queue.label.address queue.platform := by
    intro questions
    induction questions with
    | nil => simp
    | cons question rest ih =>
      intro queue
      rw [List.foldl_cons, ih, Queue.add_eq]
      simp only [Distinct.mem_append, List.mem_cons, exists_eq_or_imp, or_assoc]
  rw [MixedBuilder.queries, grow]
  simp [Queue.empty]

/-- **What is read** is the answer to the query that the question stands for. -/
theorem Inbox.read_eq (i : Inbox) (question : Question) :
    i.read question =
      match i.answers.get? (question.query i.label.address i.platform) with
      | some answer => .ok answer
      | none => .error (.mixedBuild
          ("no answer for " ++ (question.query i.label.address i.platform).text)) := by
  cases question <;> rfl

end TargetGen
