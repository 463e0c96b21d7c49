import TargetGen.Config

/-!
# Queries — what the external executor is asked

A query asks about one target under one platform. Queries are ordered by label,
platform and request, so a batch of them has one order.
-/

namespace TargetGen

/-- What is asked about a target. -/
inductive Request where
  | outputFiles
  | ccInfo
  | binary
  /-- A request that only a particular builder understands. -/
  | custom (name : String)
  deriving DecidableEq

namespace Request

def text : Request → String
  | .outputFiles => "output_files"
  | .ccInfo => "cc_info"
  | .binary => "binary"
  | .custom name => name

/-- The place of a kind of request among the kinds. -/
def rank : Request → Nat
  | .outputFiles => 0
  | .ccInfo => 1
  | .binary => 2
  | .custom _ => 3

end Request

structure Query where
  label : String
  platform : Platform
  request : Request
  deriving DecidableEq

namespace Query

def text (q : Query) : String :=
  q.request.text ++ "(" ++ q.label ++ ") for " ++ q.platform.text

/-- The order of queries: by label, system, architecture, kind of request and
its name. -/
def compare : Query → Query → Ordering :=
  compareLex (compareOn fun q => q.label) <|
  compareLex (compareOn fun q => q.platform.os) <|
  compareLex (compareOn fun q => q.platform.arch) <|
  compareLex (compareOn fun q => q.request.rank) <|
  compareOn fun q => q.request.text

instance : Std.TransCmp compare := by unfold compare; infer_instance

/-- Queries in order, repeated ones next to each other. -/
def sort (queries : List Query) : List Query :=
  queries.mergeSort fun a b => compare a b ≠ .gt

/-- The batch of some queries: each one once, in order. -/
def batch (queries : List Query) : List Query := Ordered.ofList compare queries

end Query

/-! ## Answers -/

/-- Answers by query; a query is answered at most once. -/
structure Answers where
  entries : List (Query × String)
  deriving DecidableEq

namespace Answers

def empty : Answers := ⟨[]⟩

def get? (a : Answers) (q : Query) : Option String := a.entries.lookup q

/-- Answer a query, instead of what was answered before. -/
def put (a : Answers) (q : Query) (answer : String) : Answers :=
  ⟨(q, answer) :: a.entries.filter (·.1 ≠ q)⟩

/-- The answers to the given queries only. -/
def restrict (a : Answers) (queries : List Query) : Answers :=
  ⟨queries.filterMap fun q => (a.get? q).map (q, ·)⟩

end Answers

/-- Why the external executor gave no answers. -/
inductive ExecutorError where
  | failed (message : String)
  | unavailable (queries : Nat)
  | io (message : String)
  deriving DecidableEq

def ExecutorError.message : ExecutorError → String
  | .failed message => "executor failed: " ++ message
  | .unavailable queries =>
    "no external executor available for " ++ toString queries ++ " queries"
  | .io message => "executor I/O error: " ++ message

/-- Whoever answers the queries of a build, all in one batch. Queries that do
not occur among the answers stay unanswered. -/
abbrev Executor := List Query → Except ExecutorError Answers

/-- The executor of builds without one: it answers nothing if asked nothing and
fails otherwise. -/
def Executor.none : Executor
  | [] => .ok Answers.empty
  | queries => .error (.unavailable queries.length)

end TargetGen
