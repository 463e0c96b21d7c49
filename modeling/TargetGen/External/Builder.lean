import TargetGen.Provider

/-!
# Builder — how a module type uses the external executor

A builder says which modules it supports, what is to be asked for a module, and
what the module publishes once there are answers.

* `Queue`: collects the queries of one module;
* `Inbox`: gives a module the answers to its queries.
-/

namespace TargetGen

/-! ## Asking -/

structure Queue where
  module : Module
  label : Label
  platform : Platform
  queries : List Query

namespace Queue

def empty (module : Module) (label : Label) (config : Config) : Queue :=
  ⟨module, label, config.platform, []⟩

/-- Ask about a target; asking twice makes one query. -/
def askAbout (q : Queue) (label : String) (request : Request) : Queue :=
  { q with queries := Distinct.append q.queries ⟨label, q.platform, request⟩ }

/-- Ask about the module's own target. -/
def ask (q : Queue) (request : Request) : Queue := q.askAbout q.label.address request

end Queue

/-! ## Reading answers -/

structure Inbox where
  module : Module
  label : Label
  platform : Platform
  answers : Answers

namespace Inbox

/-- The answer to a request about a target. -/
def answerAbout (i : Inbox) (label : String) (request : Request) :
    Except ModuleError String :=
  let query : Query := ⟨label, i.platform, request⟩
  match i.answers.get? query with
  | some answer => .ok answer
  | none => .error (.mixedBuild ("no answer for " ++ query.text))

/-- The answer to a request about the module's own target. -/
def answer (i : Inbox) (request : Request) : Except ModuleError String :=
  i.answerAbout i.label.address request

end Inbox

/-! ## Builders -/

/-- A request about the module's own target or about another one. -/
inductive Question where
  | own (request : Request)
  | about (label : String) (request : Request)
  deriving DecidableEq

def Queue.add (q : Queue) : Question → Queue
  | .own request => q.ask request
  | .about label request => q.askAbout label request

def Inbox.read (i : Inbox) : Question → Except ModuleError String
  | .own request => i.answer request
  | .about label request => i.answerAbout label request

structure MixedBuilder where
  /-- Whether a module can run externally under a configuration. -/
  supported : Module → Config → Bool
  /-- What to ask for a module with the given label. -/
  questions : Module → Label → List Question
  /-- What the module publishes, given its answers. -/
  consume : Inbox → Except ModuleError (List Provider)

/-- The queries for a module. -/
def MixedBuilder.queries (b : MixedBuilder) (m : Module) (label : Label) (config : Config) :
    List Query :=
  ((b.questions m label).foldl Queue.add (Queue.empty m label config)).queries

end TargetGen
