import DeferredImports.Failure
import DeferredImports.Log.Event
import DeferredImports.Syntax.Node

/-! Oracles that know the exports of modules, and sessions that ask them and keep a trace. -/

namespace DeferredImports

/-- A symbol that a module exports: the value declarations merged under its name, and what its
oracle remembers of them. -/
structure ExportedSymbol (ω : Type) where
  name : String
  declarations : List Node
  origin : ω

/-- An answer, what was logged on the way, and the oracle's state after it. -/
structure Reply (σ α : Type) where
  outcome : Except Failure α
  events : List Event
  state : σ

/-- The exports of the module that a specifier names in a file, if there is one, and a description
of the declared type of a symbol, if it is known. Nothing that an oracle says is checked. -/
structure Oracle (ω σ : Type) where
  exportsOf : (specifier file : String) → σ → Reply σ (Option (List (ExportedSymbol ω)))
  typeOf : ExportedSymbol ω → σ → Reply σ (Option Node)

/-- What a session does: it logs, asks the oracle, and calls the hooks that were given. -/
inductive Action where
  | logged (event : Event)
  | exportsAsked (specifier file : String)
  | typeAsked (symbol : String)
  | allowedAsked (specifier file : String)
  | wrapperAsked
  | injectedAsked (file : String)
deriving DecidableEq

namespace Reply

def map {σ α β : Type} (f : α → β) (r : Reply σ α) : Reply σ β :=
  ⟨r.outcome.map f, r.events, r.state⟩

end Reply

structure Progress (σ : Type) where
  trace : List Action
  oracle : σ

abbrev Session (σ α : Type) : Type := Effect (Progress σ) α

namespace Session

variable {ω σ α : Type}

def act (a : Action) : Session σ Unit :=
  modify fun p => { p with trace := p.trace ++ [a] }

def log (e : Event) : Session σ Unit := act (.logged e)

/-- Takes over the log and the state of an answer. A failed answer is a value. -/
def take (answer : σ → Reply σ α) : Session σ (Except Failure α) := do
  let reply := answer (← get).oracle
  set (⟨(← get).trace ++ reply.events.map .logged, reply.state⟩ : Progress σ)
  return reply.outcome

/-- Asks the oracle and notes the question. -/
def ask (question : Action) (answer : σ → Reply σ α) : Session σ (Except Failure α) := do
  act question
  take answer

/-- Takes over an answer; a failed one ends the session. -/
def require (answer : σ → Reply σ α) : Session σ α := do
  match ← take answer with
  | .error e => throw e
  | .ok a => return a

end Session

end DeferredImports
