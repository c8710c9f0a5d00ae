import Formula.Reading.Tree

/-! A session keeps a registry and the formula read last. A text that cannot be read leaves no formula, and later
registrations leave the formula as it is. -/
namespace Formula

structure Session where
  registry : Registry
  current : Option Expr

namespace Session

def ofRegistry (R : Registry) : Session := ⟨R, none⟩

def parse (s : Session) (text : String) : Session :=
  { s with current := (s.registry.read text).toOption }

def enroll (s : Session) (registration : Registration) : Session :=
  { s with registry := s.registry.enroll registration }

def evaluateWith (s : Session) (R : Registry) (bindings : Bindings) : Except EvalError Float :=
  match s.current with
  | some e => e.evaluate R bindings
  | none => .error .noFormula

def evaluate (s : Session) (bindings : Bindings) : Except EvalError Float := s.evaluateWith s.registry bindings

def shown? (s : Session) : Option String := s.current.map Expr.render

end Session

/- What can be done in a workspace. Only `parse` and `restore` touch the current formula. -/
inductive Step where
  | parse (text : String)
  | preview (text : String)
  | evaluate (bindings : Bindings)
  | enroll (registration : Registration)
  | save
  | restore

structure Workspace where
  live : Session
  saved : Session

inductive Outcome where
  | tree (result : Except SyntaxError Expr)
  | value (result : Except EvalError Float)
  | done

namespace Workspace

def ofRegistry (R : Registry) : Workspace := ⟨.ofRegistry R, .ofRegistry R⟩

def perform (w : Workspace) : Step → Outcome × Workspace
  | .parse text => (.tree (w.live.registry.read text), { w with live := w.live.parse text })
  | .preview text => (.tree (w.live.registry.read text), w)
  | .evaluate bindings => (.value (w.live.evaluate bindings), w)
  | .enroll registration => (.done, { w with live := w.live.enroll registration })
  | .save => (.done, { w with saved := w.live })
  | .restore => (.done, { w with live := w.saved })

def after (w : Workspace) (steps : List Step) : Workspace :=
  steps.foldl (fun w step => (w.perform step).2) w

end Workspace

inductive Failure where
  | unreadable (error : SyntaxError)
  | unevaluable (error : EvalError)

namespace Failure

def message : Failure → String
  | unreadable error => error.message
  | unevaluable error => error.message

def cause? : Failure → Option OperatorError
  | unreadable _ => none
  | unevaluable error => error.cause?

end Failure

def compute (text : String) (bindings : Bindings) : Except Failure Float := do
  let e ← (Registry.standard.read text).mapError .unreadable
  (e.evaluate .standard bindings).mapError .unevaluable

end Formula
