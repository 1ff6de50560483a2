import Monkey.Session

/-!
# Steps of a session

A session is used step by step: a line is evaluated, the bindings are listed, or all of them are
dropped. What a step shows of a value leaves out which function it is and which scope it was made
in; these are known to the evaluator only.
-/

namespace Monkey

/-- What can be seen of a value: of a function its code. -/
def Value.shown : Value → Value
  | .function f => .function { f with identity := 0, scope := 0 }
  | .returned v => .returned v.shown
  | v => v

/-- What can be seen of the answer to a line. -/
def LineAnswer.shown : LineAnswer → LineAnswer
  | .value v => .value v.shown
  | answer => answer

namespace Session

/-- What a session can be asked to do. -/
inductive Step where
  | line (text : String)
  | bindings
  | reset
deriving DecidableEq, Repr

/-- The answer to a step. -/
inductive Answer where
  | line (answer : LineAnswer)
  | bindings (bindings : List (String × Value))
  | reset

/-- What can be seen of an answer. -/
def Answer.shown : Answer → Answer
  | .line answer => .line answer.shown
  | .bindings bound => .bindings (bound.map fun e => (e.1, e.2.shown))
  | .reset => .reset

/-- Takes a step. -/
def take (b : Bounds) (s : Session) : Step → Answer × Session
  | .line text =>
    match s.evalLine b text with
    | (answer, s) => (.line answer, s)
  | .bindings => (.bindings s.bindings, s)
  | .reset => (.reset, s.reset)

/-- Takes steps one after the other. -/
def takeAll (b : Bounds) (s : Session) : List Step → List Answer × Session
  | [] => ([], s)
  | step :: others =>
    match s.take b step with
    | (answer, s) =>
      match s.takeAll b others with
      | (answers, s) => (answer :: answers, s)

/-- The session after some steps. -/
def after (b : Bounds) (s : Session) (steps : List Step) : Session := (s.takeAll b steps).2

/-- What can be seen of the answers to some steps. -/
def answers (b : Bounds) (s : Session) (steps : List Step) : List Answer :=
  (s.takeAll b steps).1.map Answer.shown

end Session

end Monkey
