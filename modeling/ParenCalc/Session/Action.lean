import ParenCalc.Session.Registry
/-!
# Actions on a registry

Whatever happens to a registry is an action, and every action has an answer.  A history is a list of
actions: the answers of a run come one for each action, in order, and what a run leaves is the
registry for whatever happens next.
-/
set_option autoImplicit false

namespace ParenCalc

/-- What can be asked of a registry.  An eviction happens at a time of its own, or at the time on
the clock, and passes over the sessions that are busy. -/
inductive Action
  | create
  | eval (id text : Text)
  | listing (id : Text) (start : Option Text)
  | valueOf (id name : Text)
  | finish (id : Text)
  | close
  | evict (busy : List Text) (now : Option Binary64)
  | advance (step : Binary64)

inductive Action.Answer
  | created (outcome : Except Failure Text)
  | value (outcome : Except Failure Number)
  | bindings (outcome : Except Failure (List (Symbol × Number)))
  | evicted (ids : List Text)
  | done

namespace Registry

def perform (r : Registry) : Action → Action.Answer × Registry
  | .create =>
    let (outcome, r) := r.create
    (.created outcome, r)
  | .eval id text =>
    let (outcome, r) := r.eval id text
    (.value outcome, r)
  | .listing id start =>
    let (outcome, r) := r.listing id start
    (.bindings outcome, r)
  | .valueOf id name =>
    let (outcome, r) := r.valueOf id name
    (.value outcome, r)
  | .finish id => (.done, r.finish id)
  | .close => (.done, r.close)
  | .evict busy now =>
    let (ids, r) := r.evict busy (now.getD r.clock)
    (.evicted ids, r)
  | .advance step => (.done, r.advance step)

def run (r : Registry) : List Action → List Action.Answer × Registry
  | [] => ([], r)
  | action :: rest =>
    let (answer, r) := r.perform action
    let (answers, r) := r.run rest
    (answer :: answers, r)

end Registry

end ParenCalc
