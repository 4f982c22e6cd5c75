import ParenCalc.Interpreter
import ParenCalc.Session.Ids
/-!
# The session registry

Each session is an interpreter of its own under an id.  Sessions are listed in the order of their
creation.  Using a session notes the time; a session that nobody has used for longer than the idle
timeout can be evicted.  A session that is closed but still listed answers as if it were gone.
-/
set_option autoImplicit false

namespace ParenCalc

structure Session where
  interpreter : Interpreter
  lastUsed : Binary64
  closed : Bool

def Session.idleFor (s : Session) (now : Binary64) : Binary64 := now.sub s.lastUsed

/-- What a registry allows: sessions without end and without number unless told otherwise. -/
structure Policy where
  idleTimeout : Option Binary64
  maxSessions : Option Int

/-- The sessions, the clock, and the draws made from the source of ids. -/
structure Registry where
  policy : Policy
  ids : IdSource
  drawn : Nat
  clock : Binary64
  sessions : OrderedMap Text Session

namespace Registry

def start (policy : Policy) (ids : IdSource) (clock : Binary64) : Registry :=
  ⟨policy, ids, 0, clock, .empty⟩

def sessionIds (r : Registry) : List Text := r.sessions.keys

def has (r : Registry) (id : Text) : Bool := r.sessions.contains id

def size (r : Registry) : Nat := r.sessions.size

def advance (step : Binary64) (r : Registry) : Registry := { r with clock := r.clock.add step }

/-- Adds an empty session under the first id drawn that is not in use.  A full registry draws
nothing. -/
def create (r : Registry) : Except Failure Text × Registry :=
  match r.policy.maxSessions with
  | some limit =>
    if limit ≤ (r.size : Int) then (.error (.fault (.sessionLimit limit)), r) else add r
  | none => add r
where
  add (r : Registry) : Except Failure Text × Registry :=
    let n := r.ids.firstFree r.sessionIds r.drawn
    let id := r.ids.draw n
    (.ok id, { r with
      drawn := n + 1
      sessions := r.sessions.insert id ⟨.fresh, r.clock, false⟩ })

/-- Uses the session of an id: the time is noted, then its interpreter acts. -/
def use {α : Type} (id : Text) (act : Interpreter → Except Failure α × Interpreter)
    (r : Registry) : Except Failure α × Registry :=
  match r.sessions.get? id with
  | none => (.error (.fault (.sessionNotFound id)), r)
  | some session =>
    if session.closed then (.error (.fault (.sessionNotFound id)), r)
    else
      let (result, interpreter) := act session.interpreter
      (result, { r with
        sessions := r.sessions.insert id
          { session with interpreter := interpreter, lastUsed := r.clock } })

def eval (id text : Text) (r : Registry) : Except Failure Number × Registry :=
  r.use id (Interpreter.eval text)

def listing (id : Text) (start : Option Text) (r : Registry) :
    Except Failure (List (Symbol × Number)) × Registry :=
  r.use id fun i => (.ok (i.listing start), i)

def valueOf (id name : Text) (r : Registry) : Except Failure Number × Registry :=
  r.use id fun i => (i.valueOf name, i)

def finish (id : Text) (r : Registry) : Registry := { r with sessions := r.sessions.erase id }

def close (r : Registry) : Registry := { r with sessions := .empty }

/-- Whether a session is to be evicted at some time: it has been idle for longer than the timeout,
it is not closed, and nobody is at work in it; `busy` lists the sessions at work. -/
def isDue (r : Registry) (busy : List Text) (now : Binary64) (id : Text) (session : Session) :
    Bool :=
  match r.policy.idleTimeout with
  | none => false
  | some timeout =>
    Number.lt (.float timeout) (.float (session.idleFor now)) && !session.closed && !busy.contains id

def evict (busy : List Text) (now : Binary64) (r : Registry) : List Text × Registry :=
  ((r.sessions.filter (r.isDue busy now)).keys,
    { r with sessions := r.sessions.filter fun id session => !r.isDue busy now id session })

end Registry

end ParenCalc
