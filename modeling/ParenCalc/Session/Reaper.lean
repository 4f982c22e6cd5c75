import ParenCalc.Session.Registry
/-!
# The reaper

A reaper waits for a fixed time again and again and evicts after each wait.  An eviction that fails
changes nothing and does not stop it.  A reaper that has been stopped stays so: it can be started
again, but then has nothing to wait for.
-/
set_option autoImplicit false

namespace ParenCalc

structure Reaper where
  interval : Binary64
  running : Bool
  stopped : Bool

namespace Reaper

def ofInterval (interval : Binary64) : Reaper := ⟨interval, false, false⟩

/-- A reaper that is running already is not started a second time. -/
def start (p : Reaper) : Reaper := if p.running then p else { p with running := true }

def stop (p : Reaper) : Reaper := { p with running := false, stopped := true }

/-- The ids evicted over some ticks, of which the first `failing` fail. -/
def ticks (interval : Binary64) : (count failing : Nat) → Registry → List Text × Registry
  | 0, _, r => ([], r)
  | count + 1, 0, r =>
    let later := r.advance interval
    let (evicted, after) := later.evict [] later.clock
    let (more, last) := ticks interval count 0 after
    (evicted ++ more, last)
  | count + 1, failing + 1, r => ticks interval count failing (r.advance interval)

/-- What a reaper does to a registry over some ticks: nothing unless it is running and has never
been stopped. -/
def run (p : Reaper) (count failing : Nat) (r : Registry) : List Text × Registry :=
  if p.running && !p.stopped then ticks p.interval count failing r else ([], r)

end Reaper

end ParenCalc
