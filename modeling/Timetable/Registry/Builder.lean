import Timetable.Config
import Timetable.Registry

/-!
# Building registries

A builder has the tracker and the shutdown signal of the registry to come, so that
the wrappers of its chain can name them.  Wrappers that are added later go inside
the chain, whether it is the standard one or another one.
-/

namespace Timetable

/-- A registry that is not complete yet. -/
structure Registry.Builder where
  executor : Executor
  tracker : TrackerId
  signal : SignalId
  /-- The chain in the place of the standard one. -/
  chain : Option Chain := none
  /-- Wrappers inside the chain. -/
  extra : Chain := []
  parser : Parser := .standard

namespace Registry.Builder

/-- A builder with a tracker and a signal of its own. -/
def new (e : Executor) : Builder :=
  let (e, tracker) := e.addTracker true
  let (e, token) := e.freshToken
  let (e, signal) := e.addSignal token
  { executor := e, tracker := tracker, signal := signal }

/-- All wrappers of the registry to come. -/
def wrappers (b : Builder) : Chain :=
  b.chain.getD (Registry.standardChain b.tracker) ++ b.extra

/-- The registry, without jobs and not running.  A driven one drives the timers that it
arms. -/
def build (b : Builder) (driven : Bool) : Registry :=
  { executor := b.executor, chain := b.wrappers, tracker := b.tracker, signal := b.signal
    parser := b.parser, driven := driven }

/-- The builder that follows a configuration, if that has no fault. -/
def configure (b : Builder) (c : Config) : Except Fault Builder := do
  let chain ← c.chain b.signal b.tracker
  let parser ← c.expressionParser
  .ok { b with chain := some chain, parser := parser }

end Registry.Builder
end Timetable
