import Vswitch.Topology.Context

/-!
# Traffic through the topology

Many packets are on their trips at a time, and the devices that track connections share one cache, which
nothing else uses. Packets come in, devices change their contexts, ask for directions and let the return
direction through, in any order; the clock never goes back.

* `Traffic.step`, `Traffic.run`: the traffic after an event, and after a sequence of events;
* `Traffic.answer?`, `Traffic.answersIn`: what a trip is told about its direction.
-/

namespace Vswitch

/-! ## Changes to a context -/

/-- What happens to a context apart from the cache. -/
inductive TripChange where
  /-- A device rewrites the current match, as it likes. -/
  | rewrite (m : WildcardMatch)
  | enter (device : Uuid)
  | tag (t : FlowTag)
  /-- The trip is named after the packet that started it. -/
  | name (cookie : UInt32)
  | limit (deadline : Time)

/-- The context after a change. A device that may not be entered is not. -/
def Context.change (c : Context) : TripChange → Context
  | .rewrite m => { c with current := m }
  | .enter device =>
    match c.enter device with
    | .ok entered => entered
    | .error _ => c
  | .tag t => c.tag t
  | .name cookie => { c with cookie := some cookie }
  | .limit deadline => { c with deadline := some deadline }

/-! ## Events -/

/-- One thing that happens. A trip is named by its place in the order in which packets came in. -/
inductive TrafficEvent where
  /-- Time passes. -/
  | pass (wait : Time)
  /-- A packet comes in. -/
  | start (arrival : WildcardMatch) (ingress : Uuid) (options : ContextOptions)
  | change (trip : Nat) (change : TripChange)
  /-- A device asks for the direction of a trip. -/
  | decide (trip : Nat) (device : Uuid)
  /-- A device lets the return direction through. -/
  | install (trip : Nat) (device : Uuid)

/-- The time, the cache, and the contexts of all trips. -/
structure Traffic where
  now : Time
  cache : Cache
  trips : List Context

namespace Traffic

/-- No traffic yet. -/
def start (expiration : Time) : Traffic := ⟨0, Cache.empty expiration, []⟩

/-- The traffic after an event. What is asked of a trip that is not there has no effect. -/
def step (s : Traffic) : TrafficEvent → Traffic
  | .pass wait => { s with now := s.now + wait }
  | .start arrival ingress options =>
    { s with trips := s.trips ++ [Context.start arrival ingress options] }
  | .change trip change => { s with trips := s.trips.modify trip (·.change change) }
  | .decide trip device =>
    match s.trips[trip]? with
    | none => s
    | some c =>
      let (c, cache) := c.decideDirection device s.cache s.now
      { s with cache := cache, trips := s.trips.set trip c }
  | .install trip device =>
    match s.trips[trip]? with
    | none => s
    | some c => { s with cache := c.install device s.cache s.now }

/-- The traffic after a sequence of events. -/
def run (s : Traffic) (es : List TrafficEvent) : Traffic := es.foldl step s

/-- What an event tells a trip: whether it goes forward. -/
def answer? (s : Traffic) (trip : Nat) : TrafficEvent → Option Bool
  | .decide asked device =>
    if asked = trip then
      s.trips[trip]?.map fun c => (c.decideDirection device s.cache s.now).1.isForward
    else none
  | _ => none

/-- All that a sequence of events tells a trip, in order. -/
def answersIn (s : Traffic) (trip : Nat) : List TrafficEvent → List Bool
  | [] => []
  | e :: rest => (s.answer? trip e).toList ++ (s.step e).answersIn trip rest

end Traffic

end Vswitch
