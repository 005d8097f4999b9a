import Mathlib
import Vswitch.Proofs.Topology.ConnectionKey
import Vswitch.Proofs.Topology.Context

/-!
# Directions of connections

A packet is a return packet exactly if the latest permit for the opposite direction of its connection, at
the same device, has not run out. A permit is given when a device lets the return direction of a tracked
packet through, unless the packet is a return packet itself. The cache is nothing but the record of the
latest permits (`Mirrors`), which holds along every run because connections never share a name in it.

What a trip is told the first time it is told ever after (`Settled`).

* `Traffic.Permit`, `Traffic.permitsIn`, `Traffic.OpenAt`: what was let through, and what still is;
* `Traffic.Mirrors.run`: the cache after any sequence of events;
* `Traffic.direction_follows_permits`: what the first question about a direction is told.
-/

namespace Vswitch

/-- The contexts of the packets that come in with an event. -/
def TrafficEvent.begun : TrafficEvent → List Context
  | .start arrival ingress options => [Context.start arrival ingress options]
  | _ => []

namespace Traffic

open ConnectionKey

variable {s : Traffic} {trip : Nat} {e : TrafficEvent}

/-! ## Events -/

section Events

variable {c : Context} (device : Uuid)

/-- Asking for a direction touches the trip that asks, and the cache. -/
theorem step_decide (hc : s.trips[trip]? = some c) : s.step (.decide trip device) =
    { s with
      cache := (c.decideDirection device s.cache s.now).2
      trips := s.trips.set trip (c.decideDirection device s.cache s.now).1 } := by
  rw [step, hc]

theorem step_decide_of_none (hc : s.trips[trip]? = none) : s.step (.decide trip device) = s := by
  rw [step, hc]

/-- Asking takes no time. -/
theorem now_step_decide (trip : Nat) : (s.step (.decide trip device)).now = s.now := by
  cases hc : s.trips[trip]? with
  | none => rw [step_decide_of_none device hc]
  | some c => rw [step_decide device hc]

/-- A question drops nothing but what has expired. -/
theorem liveAt_step_decide (trip : Nat) {t : Time} (hle : s.now ≤ t) (key : String) :
    (s.step (.decide trip device)).cache.LiveAt t key ↔ s.cache.LiveAt t key := by
  cases hc : s.trips[trip]? with
  | none => rw [step_decide_of_none device hc]
  | some c =>
    rw [step_decide device hc]
    exact Context.liveAt_decideDirection hle key

/-- A trip installs what its context says. -/
theorem step_install (hc : s.trips[trip]? = some c) :
    s.step (.install trip device) = { s with cache := c.install device s.cache s.now } := by
  rw [step, hc]

theorem step_install_of_none (hc : s.trips[trip]? = none) :
    s.step (.install trip device) = s := by
  rw [step, hc]

/-- The trip that asks is told its direction. -/
theorem answer?_decide (hc : s.trips[trip]? = some c) : s.answer? trip (.decide trip device) =
    some (c.decideDirection device s.cache s.now).1.isForward := by
  rw [answer?, if_pos rfl, hc]
  rfl

/-- What an event makes of the context of a trip. -/
def after (s : Traffic) (trip : Nat) (c : Context) : TrafficEvent → Context
  | .change changed change => if changed = trip then c.change change else c
  | .decide asked device =>
    if asked = trip then (c.decideDirection device s.cache s.now).1 else c
  | _ => c

/-- A trip that has begun goes on, whatever happens. -/
theorem trips_step_of_some (hc : s.trips[trip]? = some c) (e : TrafficEvent) :
    (s.step e).trips[trip]? = some (s.after trip c e) := by
  -- only a look-up and a change of this trip touch it; new trips come behind it
  cases e with
  | pass wait => exact hc
  | start arrival ingress options =>
    show (s.trips ++ [Context.start arrival ingress options])[trip]? = some c
    have hlt : trip < s.trips.length := (List.getElem?_eq_some_iff.mp hc).1
    rw [List.getElem?_append_left hlt, hc]
  | change changed change =>
    show (s.trips.modify changed (·.change change))[trip]? =
      some (if changed = trip then c.change change else c)
    rw [List.getElem?_modify, hc]
    rfl
  | decide asked device =>
    show _ = some (if asked = trip then (c.decideDirection device s.cache s.now).1 else c)
    by_cases hasked : asked = trip
    · subst hasked
      have hlt : asked < s.trips.length := (List.getElem?_eq_some_iff.mp hc).1
      rw [if_pos rfl, step_decide device hc]
      exact List.getElem?_set_self hlt
    · rw [if_neg hasked]
      cases hother : s.trips[asked]? with
      | none => rw [step_decide_of_none device hother, hc]
      | some other =>
        rw [step_decide device hother]
        exact (List.getElem?_set_ne hasked).trans hc
  | install asked device =>
    cases hother : s.trips[asked]? with
    | none =>
      rw [step_install_of_none device hother]
      exact hc
    | some other =>
      rw [step_install device hother]
      exact hc

/-- Trips begin when packets come in, and none is forgotten. -/
theorem length_trips_step (s : Traffic) (e : TrafficEvent) :
    (s.step e).trips.length = s.trips.length + e.begun.length := by
  cases e with
  | pass wait => rfl
  | start arrival ingress options => exact List.length_append
  | change changed change => exact List.length_modify _ _ _
  | decide asked device =>
    cases hc : s.trips[asked]? with
    | none =>
      rw [step_decide_of_none device hc]
      rfl
    | some c =>
      rw [step_decide device hc]
      exact List.length_set
  | install asked device =>
    cases hc : s.trips[asked]? with
    | none =>
      rw [step_install_of_none device hc]
      rfl
    | some c =>
      rw [step_install device hc]
      rfl

/-- A trip that an event begins has not been told anything. -/
theorem trips_step_of_none (hnone : s.trips[trip]? = none) (e : TrafficEvent)
    (hc : (s.step e).trips[trip]? = some c) : c.direction = .unknown := by
  have hle : s.trips.length ≤ trip := List.getElem?_eq_none_iff.mp hnone
  have hlength := length_trips_step s e
  have hlt : trip < (s.step e).trips.length := (List.getElem?_eq_some_iff.mp hc).1
  cases e with
  | start arrival ingress options =>
    have hadded : (s.trips ++ [Context.start arrival ingress options])[trip]? = some c := hc
    have hmem : c ∈ [Context.start arrival ingress options] := by
      rw [List.getElem?_append_right hle] at hadded
      exact List.mem_of_getElem? hadded
    rw [List.mem_singleton.mp hmem]
    rfl
  | _ =>
    -- no other event begins a trip
    simp only [TrafficEvent.begun, List.length_nil] at hlength
    omega

end Events

/-! ## Permits -/

/-- The opposite direction of a connection was let through for a while. -/
structure Permit where
  /-- The connection of the packet for which that was done. -/
  key : ConnectionKey
  time : Time
  ttl : Time

/-- The permit that an event gives. -/
def permit? (s : Traffic) : TrafficEvent → Option Permit
  | .install trip device =>
    match s.trips[trip]? with
    | none => none
    | some c =>
      if c.direction = .reply then none
      else (ofMatch? c.current device).map fun k => ⟨k, s.now, c.options.conntrackTtl⟩
  | _ => none

/-- All permits of a sequence of events, in order. -/
def permitsIn (s : Traffic) : List TrafficEvent → List Permit
  | [] => []
  | e :: rest => (s.permit? e).toList ++ (s.step e).permitsIn rest

/-- Either nothing is let through, and nothing changes, or a permit is given and an entry is stored for
the opposite direction. -/
theorem install_cases (s : Traffic) (trip : Nat) (device : Uuid) :
    (s.permit? (.install trip device) = none ∧ s.step (.install trip device) = s) ∨
      ∃ c k, s.trips[trip]? = some c ∧ c.direction ≠ .reply ∧
        ofMatch? c.current device = some k ∧
        s.permit? (.install trip device) = some ⟨k, s.now, c.options.conntrackTtl⟩ ∧
        s.step (.install trip device) =
          { s with
            cache := s.cache.putFor s.now k.reversed.text Context.connectionMark
              c.options.conntrackTtl } := by
  rw [permit?]
  cases hc : s.trips[trip]? with
  | none => exact Or.inl ⟨rfl, step_install_of_none device hc⟩
  | some c =>
    rw [step_install device hc]
    -- two reasons to let nothing through: a return packet, and a flow without a connection
    by_cases hreply : c.direction = .reply
    · rw [Context.install_of_reply hreply]
      exact Or.inl ⟨if_pos hreply, rfl⟩
    · cases htracked : ofMatch? c.current device with
      | none =>
        rw [Context.install_of_untracked htracked]
        refine Or.inl ⟨?_, rfl⟩
        simp only [if_neg hreply, htracked, Option.map_none]
      | some k =>
        rw [Context.install_of_tracked hreply htracked]
        refine Or.inr ⟨c, k, rfl, hreply, htracked, ?_, rfl⟩
        simp only [if_neg hreply, htracked, Option.map_some]

/-- The latest permit for a connection. -/
def latest? (past : List Permit) (k : ConnectionKey) : Option Permit :=
  (past.filter fun p => p.key == k).getLast?

/-- The latest permit for a connection has not run out. -/
def OpenAt (past : List Permit) (k : ConnectionKey) (t : Time) : Prop :=
  ∃ p, latest? past k = some p ∧ t < p.time + p.ttl

/-- The last permit for a connection is the latest. -/
theorem latest?_concat (past : List Permit) (p : Permit) (k : ConnectionKey) :
    latest? (past ++ [p]) k = if p.key = k then some p else latest? past k := by
  unfold latest?
  rw [List.filter_append, List.filter_singleton]
  by_cases hkey : p.key = k
  · have hkept : (p.key == k) = true := beq_iff_eq.mpr hkey
    rw [if_pos hkey, hkept]
    exact List.getLast?_concat
  · have hdropped : (p.key == k) = false := beq_eq_false_iff_ne.mpr hkey
    rw [if_neg hkey, hdropped]
    exact congrArg List.getLast? (List.append_nil _)

/-- A new permit settles until when its connection is open, and no other's. -/
theorem openAt_concat {past : List Permit} {p : Permit} {k : ConnectionKey} {t : Time} :
    OpenAt (past ++ [p]) k t ↔ if p.key = k then t < p.time + p.ttl else OpenAt past k t := by
  unfold OpenAt
  rw [latest?_concat]
  by_cases hkey : p.key = k
  · rw [if_pos hkey, if_pos hkey]
    constructor
    · rintro ⟨found, hfound, hopen⟩
      cases hfound
      exact hopen
    · intro hopen
      exact ⟨p, rfl, hopen⟩
  · rw [if_neg hkey, if_neg hkey]

/-! ## The cache records the latest permits -/

/-- From now on, the cache has a connection exactly as long as its opposite direction is permitted. -/
def Mirrors (past : List Permit) (s : Traffic) : Prop :=
  ∀ (k : ConnectionKey) (t : Time), s.now ≤ t →
    (s.cache.LiveAt t k.text ↔ OpenAt past k.reversed t)

variable {past : List Permit}

/-- At the start nothing is permitted and nothing is cached. -/
theorem mirrors_start (expiration : Time) : Mirrors [] (start expiration) := by
  intro k t _
  constructor
  · intro hlive
    exact absurd hlive (Cache.not_liveAt_empty expiration t k.text)
  · rintro ⟨p, hp, -⟩
    contradiction

/-- An entry for the opposite direction goes with a permit. -/
theorem Mirrors.putFor (h : Mirrors past s) (own : ConnectionKey) (value : String) (ttl : Time) :
    Mirrors (past ++ [⟨own, s.now, ttl⟩])
      { s with cache := s.cache.putFor s.now own.reversed.text value ttl } := by
  intro k t hle
  rw [Cache.liveAt_putFor, openAt_concat]
  -- the names agree exactly if the connections do
  by_cases hown : k = own.reversed
  · have hreversed : own = k.reversed := by rw [hown, reversed_reversed]
    rw [if_pos (congrArg text hown), if_pos hreversed]
  · have hreversed : own ≠ k.reversed := by
      rintro rfl
      exact hown (reversed_reversed k).symm
    rw [if_neg (mt text_injective hown), if_neg hreversed]
    exact h k t hle

/-- One event changes the cache and the permits alike. -/
theorem Mirrors.step (h : Mirrors past s) (e : TrafficEvent) :
    Mirrors (past ++ (s.permit? e).toList) (s.step e) := by
  -- only an install gives a permit, and only it stores an entry
  cases e with
  | pass wait =>
    show Mirrors (past ++ []) { s with now := s.now + wait }
    rw [List.append_nil]
    intro k t hle
    have hnow : s.now ≤ t := Nat.le_trans (Nat.le_add_right s.now wait) hle
    exact h k t hnow
  | start arrival ingress options =>
    show Mirrors (past ++ []) _
    rw [List.append_nil]
    exact h
  | change changed change =>
    show Mirrors (past ++ []) _
    rw [List.append_nil]
    exact h
  | decide asked device =>
    show Mirrors (past ++ []) _
    rw [List.append_nil]
    intro k t hle
    rw [now_step_decide] at hle
    exact (liveAt_step_decide device asked hle k.text).trans (h k t hle)
  | install asked device =>
    rcases s.install_cases asked device with ⟨hnone, hsame⟩ | ⟨c, own, -, -, -, hpermit, hstored⟩
    · rw [hnone, hsame, Option.toList_none, List.append_nil]
      exact h
    · rw [hpermit, hstored]
      exact h.putFor own _ _

/-- The cache after any events records the permits that they gave, on top of those before. -/
theorem Mirrors.run (h : Mirrors past s) (es : List TrafficEvent) :
    Mirrors (past ++ s.permitsIn es) (s.run es) := by
  induction es generalizing past s with
  | nil =>
    rw [permitsIn, List.append_nil]
    exact h
  | cons e rest ih =>
    rw [permitsIn, ← List.append_assoc]
    exact ih (h.step e)

/-! ## Told once and for all -/

/-- Nothing has been told to a trip: it has not begun or its direction is open. -/
def Unasked (s : Traffic) (trip : Nat) : Prop :=
  ∀ c, s.trips[trip]? = some c → c.direction = .unknown

/-- The direction of a trip is decided. -/
def Settled (s : Traffic) (trip : Nat) (isForward : Bool) : Prop :=
  ∃ c, s.trips[trip]? = some c ∧ c.direction ≠ .unknown ∧ c.isForward = isForward

/-- As long as a trip is told nothing, its direction stays open. -/
theorem Unasked.step (h : s.Unasked trip) (hanswer : s.answer? trip e = none) :
    (s.step e).Unasked trip := by
  intro c hc
  cases hold : s.trips[trip]? with
  | none => exact trips_step_of_none hold e hc
  | some old =>
    rw [trips_step_of_some hold e] at hc
    cases hc
    have hunknown : old.direction = .unknown := h old hold
    cases e with
    | change changed change =>
      show (if changed = trip then old.change change else old).direction = .unknown
      split
      · rw [Context.direction_change]
        exact hunknown
      · exact hunknown
    | decide asked device =>
      -- it would have been told
      have hasked : asked ≠ trip := by
        rintro rfl
        rw [answer?_decide device hold] at hanswer
        contradiction
      show (if asked = trip then _ else old).direction = .unknown
      rw [if_neg hasked]
      exact hunknown
    | _ => exact hunknown

/-- Through a run in which it is told nothing, a trip stays undecided. -/
theorem Unasked.run {es : List TrafficEvent} (h : s.Unasked trip)
    (hanswers : s.answersIn trip es = []) : (s.run es).Unasked trip := by
  induction es generalizing s with
  | nil => exact h
  | cons e rest ih =>
    rw [answersIn, List.append_eq_nil_iff, Option.toList_eq_nil_iff] at hanswers
    exact ih (h.step hanswers.1) hanswers.2

/-- A direction that is decided stays, and so does what the trip is told. -/
theorem Settled.step {isForward : Bool} (h : s.Settled trip isForward) (e : TrafficEvent) :
    (s.step e).Settled trip isForward ∧ ∀ told ∈ s.answer? trip e, told = isForward := by
  obtain ⟨c, hc, hdecided, rfl⟩ := h
  have hstep : (s.step e).trips[trip]? = some (s.after trip c e) := trips_step_of_some hc e
  have hsame : (s.after trip c e).direction = c.direction := by
    cases e with
    | change changed change =>
      show (if changed = trip then c.change change else c).direction = c.direction
      split
      · exact Context.direction_change c change
      · rfl
    | decide asked device =>
      show (if asked = trip then (c.decideDirection device s.cache s.now).1 else c).direction = _
      rw [Context.decideDirection_of_ne hdecided, ite_self]
    | _ => rfl
  refine ⟨⟨s.after trip c e, hstep, ?_, ?_⟩, ?_⟩
  · rw [hsame]
    exact hdecided
  · unfold Context.isForward
    rw [hsame]
  · intro told htold
    cases e with
    | decide asked device =>
      by_cases hasked : asked = trip
      · subst hasked
        rw [answer?_decide device hc, Context.decideDirection_of_ne hdecided] at htold
        exact (Option.some.inj htold).symm
      · rw [answer?, if_neg hasked] at htold
        contradiction
    | _ => contradiction

/-- So in a whole run it is told the same every time. -/
theorem Settled.answersIn {isForward : Bool} (h : s.Settled trip isForward)
    (es : List TrafficEvent) : ∀ told ∈ s.answersIn trip es, told = isForward := by
  induction es generalizing s with
  | nil =>
    intro told htold
    contradiction
  | cons e rest ih =>
    intro told htold
    rw [Traffic.answersIn, List.mem_append, Option.mem_toList] at htold
    rcases htold with hfirst | hlater
    · exact (h.step e).2 told hfirst
    · exact ih (h.step e).1 told hlater

/-! ## What the first question is told -/

/-- Along any run, the first answer to a trip is that it is a return packet exactly if it belongs to a
connection whose opposite direction has been let through, the latest time long enough. Whatever happens
then, every later answer is the same, whichever device asks. Connections never share a name. -/
theorem direction_follows_permits (expiration : Time) (es : List TrafficEvent) {c : Context}
    (device : Uuid) (hc : ((start expiration).run es).trips[trip]? = some c)
    (hfirst : (start expiration).answersIn trip es = []) :
    (∃ isForward,
        ((start expiration).run es).answer? trip (.decide trip device) = some isForward ∧
        (isForward = false ↔ ∃ k : ConnectionKey, k.Describes c.current ∧ k.device = device ∧
          OpenAt ((start expiration).permitsIn es) k.reversed ((start expiration).run es).now) ∧
        ∀ later, ∀ told ∈
          (((start expiration).run es).step (.decide trip device)).answersIn trip later,
            told = isForward) ∧
      ∀ k other : ConnectionKey, k.text = other.text → k = other := by
  -- the cache is all that a trip asks, and it mirrors the permits so far
  have hmirrors : Mirrors ([] ++ (start expiration).permitsIn es) ((start expiration).run es) :=
    (mirrors_start expiration).run es
  have hunasked : (start expiration).Unasked trip := fun _ hnone => nomatch hnone
  have hunknown : c.direction = .unknown := hunasked.run hfirst c hc
  rw [List.nil_append] at hmirrors
  -- how the run came here no longer matters
  generalize (start expiration).permitsIn es = past at hmirrors ⊢
  generalize (start expiration).run es = s at hc hmirrors ⊢
  have hdecided := c.direction_decideDirection_ne device s.cache s.now
  refine ⟨⟨(c.decideDirection device s.cache s.now).1.isForward, answer?_decide device hc, ?_, ?_⟩,
    fun _ _ => text_injective⟩
  · rw [Context.isForward_eq_false_iff hdecided, Context.decideDirection_of_unknown hunknown]
    show (c.lookUp device s.cache s.now).1 = .reply ↔ _
    rw [Context.direction_lookUp_eq_reply]
    constructor
    · rintro ⟨k, htracked, hlive⟩
      obtain ⟨hdescribes, hdevice⟩ := ofMatch?_eq_some_iff.mp htracked
      exact ⟨k, hdescribes, hdevice, (hmirrors k s.now (Nat.le_refl _)).mp hlive⟩
    · rintro ⟨k, hdescribes, hdevice, hopen⟩
      exact ⟨k, ofMatch?_eq_some_iff.mpr ⟨hdescribes, hdevice⟩,
        (hmirrors k s.now (Nat.le_refl _)).mpr hopen⟩
  · intro later
    -- from the first answer on the trip is settled
    have hsettled : (s.step (.decide trip device)).Settled trip
        (c.decideDirection device s.cache s.now).1.isForward := by
      refine ⟨_, trips_step_of_some hc _, ?_, ?_⟩
      · rw [after, if_pos rfl]
        exact hdecided
      · rw [after, if_pos rfl]
    exact hsettled.answersIn later

/-- A TCP packet between two known ends. -/
def tcpBetween (source : Ipv4Addr) (sourcePort : UInt16) (destination : Ipv4Addr)
    (destinationPort : UInt16) : WildcardMatch :=
  WildcardMatch.empty
    |>.put .etherType EtherType.ipv4
    |>.put .networkProtocol IpProtocol.tcp
    |>.put .networkSource source
    |>.put .transportSource sourcePort
    |>.put .networkDestination destination
    |>.put .transportDestination destinationPort

/-- A client whose packet is let return by a device, and the packet of the server, five seconds later. -/
def requestAndReply (device : Uuid) : List TrafficEvent :=
  [.start (tcpBetween ⟨10, 0, 0, 1⟩ 5555 ⟨10, 0, 0, 2⟩ 80) ⟨1, 1⟩ {}, .decide 0 device,
    .install 0 device, .pass (Time.ofSeconds 5),
    .start (tcpBetween ⟨10, 0, 0, 2⟩ 80 ⟨10, 0, 0, 1⟩ 5555) ⟨1, 2⟩ {}]

theorem direction_follows_permits_requestAndReply :
    ((start 0).run (requestAndReply ⟨0, 7⟩)).answer? 1 (.decide 1 ⟨0, 7⟩) = some false ∧
      ∀ later, ∀ told ∈ (((start 0).run (requestAndReply ⟨0, 7⟩)).step
        (.decide 1 ⟨0, 7⟩)).answersIn 1 later, told = false := by
  have hreply : ((start 0).run (requestAndReply ⟨0, 7⟩)).trips[1]? =
      some (Context.start (tcpBetween ⟨10, 0, 0, 2⟩ 80 ⟨10, 0, 0, 1⟩ 5555) ⟨1, 2⟩ {}) := rfl
  obtain ⟨⟨isForward, hanswer, htold, hlater⟩, -⟩ :=
    direction_follows_permits 0 (requestAndReply ⟨0, 7⟩) ⟨0, 7⟩ hreply rfl
  have hreturn : isForward = false := by
    refine htold.mpr ⟨⟨⟨10, 0, 0, 2⟩, 80, ⟨10, 0, 0, 1⟩, 5555, IpProtocol.tcp, ⟨0, 7⟩⟩, ?_, rfl,
      ⟨⟨⟨10, 0, 0, 1⟩, 5555, ⟨10, 0, 0, 2⟩, 80, IpProtocol.tcp, ⟨0, 7⟩⟩, 0, Time.ofSeconds 60⟩, rfl,
      ?_⟩
    · exact ⟨rfl, rfl, Or.inl rfl, rfl, rfl, rfl, rfl⟩
    · decide
  rw [hreturn] at hanswer hlater
  exact ⟨hanswer, hlater⟩

end Traffic

end Vswitch
