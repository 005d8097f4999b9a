import Mathlib
import Vswitch.Proofs.Topology.Tracking

/-!
# One direction at a time

Packets go through devices one after another: each comes in, asks a device for its direction and lets the
return direction through there, before anything else happens, while any time passes between them. Then
the cache never has a connection in both directions. Whoever is let return has asked and found no entry
of its own; an entry that lapsed stays lapsed, whatever the other side does next.

* `Traffic.OneWay`: no connection is live in both directions, now or later;
* `Traffic.Visit`, `Traffic.visits`: packets that go through devices one after another;
* `Traffic.one_way_of_visits`: no moment of any such traffic has a connection in both directions.
-/

namespace Vswitch

namespace Traffic

open ConnectionKey

variable {s : Traffic}

/-! ## Both directions -/

/-- From now on no connection is live in both directions, unless these are the same. -/
def OneWay (s : Traffic) : Prop :=
  ∀ (k : ConnectionKey) (t : Time), k.reversed ≠ k → s.now ≤ t →
    ¬ (s.cache.LiveAt t k.text ∧ s.cache.LiveAt t k.reversed.text)

/-- Before the first trip nothing is cached in either direction. -/
theorem oneWay_start (expiration : Time) : (start expiration).OneWay := by
  rintro k t - - ⟨hlive, -⟩
  exact Cache.not_liveAt_empty expiration t k.text hlive

/-- Waiting only lets entries run out. -/
theorem OneWay.pass (h : s.OneWay) (wait : Time) : (s.step (.pass wait)).OneWay := by
  intro k t hne hle
  exact h k t hne (Nat.le_trans (Nat.le_add_right s.now wait) hle)

/-- A look-up revives nothing. -/
theorem OneWay.decide (h : s.OneWay) (trip : Nat) (device : Uuid) :
    (s.step (.decide trip device)).OneWay := by
  intro k t hne hle
  rw [now_step_decide] at hle
  rw [liveAt_step_decide device trip hle, liveAt_step_decide device trip hle]
  exact h k t hne hle

/-- A return direction may be let through where the packet's own direction is not live. -/
theorem OneWay.putFor (h : s.OneWay) {own : ConnectionKey} (hown : ¬ s.cache.LiveAt s.now own.text)
    (value : String) (ttl : Time) :
    { s with cache := s.cache.putFor s.now own.reversed.text value ttl }.OneWay := by
  -- the direction of the packet itself is not there, and does not come back
  have hgone : ∀ t, s.now ≤ t → own ≠ own.reversed →
      ¬ (s.cache.putFor s.now own.reversed.text value ttl).LiveAt t own.text := by
    intro t hle hne hlive
    rw [Cache.liveAt_putFor, if_neg (mt text_injective hne)] at hlive
    exact hown (hlive.earlier hle)
  rintro k t hne hle ⟨hforth, hback⟩
  by_cases hk : k = own.reversed
  · have hreversed : k.reversed = own := by rw [hk, reversed_reversed]
    rw [hreversed] at hback hne
    exact hgone t hle (hk ▸ hne) hback
  · by_cases hk' : k = own
    · rw [hk'] at hforth hne
      exact hgone t hle hne.symm hforth
    · -- neither direction is that of the packet
      have hother : k.reversed ≠ own.reversed := by
        intro heq
        exact hk' (congrArg reversed heq)
      rw [Cache.liveAt_putFor, if_neg (mt text_injective hk)] at hforth
      rw [Cache.liveAt_putFor, if_neg (mt text_injective hother)] at hback
      exact h k t hne hle ⟨hforth, hback⟩

/-- A packet that asks and then lets its return direction through keeps to one direction: it was told to
go forward because its own direction was not live. -/
theorem OneWay.decide_install (h : s.OneWay) {trip : Nat} {c : Context} (device : Uuid)
    (hc : s.trips[trip]? = some c) (hunknown : c.direction = .unknown) :
    ((s.step (.decide trip device)).step (.install trip device)).OneWay := by
  have htrip := trips_step_of_some hc (.decide trip device)
  rw [after, if_pos rfl] at htrip
  have hasked : (s.step (.decide trip device)).OneWay := h.decide trip device
  rcases (s.step (.decide trip device)).install_cases trip device with
    ⟨-, hsame⟩ | ⟨c', own, hc', hdirection, htracked, -, hstored⟩
  · rw [hsame]
    exact hasked
  · rw [hstored]
    refine hasked.putFor ?_ _ _
    -- the context that lets through is the one that was just told
    rw [htrip] at hc'
    cases hc'
    rw [now_step_decide, step_decide device hc]
    exact Context.not_liveAt_of_told hunknown hdirection htracked

/-! ## One packet after another -/

/-- A packet that goes through a device, some time after the one before. -/
structure Visit where
  wait : Time
  arrival : WildcardMatch
  ingress : Uuid
  options : ContextOptions
  device : Uuid

/-- All that happens while a packet goes through its device. -/
def Visit.events (v : Visit) (trip : Nat) : List TrafficEvent :=
  [.pass v.wait, .start v.arrival v.ingress v.options, .decide trip v.device,
    .install trip v.device]

/-- All that happens while packets go through devices one after another, the first of them as the given
trip. -/
def visits (trip : Nat) : List Visit → List TrafficEvent
  | [] => []
  | v :: rest => v.events trip ++ visits (trip + 1) rest

/-- A property holds at all moments of a sequence of events, the first and the last included. -/
def Throughout (P : Traffic → Prop) (s : Traffic) (es : List TrafficEvent) : Prop :=
  ∀ past, past <+: es → P (s.run past)

theorem throughout_nil {P : Traffic → Prop} (h : P s) : s.Throughout P [] := by
  intro past hpast
  rw [List.prefix_nil.mp hpast]
  exact h

/-- A property holds throughout if it holds now and throughout what follows the first event. -/
theorem throughout_cons {P : Traffic → Prop} {e : TrafficEvent} {es : List TrafficEvent} (h : P s)
    (hlater : (s.step e).Throughout P es) : s.Throughout P (e :: es) := by
  intro past hpast
  rcases List.prefix_cons_iff.mp hpast with rfl | ⟨rest, rfl, hrest⟩
  · exact h
  · exact hlater rest hrest

/-- Packets that go through devices one after another keep every connection to one direction. -/
theorem OneWay.visits (h : s.OneWay) (vs : List Visit) :
    s.Throughout OneWay (visits s.trips.length vs) := by
  induction vs generalizing s with
  | nil => exact throughout_nil h
  | cons v rest ih =>
    have hwaited : (s.step (.pass v.wait)).OneWay := h.pass v.wait
    generalize hs' : s.step (.pass v.wait) = s' at hwaited
    have hfirst : s.trips.length = s'.trips.length := by rw [← hs']; rfl
    have hstarted : (s'.step (.start v.arrival v.ingress v.options)).OneWay := hwaited
    have htrip : (s'.step (.start v.arrival v.ingress v.options)).trips[s'.trips.length]? =
        some (Context.start v.arrival v.ingress v.options) := List.getElem?_concat_length
    have hinstalled := hstarted.decide_install v.device htrip rfl
    have hasked := hstarted.decide s'.trips.length v.device
    have hnext := ih hinstalled
    simp only [length_trips_step, TrafficEvent.begun, List.length_nil, List.length_singleton,
      Nat.add_zero] at hnext
    show s.Throughout OneWay (.pass v.wait :: .start v.arrival v.ingress v.options ::
      .decide s.trips.length v.device :: .install s.trips.length v.device ::
        Traffic.visits (s.trips.length + 1) rest)
    refine throughout_cons h ?_
    rw [hs', hfirst]
    exact throughout_cons hwaited (throughout_cons hstarted (throughout_cons hasked hnext))

/-- No moment of traffic in which packets go through devices one after another has a connection in both
directions, nor will have it if nothing more happens. -/
theorem one_way_of_visits (expiration : Time) (vs : List Visit) {es : List TrafficEvent}
    (hes : es <+: visits 0 vs) {k : ConnectionKey} (hk : k.reversed ≠ k) {t : Time}
    (ht : ((start expiration).run es).now ≤ t) :
    ¬ (((start expiration).run es).cache.LiveAt t k.text ∧
      ((start expiration).run es).cache.LiveAt t k.reversed.text) :=
  (oneWay_start expiration).visits vs es hes k t hk ht

/-- The packets of a client as a device sees them. -/
def clientSide : ConnectionKey := ⟨⟨10, 0, 0, 1⟩, 5555, ⟨10, 0, 0, 2⟩, 80, IpProtocol.tcp, ⟨0, 7⟩⟩

/-- A client whose entry lapses after five seconds: the server is a return packet at first, then takes
the forward side, and the client is the one that returns. -/
def sidesSwapped : List Visit :=
  [⟨0, tcpBetween ⟨10, 0, 0, 1⟩ 5555 ⟨10, 0, 0, 2⟩ 80, ⟨1, 1⟩,
      { conntrackTtl := Time.ofSeconds 5 }, ⟨0, 7⟩⟩,
    ⟨Time.ofSeconds 1, tcpBetween ⟨10, 0, 0, 2⟩ 80 ⟨10, 0, 0, 1⟩ 5555, ⟨1, 2⟩, {}, ⟨0, 7⟩⟩,
    ⟨Time.ofSeconds 10, tcpBetween ⟨10, 0, 0, 2⟩ 80 ⟨10, 0, 0, 1⟩ 5555, ⟨1, 2⟩, {}, ⟨0, 7⟩⟩,
    ⟨Time.ofSeconds 1, tcpBetween ⟨10, 0, 0, 1⟩ 5555 ⟨10, 0, 0, 2⟩ 80, ⟨1, 1⟩, {}, ⟨0, 7⟩⟩]

theorem one_way_of_visits_sidesSwapped :
    clientSide.reversed ≠ clientSide ∧
      ((start 0).run (visits 0 sidesSwapped)).cache.LiveAt (Time.ofSeconds 12) clientSide.text ∧
      ¬ ((start 0).run (visits 0 sidesSwapped)).cache.LiveAt (Time.ofSeconds 12)
        clientSide.reversed.text := by
  have hne : clientSide.reversed ≠ clientSide := by decide
  -- stored by the server's packet eleven seconds after the start, for a minute
  have hclient : ((start 0).run (visits 0 sidesSwapped)).cache.LiveAt (Time.ofSeconds 12)
      clientSide.text := ⟨⟨Context.connectionMark, Time.ofSeconds 71⟩, rfl, by decide⟩
  refine ⟨hne, hclient, ?_⟩
  intro hserver
  exact one_way_of_visits 0 sidesSwapped List.prefix_rfl hne (Nat.le_refl _) ⟨hclient, hserver⟩

end Traffic

end Vswitch
