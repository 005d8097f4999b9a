import Mathlib
import Vswitch.Proofs.Topology.Cache
import Vswitch.Topology.Traffic

/-!
# Laws of directions

What a context asks of the cache and does to it. A question finds out whether the packet's connection is
live, and changes nothing of what is live; its answer is kept in the context, which nothing but a first
question decides. Letting the return direction through stores one entry or none.

* `Context.direction_lookUp_eq_reply`, `Context.not_liveAt_of_told`: what an answer says of the cache;
* `Context.liveAt_decideDirection`: what is live stays;
* `Context.direction_change`: changes to the trip leave its direction alone.
-/

namespace Vswitch

namespace Context

variable {c : Context} {device : Uuid} {cache : Cache} {now t : Time} {k : ConnectionKey}

/-! ## Looking up -/

/-- A flow without a connection key is forward, and the cache is not asked. -/
theorem lookUp_of_untracked (h : ConnectionKey.ofMatch? c.current device = none) (cache : Cache)
    (now : Time) : c.lookUp device cache now = (.forward, cache) := by
  rw [lookUp, h]

/-- A tracked packet is told by what is live under the name of its connection. -/
theorem lookUp_of_tracked (h : ConnectionKey.ofMatch? c.current device = some k) (cache : Cache)
    (now : Time) : c.lookUp device cache now =
      (if (cache.get now k.text).1.isSome then .reply else .forward,
        (cache.get now k.text).2) := by
  unfold lookUp
  simp only [h]
  rcases cache.get now k.text with ⟨_ | value, rest⟩
  · rfl
  · rfl

/-- A look-up decides. -/
theorem direction_lookUp_ne (c : Context) (device : Uuid) (cache : Cache) (now : Time) :
    (c.lookUp device cache now).1 ≠ .unknown := by
  cases htracked : ConnectionKey.ofMatch? c.current device with
  | none =>
    rw [lookUp_of_untracked htracked]
    exact Direction.noConfusion
  | some k =>
    rw [lookUp_of_tracked htracked]
    show (if (cache.get now k.text).1.isSome then Direction.reply else .forward) ≠ .unknown
    split <;> exact Direction.noConfusion

/-- A look-up tells a packet to return exactly if its connection is live in the cache. -/
theorem direction_lookUp_eq_reply : (c.lookUp device cache now).1 = .reply ↔
    ∃ k, ConnectionKey.ofMatch? c.current device = some k ∧ cache.LiveAt now k.text := by
  cases htracked : ConnectionKey.ofMatch? c.current device with
  | none =>
    rw [lookUp_of_untracked htracked]
    simp
  | some k =>
    rw [lookUp_of_tracked htracked]
    have hlive := Cache.get_fst_isSome cache now k.text
    show (if (cache.get now k.text).1.isSome then Direction.reply else .forward) = .reply ↔ _
    by_cases hsome : (cache.get now k.text).1.isSome = true
    · rw [if_pos hsome]
      exact ⟨fun _ => ⟨k, rfl, hlive.mp hsome⟩, fun _ => rfl⟩
    · rw [if_neg hsome]
      constructor
      · intro h
        contradiction
      · rintro ⟨found, hfound, hthere⟩
        cases hfound
        exact absurd (hlive.mpr hthere) hsome

/-- From its own time on, a look-up leaves alone what is live. -/
theorem liveAt_lookUp (hle : now ≤ t) (key : String) :
    (c.lookUp device cache now).2.LiveAt t key ↔ cache.LiveAt t key := by
  cases htracked : ConnectionKey.ofMatch? c.current device with
  | none => rw [lookUp_of_untracked htracked]
  | some k =>
    rw [lookUp_of_tracked htracked]
    exact Cache.liveAt_get cache k.text hle key

/-! ## Deciding -/

/-- An open direction is decided by the look-up. -/
theorem decideDirection_of_unknown (h : c.direction = .unknown) :
    c.decideDirection device cache now =
      ({ c with direction := (c.lookUp device cache now).1 }, (c.lookUp device cache now).2) := by
  rw [decideDirection, if_pos h]

/-- A direction that is decided stays. -/
theorem decideDirection_of_ne (h : c.direction ≠ .unknown) :
    c.decideDirection device cache now = (c, cache) := by
  rw [decideDirection, if_neg h]

/-- Deciding keeps alive what is alive, and revives nothing. -/
theorem liveAt_decideDirection (hle : now ≤ t) (key : String) :
    (c.decideDirection device cache now).2.LiveAt t key ↔ cache.LiveAt t key := by
  by_cases hunknown : c.direction = .unknown
  · rw [decideDirection_of_unknown hunknown]
    exact liveAt_lookUp hle key
  · rw [decideDirection_of_ne hunknown]

/-- After deciding the direction is known. -/
theorem direction_decideDirection_ne (c : Context) (device : Uuid) (cache : Cache) (now : Time) :
    (c.decideDirection device cache now).1.direction ≠ .unknown := by
  by_cases hunknown : c.direction = .unknown
  · rw [decideDirection_of_unknown hunknown]
    exact direction_lookUp_ne c device cache now
  · rw [decideDirection_of_ne hunknown]
    exact hunknown

/-- A tracked packet that has just been told to go forward is not live in the cache. -/
theorem not_liveAt_of_told (hunknown : c.direction = .unknown)
    (htold : (c.decideDirection device cache now).1.direction ≠ .reply)
    (htracked : ConnectionKey.ofMatch? (c.decideDirection device cache now).1.current device =
      some k) : ¬ (c.decideDirection device cache now).2.LiveAt now k.text := by
  rw [liveAt_decideDirection (Nat.le_refl now)]
  rw [decideDirection_of_unknown hunknown] at htold htracked
  intro hlive
  exact htold (direction_lookUp_eq_reply.mpr ⟨k, htracked, hlive⟩)

/-- A decided direction that is not forward is a reply. -/
theorem isForward_eq_false_iff (h : c.direction ≠ .unknown) :
    c.isForward = false ↔ c.direction = .reply := by
  unfold isForward
  cases hdirection : c.direction with
  | unknown => contradiction
  | forward =>
    constructor
    · intro hfalse
      contradiction
    · intro hreply
      contradiction
  | reply => exact iff_of_true rfl rfl

/-! ## Letting the return direction through -/

/-- A reply installs nothing. -/
theorem install_of_reply (h : c.direction = .reply) : c.install device cache now = cache := by
  rw [install, if_pos h]

theorem install_of_untracked (h : ConnectionKey.ofMatch? c.current device = none) :
    c.install device cache now = cache := by
  unfold install
  rw [h]
  exact ite_self cache

/-- A forward flow installs the key of its replies, for the time the options say. -/
theorem install_of_tracked (hdirection : c.direction ≠ .reply)
    (h : ConnectionKey.ofMatch? c.current device = some k) :
    c.install device cache now =
      cache.putFor now k.reversed.text connectionMark c.options.conntrackTtl := by
  rw [install, if_neg hdirection, h]

/-! ## All other changes -/

/-- Entering the next device keeps the direction. -/
theorem direction_enter {entered : Context} (h : c.enter device = .ok entered) :
    entered.direction = c.direction := by
  unfold enter at h
  split at h
  · cases h
    rfl
  · contradiction

/-- Only a look-up decides a direction. -/
theorem direction_change (c : Context) (change : TripChange) :
    (c.change change).direction = c.direction := by
  cases change with
  | enter device =>
    cases hentered : c.enter device with
    | ok entered =>
      rw [Context.change, hentered]
      exact direction_enter hentered
    | error error => rw [Context.change, hentered]
  | _ => rfl

end Context

end Vswitch
