import Mathlib
import Vswitch.Proofs.Exchange.Cause
import Vswitch.Proofs.Exchange.Resolution

/-!
# Back-pressure

The pending table is bounded. A request that is taken while the table is full is turned away, and apart
from the queue of commands, which it has left, the exchange is as if it had never been handed over. No
other request is told that too many are pending.

* `Exchange.length_pending_step`: the table grows by one at most, and only with a request that is given
  a number;
* `Exchange.Bounded`, `Exchange.Bounded.runs`: the invariant of all runs, numbers that come round again
  included;
* `Exchange.step_full`, `Exchange.turned_away_iff`: what is turned away, and what that changes;
* `Exchange.back_pressure_exact`: both, for every run.
-/

namespace Vswitch

namespace PendingTable

/-- An insert adds one entry at most. -/
theorem length_insert_le (t : PendingTable) (s : UInt32) (p : Pending) :
    (insert t s p).length ≤ t.length + 1 := by
  have herase : (erase t s).length ≤ t.length := List.length_filter_le _ t
  rw [insert, List.length_append, List.length_singleton]
  omega

end PendingTable

namespace Exchange

variable {x y : Exchange} {e : ExchangeEvent} {r : Exchange × List ExchangeOutput}
  {responder : Responder}

/-! ## The bound -/

/-- What takes requests away does not lengthen the table. -/
theorem OnTable.length_le (h : OnTable x y) : y.pending.length ≤ x.pending.length := by
  have hlength := h.keys.length_le
  rwa [PendingTable.length_keys, PendingTable.length_keys] at hlength

/-- The table grows by one at most, and only with a request that is given a number. -/
theorem Acts.length_pending (hr : Acts x e r) (hx : Tidy x) :
    r.1.pending.length ≤ x.pending.length + (x.numbers e).toNat := by
  cases hr with
  | quiet hquiet =>
    have hkept := congrArg List.length hquiet.keys
    rw [PendingTable.length_keys, PendingTable.length_keys] at hkept
    omega
  | @registers now joined request owner rest hrunning hcommands =>
    rw [(x.take_send now joined hrunning hcommands).2]
    rcases (x.popped rest).register_cases now request owner with
      ⟨-, heq⟩ | ⟨-, error, -, heq⟩ |
        ⟨(hroom : x.pending.length < x.options.maxPending), datagram, -, heq⟩
    · rw [heq]
      exact Nat.le_add_right _ _
    · rw [heq]
      exact Nat.le_add_right _ _
    · rw [heq, decide_eq_true hroom]
      -- the new number may be pending already, and then the table does not grow
      exact PendingTable.length_insert_le _ _ _
  | @refuses now error seq datagram rest hegress =>
    have hless := (onTable_complete { x with egress := rest } now seq (.error (.io error))).length_le
    exact hless.trans (Nat.le_add_right _ _)
  | @receives now data hrunning =>
    have hless := (onTable_takeDatagram x now data).length_le
    exact hless.trans (Nat.le_add_right _ _)
  | @sweeps now hrunning =>
    have hless := (onTable_sweep now hx.nodup).length_le
    exact hless.trans (Nat.le_add_right _ _)
  | loses hrunning herror => exact Nat.zero_le _
  | transmits | rests | reads | closes => exact Nat.le_add_right _ _

/-- What is given a number has found room. -/
theorem room_of_numbers (h : x.numbers e = true) : x.pending.length < x.options.maxPending := by
  cases e with
  | take now joined =>
    rcases hcommands : x.commands with _ | ⟨⟨request, owner⟩ | _, rest⟩
    · simp [numbers, hcommands] at h
    · simp only [numbers, hcommands, Bool.and_eq_true, decide_eq_true_eq] at h
      exact h.2
    · simp [numbers, hcommands] at h
  | _ => cases h

/-- No more requests are pending than the options allow. -/
def Bounded (x : Exchange) : Prop := x.pending.length ≤ x.options.maxPending

namespace Bounded

/-- The bound does not depend on the order of the table. -/
theorem relist {t : PendingTable} (h : Bounded x) (hlisted : t.Perm x.pending) :
    Bounded (x.relist t) := by
  have hlength : t.length = x.pending.length := hlisted.length_eq
  exact hlength.trans_le h

/-- A step keeps the bound, since what is given a number has found room. -/
theorem step (h : Bounded x) (hx : Tidy x) (e : ExchangeEvent) : Bounded (x.step e).1 := by
  have hgrows := (x.acts e).length_pending hx
  have hoptions := ((x.acts e).settings hx).2.1
  rw [Bounded, hoptions]
  -- the table grows only with an event that has found room
  cases hnumbers : x.numbers e with
  | false =>
    rw [hnumbers, Bool.toNat_false, Nat.add_zero] at hgrows
    exact hgrows.trans h
  | true =>
    have hroom := room_of_numbers hnumbers
    rw [hnumbers, Bool.toNat_true] at hgrows
    omega

/-- And so does a run. -/
theorem runs {x₀ : Exchange} {trace : List Moment} (h₀ : Bounded x₀) (hx : Tidy x₀)
    (h : Runs x₀ trace x) : Bounded x := by
  induction h with
  | init => exact h₀
  | next h hlisted ih => exact (ih.relist hlisted).step ((hx.runs h).relist hlisted) _

end Bounded

/-! ## Requests that are turned away -/

/-- A request is taken just when a running exchange finds it in front of its commands. -/
theorem mem_takes_iff :
    responder ∈ x.takes e ↔ ∃ now joined request rest, e = .take now joined ∧
      x.isRunning = true ∧ x.commands = .send request responder :: rest := by
  constructor
  · intro h
    cases e with
    | take now joined =>
      simp only [takes] at h
      split_ifs at h with hrunning
      · rcases hcommands : x.commands with _ | ⟨⟨request, owner⟩ | ⟨group, ticket⟩, rest⟩
        · simp [hcommands] at h
        · simp only [hcommands, List.head?_cons, Option.bind_some, Command.responder?,
            Option.toList_some, List.mem_singleton] at h
          subst h
          exact ⟨now, joined, request, rest, rfl, hrunning, rfl⟩
        · simp [hcommands, Command.responder?] at h
      · cases h
    | _ => cases h
  · rintro ⟨now, joined, request, rest, rfl, hrunning, hcommands⟩
    simp [takes, hrunning, hcommands, Command.responder?]

/-- A request that finds no room is told so, and changes nothing but the queue that it has left. -/
theorem step_full (htakes : responder ∈ x.takes e) (hfull : x.options.maxPending ≤ x.pending.length) :
    x.step e =
      ({ x with commands := x.commands.tail }, [.answer responder (.error .tooManyRequests)]) := by
  obtain ⟨now, joined, request, rest, rfl, hrunning, hcommands⟩ := mem_takes_iff.mp htakes
  rw [(x.take_send now joined hrunning hcommands).1, register_full (x := x.popped rest) hfull,
    hcommands]
  rfl

/-- Whoever is told that too many requests are pending has handed over a request that found no room. -/
theorem turned_away_iff (hx : Tidy x) (e : ExchangeEvent) (responder : Responder) :
    .answer responder (.error .tooManyRequests) ∈ (x.step e).2 ↔
      responder ∈ x.takes e ∧ x.options.maxPending ≤ x.pending.length := by
  constructor
  · intro h
    -- no message reports this error, so that only a full table is left as its cause
    cases (x.acts e).cause hx.nodup h with
    | full hrunning hcommands hfull =>
      refine ⟨?_, hfull⟩
      exact mem_takes_iff.mpr ⟨_, _, _, _, rfl, hrunning, hcommands⟩
    | reported hreported => cases hreported
  · rintro ⟨htakes, hfull⟩
    rw [step_full htakes hfull]
    exact List.mem_singleton_self _

section Runs

variable {port : UInt32} {options : ExchangeOptions} {trace : List Moment}

/-- In every exchange of a run the bound holds. -/
theorem Runs.bounded (h : Runs (start port options) trace x) : Bounded x :=
  Bounded.runs (Nat.zero_le _) (.start port options) h

/-- No more requests are ever pending than the options allow. At every moment of a run, a caller is told
that too many are pending exactly if its request is taken then and the table is full; nothing else
happens at that moment, and the request leaves no trace. -/
theorem back_pressure_exact (h : Runs (start port options) trace x) :
    x.pending.length ≤ options.maxPending ∧
      ∀ m ∈ trace, ∀ responder,
        (.answer responder (.error .tooManyRequests) ∈ (m.exchange.step m.event).2 ↔
          responder ∈ m.exchange.takes m.event ∧
            m.exchange.pending.length = options.maxPending) ∧
        (.answer responder (.error .tooManyRequests) ∈ (m.exchange.step m.event).2 →
          m.exchange.step m.event =
            ({ m.exchange with commands := m.exchange.commands.tail },
              [.answer responder (.error .tooManyRequests)])) := by
  constructor
  · have hx := h.bounded
    rwa [Bounded, (h.settings_eq (.start port options)).2] at hx
  · intro m hm responder
    obtain ⟨before, later, rfl⟩ := List.append_of_mem hm
    obtain ⟨y, t, hbefore, hlisted, hexchange⟩ := h.at_moment
    have hbounded : Bounded m.exchange := by
      rw [hexchange]
      exact hbefore.bounded.relist hlisted
    have hoptions : m.exchange.options = options := by
      rw [hexchange]
      exact (hbefore.settings_eq (.start port options)).2
    have haway := turned_away_iff (h.tidy_moment hm) m.event responder
    constructor
    · -- a table that is within its bound and not below it is at its bound
      rw [haway, hbounded.ge_iff_eq', hoptions, eq_comm]
    · intro hanswer
      obtain ⟨htakes, hfull⟩ := haway.mp hanswer
      exact step_full htakes hfull

/-- Three requests for two places. The caller of the first has gone away, but its request keeps its
place until a sweep. -/
def threeRequests : List ExchangeEvent :=
  [.submit (.send (.ofCommand 28 1 1) (.waiting 1)), .submit (.send (.ofCommand 28 1 1) (.waiting 2)),
    .submit (.send (.ofCommand 28 1 1) (.callback 3)), .take 0 (.ok ()), .take 0 (.ok ()), .abandon 1]

/-- The third request is taken. -/
def thirdTaken : Moment :=
  ⟨(start 7 { maxPending := 2 }).after threeRequests, .take (Time.ofMillis 1) (.ok ())⟩

theorem back_pressure_exact_thirdTaken :
    Runs (start 7 { maxPending := 2 })
        ((start 7 { maxPending := 2 }).moments threeRequests ++ [thirdTaken])
        (thirdTaken.exchange.step thirdTaken.event).1 ∧
      (thirdTaken.exchange.step thirdTaken.event).1.pending.length ≤ 2 ∧
      .answer (.callback 3) (.error .tooManyRequests) ∈
        (thirdTaken.exchange.step thirdTaken.event).2 ∧
      thirdTaken.exchange.step thirdTaken.event =
        ({ thirdTaken.exchange with commands := thirdTaken.exchange.commands.tail },
          [.answer (.callback 3) (.error .tooManyRequests)]) := by
  have hruns : Runs (start 7 { maxPending := 2 })
      ((start 7 { maxPending := 2 }).moments threeRequests ++ [thirdTaken])
      (thirdTaken.exchange.step thirdTaken.event).1 := by
    have hall := runs_moments (start 7 { maxPending := 2 }) (threeRequests ++ [thirdTaken.event])
    rwa [moments_concat, after_concat] at hall
  have hlast : thirdTaken ∈ (start 7 { maxPending := 2 }).moments threeRequests ++ [thirdTaken] :=
    List.mem_append_right _ List.mem_cons_self
  have hthird := (back_pressure_exact hruns).2 thirdTaken hlast (.callback 3)
  have htakes : Responder.callback 3 ∈ thirdTaken.exchange.takes thirdTaken.event := by decide +kernel
  have hfull : thirdTaken.exchange.pending.length = 2 := by decide +kernel
  have hanswer := hthird.1.mpr ⟨htakes, hfull⟩
  exact ⟨hruns, (back_pressure_exact hruns).1, hanswer, hthird.2 hanswer⟩

end Runs

end Exchange

end Vswitch
