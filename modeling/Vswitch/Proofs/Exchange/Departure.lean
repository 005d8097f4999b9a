import Mathlib
import Vswitch.Proofs.Exchange.Loss
import Vswitch.Proofs.Exchange.WireLog

/-!
# Datagrams of requests that were given up

A sweep gives requests up without a look at what waits for the transport. So the datagram of a request
that was given up still leaves, if it waited at that sweep, and it leaves in its turn. One that had left
by then, or that the transport had refused, does not come back.

* `Exchange.egress_sweep`: a sweep leaves the queue alone;
* `Exchange.Runs.lt_of_mem_queuedIn`: later requests have later numbers;
* `Exchange.Runs.nodup_numbers`: a number is handed over once;
* `Exchange.given_up_leaves_from_queue`: what leaves after a sweep;
* `Exchange.not_forall_given_up_unsent`: that it may be a datagram that nobody waits for.
-/

namespace Vswitch

namespace Exchange

/-! ## What is given up -/

section GivenUp

variable {x : Exchange} {s : UInt32}

/-- A sweep works on the table alone. -/
theorem egress_sweep (hx : Tidy x) (now : Time) : (x.step (.sweep now)).1.egress = x.egress := by
  cases hrunning : x.isRunning with
  | true =>
    rw [step, if_pos hrunning, (onTable_sweep now hx.nodup).frame]
  | false =>
    rw [step, if_neg (by simp [hrunning])]

/-- The number of a request that is given up was given out before. -/
theorem toNat_le_of_expires {n : Nat} (hx : Ordered x n) {e : ExchangeEvent}
    (hs : s ∈ x.expires e) : s.toNat ≤ n := by
  cases e with
  | sweep now =>
    rw [expires] at hs
    split_ifs at hs with hrunning
    · have hsub : (PendingTable.due x.pending now).Sublist (PendingTable.keys x.pending) :=
        List.filter_sublist.map Prod.fst
      exact (hx.bound s (hsub.subset hs)).2
    · cases hs
  | _ => simp [expires] at hs

end GivenUp

/-! ## Numbers in the queue -/

section Numbers

variable {x₀ x : Exchange} {n : Nat} {e : ExchangeEvent} {trace : List Moment} {port : UInt32}
  {options : ExchangeOptions} {q : UInt32 × Bytes}

/-- What an event queues has a number not given out before. -/
theorem lt_of_mem_queues (hx : Ordered x n) (hn : n + (x.numbers e).toNat < UInt32.size)
    (hq : q ∈ x.queues e) : n < q.1.toNat := by
  rw [hx.queues_eq hn] at hq
  obtain ⟨a, ha, rfl⟩ := List.mem_map.mp hq
  have hplace := List.mem_zipIdx (List.mem_of_mem_filter ha)
  rw [length_admits] at hplace
  have hword : (queuedAs x.port a).1.toNat = a.2 := UInt32.toNat_ofNat_of_lt' (by omega)
  omega

/-- What is queued by a run has later numbers than all that were given out before it. -/
theorem Runs.lt_of_mem_queuedIn (h₀ : Ordered x₀ n) (h : Runs x₀ trace x)
    (hfew : n + numberedIn trace < UInt32.size) (hq : q ∈ queuedIn trace) : n < q.1.toNat := by
  induction h with
  | init => simp [queuedIn] at hq
  | @next trace x t e h hlisted ih =>
    rw [numberedIn_concat, ← Nat.add_assoc] at hfew
    rw [queuedIn_concat, List.mem_append] at hq
    rcases hq with hq | hq
    · exact ih (by omega) hq
    · have hordered := (h₀.runs h (by omega)).relist hlisted
      have hlt := lt_of_mem_queues (e := e) hordered hfew hq
      omega

/-- As long as the numbers do not run out, no two datagrams that leave or wait have the same one. -/
theorem Runs.nodup_numbers (h : Runs (start port options) trace x)
    (hfew : numberedIn trace < UInt32.size) :
    ((transmissionsIn (outputsOf trace) ++ x.egress).map Prod.fst).Nodup := by
  refine (h.sublist_queuedIn.map Prod.fst).nodup ?_
  rw [h.queuedIn_eq_map hfew, List.map_map]
  have hplaces : ((acceptedIn trace).map Prod.snd).Nodup := by
    refine (List.filter_sublist.map Prod.snd).nodup ?_
    rw [List.zipIdx_map_snd]
    exact List.nodup_range'
  refine List.Nodup.map_on ?_ hplaces.of_map
  intro a ha b hb hsame
  have hbound := (mem_acceptedIn ha).2
  have hbound' := (mem_acceptedIn hb).2
  have hplace : a.2 = b.2 := by
    have hwords : (UInt32.ofNat a.2).toNat = (UInt32.ofNat b.2).toNat := congrArg UInt32.toNat hsame
    rwa [UInt32.toNat_ofNat_of_lt' (by omega), UInt32.toNat_ofNat_of_lt' (by omega)] at hwords
  exact List.inj_on_of_nodup_map hplaces ha hb hplace

end Numbers

/-! ## After a sweep -/

section Sweeps

variable {port : UInt32} {options : ExchangeOptions} {before later : List Moment} {swept : Moment}
  {x : Exchange} {now : Time}

/-- A sweep takes nothing out of the queue. After it, the transport is handed what waited then and what
was queued since, in that order and no datagram twice. As long as the numbers do not run out, this means
that a datagram of a request that the sweep gave up leaves only if it waited at the sweep, and that no
more than one leaves in the whole run. -/
theorem given_up_leaves_from_queue
    (h : Runs (start port options) (before ++ swept :: later) x)
    (hevent : swept.event = .sweep now) :
    (swept.exchange.step swept.event).1.egress = swept.exchange.egress ∧
      (transmissionsIn (outputsOf later) ++ x.egress).Sublist
        (swept.exchange.egress ++ queuedIn later) ∧
      (numberedIn (before ++ swept :: later) < UInt32.size →
        ∀ s ∈ swept.exchange.expires swept.event,
          (∀ q ∈ transmissionsIn (outputsOf later), q.1 = s → q ∈ swept.exchange.egress) ∧
          ((transmissionsIn (outputsOf (before ++ swept :: later))).map Prod.fst).count s ≤ 1) := by
  have hwhole := h
  rw [List.append_cons] at h
  obtain ⟨y, hswept, hlater⟩ := h.split
  obtain ⟨z, t, hbefore, hlisted, hz, rfl⟩ := hswept.of_concat
  have htidy : Tidy swept.exchange := hz ▸ hbefore.tidy.relist hlisted
  have hkept : (swept.exchange.step swept.event).1.egress = swept.exchange.egress := by
    rw [hevent]
    exact egress_sweep htidy now
  have hleaves := hlater.sublist_waiting (htidy.step swept.event)
  rw [hkept] at hleaves
  refine ⟨hkept, hleaves, ?_⟩
  intro hfew s hs
  constructor
  · rintro q hq rfl
    rw [List.append_cons, numberedIn_append, numberedIn_concat] at hfew
    have hordered : Ordered swept.exchange (numberedIn before) :=
      hz ▸ (hbefore.ordered (by omega)).relist hlisted
    rcases List.mem_append.mp (hleaves.subset (List.mem_append_left _ hq)) with hwaited | hqueued
    · exact hwaited
    · -- the number was given out before the sweep, and what is queued later has later ones
      have hgiven := toNat_le_of_expires hordered hs
      have hnew := hlater.lt_of_mem_queuedIn (hordered.step swept.event (by omega)) (by omega) hqueued
      omega
  · have hnodup := hwhole.nodup_numbers hfew
    rw [List.map_append] at hnodup
    exact List.nodup_iff_count_le_one.mp hnodup.of_append_left s

/-- A request is taken, and the transport does not take its datagram. -/
def heldBackRun : List ExchangeEvent :=
  [.submit (.send ((Request.ofCommand 28 1 1).withTimeout (Time.ofSeconds 1)) (.waiting 1)),
    .take 0 (.ok ())]

/-- The sweep at which the deadline of the request has passed. -/
def heldBackSweep : Moment := ⟨(start 7 {}).after heldBackRun, .sweep (Time.ofSeconds 2)⟩

/-- The transport takes the datagram after that. -/
def heldBackSend : Moment :=
  ⟨(heldBackSweep.exchange.step heldBackSweep.event).1, .transmit (Time.ofSeconds 3) (.ok 20)⟩

theorem runs_heldBack :
    Runs (start 7 {}) ((start 7 {}).moments heldBackRun ++ heldBackSweep :: [heldBackSend])
      (heldBackSend.exchange.step heldBackSend.event).1 := by
  have hsweep : Runs (start 7 {}) ((start 7 {}).moments heldBackRun ++ [heldBackSweep])
      heldBackSend.exchange := .next (runs_moments _ heldBackRun) (.refl _)
  rw [List.append_cons]
  exact .next hsweep (.refl _)

/-- The request is answered with its deadline, and its datagram leaves after that, once. -/
theorem given_up_leaves_from_queue_heldBack :
    1 ∈ heldBackSweep.exchange.expires heldBackSweep.event ∧
      (heldBackSweep.exchange.step heldBackSweep.event).2.length = 1 ∧
      (heldBackSweep.exchange.step heldBackSweep.event).1.egress = heldBackSweep.exchange.egress ∧
      (transmissionsIn (outputsOf [heldBackSend])).map Prod.fst = [1] ∧
      (∀ q ∈ transmissionsIn (outputsOf [heldBackSend]), q.1 = 1 →
        q ∈ heldBackSweep.exchange.egress) ∧
      ((transmissionsIn (outputsOf ((start 7 {}).moments heldBackRun ++
        heldBackSweep :: [heldBackSend]))).map Prod.fst).count 1 ≤ 1 := by
  have hgivenUp : 1 ∈ heldBackSweep.exchange.expires heldBackSweep.event := by decide +kernel
  have hfew : numberedIn ((start 7 {}).moments heldBackRun ++ heldBackSweep :: [heldBackSend]) <
      UInt32.size := by decide +kernel
  obtain ⟨hkept, -, hleaves⟩ := given_up_leaves_from_queue runs_heldBack rfl
  obtain ⟨hwaited, honce⟩ := hleaves hfew 1 hgivenUp
  exact ⟨hgivenUp, by decide +kernel, hkept, by decide +kernel, hwaited, honce⟩

/-- The datagram of a request that was given up may leave afterwards. -/
theorem not_forall_given_up_unsent :
    ¬ ∀ (port : UInt32) (options : ExchangeOptions) (before later : List Moment) (swept : Moment)
        (x : Exchange) (s : UInt32),
      Runs (start port options) (before ++ swept :: later) x →
      numberedIn (before ++ swept :: later) < UInt32.size →
      s ∈ swept.exchange.expires swept.event →
        s ∉ (transmissionsIn (outputsOf later)).map Prod.fst := by
  intro hall
  have hunsent := hall 7 {} _ [heldBackSend] heldBackSweep _ 1 runs_heldBack (by decide +kernel)
    (by decide +kernel)
  exact hunsent (by decide +kernel)

end Sweeps

end Exchange

end Vswitch
