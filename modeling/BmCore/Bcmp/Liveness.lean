import BmCore.Bcmp.NeighborTable

/-!
# Leases of neighbors

A heartbeat tells for how many seconds its sender is to be considered alive, with 0 for an unlimited
time. The check of a neighbor scales the lease to two periods in milliseconds with 32 bits, and
takes what remains of them as a signed number. A tick is a millisecond.
-/
namespace BmCore.Bcmp
open Library Neighborhood

/-- The last heartbeat of a neighbor that is online carried the lease and came at the tick. -/
structure Neighbor.HeardAt (lease reception : UInt32) (n : Neighbor) : Prop where
  online : n.online = true
  lease : n.heartbeatPeriodS = lease
  reception : n.lastHeartbeatTicks = reception

/-- The neighbor is due to go offline: two periods of a limited lease have passed. -/
def LeaseOver (lease : UInt32) (elapsed : Nat) : Prop :=
  lease ≠ 0 ∧ 2 * (1000 * lease.toNat) ≤ elapsed

/-- Whenever a neighbor with the lease is checked, less than 2^31 ticks after its heartbeat, it goes
offline if and only if it is due. -/
def KeepsLease (lease : UInt32) : Prop :=
  ∀ (s : Neighborhood) (a : Nat) (cell : BcmpNeighbor) (reception : UInt32) (elapsed : Nat),
    s.heap.lookup a = some cell → cell.neighbor.HeardAt lease reception → elapsed < 2 ^ 31 →
    ∃ s' cell', s.neighborCheck id (reception + .ofNat elapsed) a = some s' ∧
      s'.heap.lookup a = some cell' ∧
      (cell'.neighbor.online = false ↔ LeaseOver lease elapsed)

/-! ## What remains -/

/-- Nothing remains when the difference is 0 or, as a signed number, negative. -/
theorem timeRemaining_eq_zero (start timeout elapsed : UInt32) :
    timeRemaining start (start + elapsed) timeout = 0 ↔
      timeout - elapsed = 0 ∨ 2 ^ 31 ≤ (timeout - elapsed).toNat := by
  have hdiff : start + timeout - (start + elapsed) = timeout - elapsed := by
    apply UInt32.toBitVec_inj.mp
    simp only [UInt32.toBitVec_sub, UInt32.toBitVec_add]
    bv_omega
  have hneg : (timeout - elapsed).toInt32 < 0 ↔ 2 ^ 31 ≤ (timeout - elapsed).toNat := by
    have hint : (timeout - elapsed).toInt32.toInt < 0 ↔ _ := BitVec.toInt_neg_iff
    rw [Int32.lt_iff_toInt_lt]
    refine hint.trans ?_
    change 2 ^ 32 ≤ 2 * (timeout - elapsed).toNat ↔ _
    omega
  simp only [timeRemaining, hdiff]
  split
  · rename_i hlt
    simpa using .inr (hneg.mp hlt)
  · rename_i hlt
    rw [UInt32.toUInt32_toInt32]
    exact ⟨.inl, fun h => h.resolve_right fun hle => hlt (hneg.mpr hle)⟩

/-- What a check finds to remain of a lease: a time below 2^32, which counts as none from 2^31
on. -/
def leaseRemains (lease : UInt32) (elapsed : Nat) : Nat :=
  (2000 * lease.toNat + (2 ^ 32 - elapsed)) % 2 ^ 32

theorem leaseRemains_eq (lease : UInt32) {elapsed : Nat} (h : elapsed < 2 ^ 31) :
    (2 * lease * 1000 - UInt32.ofNat elapsed).toNat = leaseRemains lease elapsed := by
  have helapsed : (UInt32.ofNat elapsed).toNat = elapsed :=
    UInt32.toNat_ofNat_of_lt' (Nat.lt_trans h (by decide))
  rw [UInt32.toNat_sub, UInt32.toNat_mul, UInt32.toNat_mul, helapsed, leaseRemains]
  change (2 ^ 32 - elapsed + 2 % 2 ^ 32 * lease.toNat % 2 ^ 32 * 1000 % 2 ^ 32) % 2 ^ 32 = _
  omega

section Check
variable {n : Neighbor} {lease reception : UInt32} {elapsed : Nat}

/-- The check of a neighbor that has been heard. -/
theorem Neighbor.HeardAt.expired_iff (hn : n.HeardAt lease reception) (h : elapsed < 2 ^ 31) :
    expired id (reception + .ofNat elapsed) n = true ↔
      leaseRemains lease elapsed = 0 ∨ 2 ^ 31 ≤ leaseRemains lease elapsed := by
  rw [expired, hn.lease, hn.reception, beq_iff_eq, id, timeRemaining_eq_zero,
    ← UInt32.toNat_inj, leaseRemains_eq lease h]
  rfl

theorem Neighbor.HeardAt.checked_iff (hn : n.HeardAt lease reception) (h : elapsed < 2 ^ 31) :
    (checked id (reception + .ofNat elapsed) n).online = false ↔
      leaseRemains lease elapsed = 0 ∨ 2 ^ 31 ≤ leaseRemains lease elapsed := by
  rw [← hn.expired_iff h, checked, hn.online, Bool.true_and]
  split
  · simp [*]
  · simp [*, hn.online]

/-- A heartbeat stays heard when an info reply comes in. -/
theorem Neighbor.HeardAt.populate (hn : n.HeardAt lease reception) (reply : BcmpDeviceInfoReply)
    (ok : Bool × Bool) : (populateNeighborInfo reply ok n).HeardAt lease reception :=
  ⟨hn.online, hn.lease, hn.reception⟩

end Check

/-- `neighbor_check` leaves the neighbor as `checked` says. -/
theorem neighborCheck_lookup {s : Neighborhood} {a : Nat} {cell : BcmpNeighbor}
    (h : s.heap.lookup a = some cell) (msToTicks : UInt32 → UInt32) (ticks : UInt32) :
    ∃ s', s.neighborCheck msToTicks ticks a = some s' ∧
      s'.heap.lookup a = some { cell with neighbor := checked msToTicks ticks cell.neighbor } := by
  by_cases hout : cell.neighbor.online && expired msToTicks ticks cell.neighbor
  · let s₁ := s.bcmpNeighborInvokeDiscoveryCb false cell.neighbor
    have hcell : s₁.heap.lookup a = some cell := by
      simp only [s₁, bcmpNeighborInvokeDiscoveryCb]
      split <;> exact h
    let offline : Neighbor := { cell.neighbor with online := false }
    refine ⟨{ s₁ with heap := s₁.heap.insert a { cell with neighbor := offline } }, ?_, ?_⟩
    · simp only [neighborCheck, h, Option.bind_eq_bind, Option.bind_some, if_pos hout]
      change s₁.modify a _ = _
      simp only [Neighborhood.modify, hcell, Option.bind_eq_bind, Option.bind_some, offline]
    · simp only [checked, if_pos hout, AList.lookup_insert, offline]
  · refine ⟨s, ?_, ?_⟩
    · simp only [neighborCheck, h, Option.bind_eq_bind, Option.bind_some, if_neg hout]
    · rw [checked, if_neg hout, h]

/-! ## The leases that are kept -/

/-- A lease is kept when it seems used up exactly if it is over. -/
theorem keepsLease_iff_remains (lease : UInt32) : KeepsLease lease ↔
    ∀ elapsed < 2 ^ 31, (leaseRemains lease elapsed = 0 ∨ 2 ^ 31 ≤ leaseRemains lease elapsed) ↔
      LeaseOver lease elapsed := by
  constructor
  · intro h elapsed helapsed
    let n : Neighbor := { nodeId := 1, port := 1, heartbeatPeriodS := lease, online := true }
    have hn : n.HeardAt lease 0 := ⟨rfl, rfl, rfl⟩
    let s : Neighborhood := { Neighborhood.init false with heap := AList.singleton 0 ⟨none, n⟩ }
    have hcell : s.heap.lookup 0 = some ⟨none, n⟩ := rfl
    obtain ⟨s', cell', hcheck, hcell', hiff⟩ := h s 0 ⟨none, n⟩ 0 elapsed hcell hn helapsed
    obtain ⟨s₁, hcheck₁, hcell₁⟩ := neighborCheck_lookup hcell id (0 + .ofNat elapsed)
    obtain rfl := Option.some.inj (hcheck.symm.trans hcheck₁)
    obtain rfl := Option.some.inj (hcell'.symm.trans hcell₁)
    exact (hn.checked_iff helapsed).symm.trans hiff
  · intro h s a cell reception elapsed hcell hn helapsed
    obtain ⟨s', hcheck, hcell'⟩ := neighborCheck_lookup hcell id (reception + .ofNat elapsed)
    exact ⟨s', _, hcheck, hcell', (hn.checked_iff helapsed).trans (h elapsed helapsed)⟩

/-- A lease is kept exactly if it is limited and two periods of it are less than 2^31
milliseconds. -/
theorem keepsLease_iff (lease : UInt32) :
    KeepsLease lease ↔ lease ≠ 0 ∧ 2000 * lease.toNat < 2 ^ 31 := by
  rw [keepsLease_iff_remains]
  have hzero : lease ≠ 0 ↔ 0 < lease.toNat := by
    rw [Nat.pos_iff_ne_zero, ne_eq, ne_eq, ← UInt32.toNat_inj]
    rfl
  simp only [LeaseOver, hzero, leaseRemains]
  constructor
  · intro h
    have hstart := h 0 (by decide)
    have hlater := h (2000 * lease.toNat % 2 ^ 31) (Nat.mod_lt _ (by decide))
    omega
  · rintro ⟨hpos, hlimit⟩ elapsed helapsed
    omega

/-- A neighbor with an unlimited lease goes offline at once, and one whose lease is two million
seconds. -/
theorem not_keepsLease : ¬ KeepsLease 0 ∧ ¬ KeepsLease 2000000 := by
  constructor <;> intro h
  · have hstart := (keepsLease_iff_remains 0).mp h 0 (by decide)
    simp [leaseRemains, LeaseOver] at hstart
  · have hstart := (keepsLease_iff_remains 2000000).mp h 0 (by decide)
    simp [leaseRemains, LeaseOver] at hstart

end BmCore.Bcmp
