import BmCore.Bcmp.NeighborRuns

/-!
# Reboot detection

A heartbeat tells the time since its sender booted; a neighbor whose time goes back has rebooted.
The sender multiplies its milliseconds in 32 bits, so the time it tells starts again from zero every
2^32 microseconds. -/
namespace BmCore.Bcmp

/-- `bcmp_send_heartbeat`, at the tick count `ticks` of the sender. -/
def bcmpSendHeartbeat (ticksToMs : UInt32 → UInt32) (ticks leaseDurationS : UInt32) :
    BcmpHeartbeat :=
  ⟨(ticksToMs ticks * 1000).toUInt64, leaseDurationS⟩

/-- What happens to the table when one of its senders is a node that we follow. -/
inductive SenderEvent where
  | sent (ticks leaseDurationS : UInt32) (port : UInt8) (rxTicks : UInt32) (answer : Option Nat)
  | other (action : NeighborAction)

namespace SenderEvent
variable (ticksToMs : UInt32 → UInt32) (src : UInt64)

def action : SenderEvent → NeighborAction
  | .sent ticks leaseDurationS port rxTicks answer =>
    .heartbeat src port (bcmpSendHeartbeat ticksToMs ticks leaseDurationS) rxTicks answer
  | .other action => action

/-- The tick count of the sender at its heartbeat. -/
def ticks? : SenderEvent → Option UInt32
  | .sent ticks _ _ _ _ => some ticks
  | .other _ => none

/-- The other actions are not heartbeats of the sender. -/
def Foreign : SenderEvent → Prop
  | .sent .. => True
  | .other (.heartbeat node _ _ _ _) => node ≠ 0 ∧ node ≠ src
  | .other _ => True

end SenderEvent

namespace Neighborhood
variable (msToTicks ticksToMs : UInt32 → UInt32) {src : UInt64} {s s' : Neighborhood}
    {l : List Neighbor}

/-- `neighbor_reset` as `bcmp_process_heartbeat` computes it. -/
def computedReset (src : UInt64) (port : UInt8) (heartbeat : BcmpHeartbeat) (answer : Option Nat)
    (s : Neighborhood) : Option Bool := do
  match ← s.bcmpUpdateNeighbor src port answer with
  | (none, _) => some false
  | (some a, s) => do
    let cell ← s.heap.lookup a
    some (neighborReset heartbeat cell.neighbor)

/-- The uptime of the sender in microseconds. -/
def uptimeUs (ticks : UInt32) : Nat := (ticksToMs ticks).toNat * 1000

/-- The uptime has passed a multiple of 2^32 microseconds, and is less far behind it than it was
behind the multiple before. -/
def Wraps (earlier later : UInt32) : Prop :=
  uptimeUs ticksToMs earlier / 2 ^ 32 < uptimeUs ticksToMs later / 2 ^ 32 ∧
    uptimeUs ticksToMs later % 2 ^ 32 < uptimeUs ticksToMs earlier % 2 ^ 32

theorem sent_lt_iff (hmono : ∀ t t', t ≤ t' → ticksToMs t ≤ ticksToMs t') {earlier later : UInt32}
    (h : earlier ≤ later) (lease lease' : UInt32) :
    (bcmpSendHeartbeat ticksToMs later lease).timeSinceBootUs <
      (bcmpSendHeartbeat ticksToMs earlier lease').timeSinceBootUs ↔
      Wraps ticksToMs earlier later := by
  have hle : (ticksToMs earlier).toNat ≤ (ticksToMs later).toNat :=
    UInt32.le_iff_toNat_le.mp (hmono _ _ h)
  have hsent : ∀ ticks lease, (bcmpSendHeartbeat ticksToMs ticks lease).timeSinceBootUs.toNat =
      uptimeUs ticksToMs ticks % 2 ^ 32 := by
    intro ticks lease
    simp [bcmpSendHeartbeat, uptimeUs]
  rw [UInt64.lt_iff_toNat_lt, hsent, hsent, Wraps]
  unfold uptimeUs
  omega

/-! ## The computed reset -/

/-- A new neighbor has no time to fall behind. -/
theorem Stands.computedReset (h : s.Stands l) (ht : Table l) (src : UInt64) (port : UInt8)
    (heartbeat : BcmpHeartbeat) (answer : Option Nat) :
    s.computedReset src port heartbeat answer =
      some ((l.find? (·.nodeId = src)).any (neighborReset heartbeat ·)) := by
  obtain ⟨es, hes, rfl⟩ := h
  by_cases hsrc : src ∈ (es.map Prod.snd).map (·.nodeId)
  · obtain ⟨n, hn, rfl⟩ := List.mem_map.mp hsrc
    obtain ⟨e, he, rfl⟩ := List.mem_map.mp hn
    obtain ⟨pre, post, rfl⟩ := List.append_of_mem he
    have hfind := hes.find_mem ht.toIdentified
    rw [find_known hn ht.nodup]
    simp [Neighborhood.computedReset, bcmpUpdateNeighbor, hfind, hes.cell]
  · have hsrc' := hsrc
    rw [List.map_map] at hsrc'
    rw [find_new hsrc]
    cases hmalloc : s.malloc answer with
    | none =>
      simp [Neighborhood.computedReset, bcmpUpdateNeighbor, hes.find_absent hsrc', bcmpAddNeighbor,
        hmalloc]
    | some new =>
      have habsent : ∀ f ∈ es, f.2.nodeId ≠ src := by
        rintro f hf rfl
        exact hsrc' (List.mem_map.mpr ⟨f, hf, rfl⟩)
      obtain ⟨s₁, hadd, hlinked, hcb, -⟩ := hes.add ht.toIdentified ht.ports port hmalloc habsent
      have hcell := hlinked.cell
      simp only at hcell
      cases hd : s₁.discoveryCb <;>
        simp [Neighborhood.computedReset, bcmpUpdateNeighbor, hes.find_absent hsrc', hadd, hcell,
          bcmpNeighborInvokeDiscoveryCb, hd, neighborReset]

/-! ## Runs -/

/-- The actions of the others leave the sender's time alone. -/
theorem time_listAfter {e : SenderEvent} (he : e.Foreign src) (hother : e.ticks? = none)
    {n : Neighbor}
    (hn : n ∈ listAfter msToTicks s l (e.action ticksToMs src)) (hid : n.nodeId = src) :
    ∃ m ∈ l, m.nodeId = src ∧ m.lastTimeSinceBootUs = n.lastTimeSinceBootUs := by
  cases e with
  | sent ticks lease port rxTicks answer => simp [SenderEvent.ticks?] at hother
  | other a =>
    simp only [SenderEvent.action] at hn
    cases a with
    | heartbeat node port heartbeat ticks answer =>
      have hne : node ≠ src := he.2
      simp only [listAfter, heard] at hn
      split at hn
      · obtain ⟨m, hm, rfl⟩ := List.mem_map.mp hn
        by_cases hmnode : m.nodeId = node
        · rw [if_pos hmnode] at hid
          exact absurd (hmnode.symm.trans hid) hne
        · rw [if_neg hmnode] at hid ⊢
          exact ⟨m, hm, hid, rfl⟩
      · split at hn
        · rcases List.mem_append.mp hn with hn | hn
          · exact ⟨n, (List.mem_filter.mp hn).1, hid, rfl⟩
          · obtain rfl := List.mem_singleton.mp hn
            exact absurd hid hne
        · exact ⟨n, hn, hid, rfl⟩
    | check ticks =>
      simp only [listAfter] at hn
      generalize 0 = i at hn
      induction l generalizing i with
      | nil => simp [checkedFrom] at hn
      | cons m l ih =>
        rcases List.mem_cons.mp hn with rfl | hn
        · refine ⟨m, by simp, ?_⟩
          unfold checked at hid ⊢
          split <;> simp_all
        · obtain ⟨k, hk, hrest⟩ := ih (i + 1) hn
          exact ⟨k, by simp [hk], hrest⟩
    | infoReply reply pending ok =>
      simp only [listAfter] at hn
      split at hn
      · obtain ⟨m, hm, rfl⟩ := List.mem_map.mp hn
        by_cases hmid : m.nodeId = reply.info.nodeId
        · rw [if_pos hmid] at hid ⊢
          exact ⟨m, hm, hmid.trans hid, rfl⟩
        · rw [if_neg hmid] at hid ⊢
          exact ⟨m, hm, hid, rfl⟩
      · exact ⟨n, hn, hid, rfl⟩
    | expectInfo nodeId => exact ⟨n, hn, hid, rfl⟩

/-- After a heartbeat of the sender its entry has the time of that heartbeat. -/
theorem time_heard {port : UInt8} {heartbeat : BcmpHeartbeat} {ticks : UInt32} {ok : Bool}
    {n : Neighbor}
    (hn : n ∈ heard src port heartbeat ticks ok l) (hid : n.nodeId = src) :
    n.lastTimeSinceBootUs = heartbeat.timeSinceBootUs := by
  unfold heard at hn
  split at hn
  · obtain ⟨m, hm, rfl⟩ := List.mem_map.mp hn
    by_cases hmid : m.nodeId = src
    · rw [if_pos hmid]
      rfl
    · rw [if_neg hmid] at hid
      exact absurd hid hmid
  · rename_i hsrc
    have hnot : ∀ m ∈ l, m.nodeId ≠ src := fun m hm hmid => hsrc (hmid ▸ List.mem_map_of_mem hm)
    split at hn
    · rcases List.mem_append.mp hn with hn | hn
      · exact absurd hid (hnot n (List.mem_filter.mp hn).1)
      · obtain rfl := List.mem_singleton.mp hn
        rfl
    · exact absurd hid (hnot n hn)

/-- The tick count of the sender at its last heartbeat. -/
def lastTicks (events : List SenderEvent) : Option UInt32 :=
  (events.filterMap SenderEvent.ticks?).getLast?

/-- The table after a run of events. -/
def afterEvents (cb : Bool) (src : UInt64) (events : List SenderEvent) : Option Neighborhood :=
  after msToTicks cb (events.map (SenderEvent.action ticksToMs src))

theorem sourced_action (hsrc : src ≠ 0) {e : SenderEvent} (he : e.Foreign src) :
    Sourced (e.action ticksToMs src) := by
  cases e with
  | sent ticks lease port rxTicks answer => exact hsrc
  | other a =>
    cases a with
    | heartbeat node port heartbeat ticks answer => exact he.1
    | _ => trivial

/-- The entry of the sender has the time of its last heartbeat. -/
theorem afterEvents_time (cb : Bool) (hsrc : src ≠ 0) {events : List SenderEvent}
    (hforeign : ∀ e ∈ events, e.Foreign src) :
    ∃ s l, afterEvents msToTicks ticksToMs cb src events = some s ∧ s.Stands l ∧ Table l ∧
      ∀ n ∈ l, n.nodeId = src → ∃ ticks lease, lastTicks events = some ticks ∧
        n.lastTimeSinceBootUs = (bcmpSendHeartbeat ticksToMs ticks lease).timeSinceBootUs := by
  induction events using List.reverseRecOn with
  | nil => exact ⟨init cb, [], rfl, stands_init cb, table_nil, by simp⟩
  | append_singleton events e ih =>
    obtain ⟨s, l, hrun, hstands, ht, htime⟩ := ih fun f hf => hforeign f (by simp [hf])
    have he : e.Foreign src := hforeign e (by simp)
    obtain ⟨s', hexec, hstands', -, -⟩ := hstands.exec msToTicks ht (e.action ticksToMs src)
    refine ⟨s', _, ?_, hstands', ht.listAfter msToTicks (sourced_action ticksToMs hsrc he), ?_⟩
    · rw [afterEvents, List.map_append, List.map_singleton]
      exact (after_concat msToTicks hrun _).trans hexec
    · intro n hn hid
      cases hticks : e.ticks? with
      | some ticks =>
        cases e with
        | sent t lease port rxTicks answer =>
          refine ⟨t, lease, by simp [lastTicks, SenderEvent.ticks?], time_heard hn hid⟩
        | other a => simp [SenderEvent.ticks?] at hticks
      | none =>
        obtain ⟨m, hm, hmid, hmtime⟩ := time_listAfter msToTicks ticksToMs he hticks hn hid
        obtain ⟨ticks, lease, hlast, heq⟩ := htime m hm hmid
        refine ⟨ticks, lease, ?_, hmtime.symm.trans heq⟩
        have hnil : [e].filterMap SenderEvent.ticks? = [] := by simp [hticks]
        rw [lastTicks, List.filterMap_append, hnil, List.append_nil]
        exact hlast

/-- The heartbeats of the sender arrive in the order of its clock. -/
def InOrder (events : List SenderEvent) : Prop :=
  (events.filterMap SenderEvent.ticks?).Pairwise (· ≤ ·)

theorem InOrder.last_le {events pre : List SenderEvent} {ticks lease rxTicks earlier : UInt32}
    {port : UInt8} {answer : Option Nat} (h : InOrder events)
    (hpre : pre ++ [.sent ticks lease port rxTicks answer] <+: events)
    (hlast : lastTicks pre = some earlier) : earlier ≤ ticks := by
  obtain ⟨rest, rfl⟩ := hpre
  rw [InOrder, List.filterMap_append, List.filterMap_append, List.pairwise_append,
    List.pairwise_append] at h
  exact h.1.2.2 earlier (List.mem_of_getLast? hlast) ticks (by simp [SenderEvent.ticks?])

/-- A reset is computed for a heartbeat of the sender exactly when the sender is known and the
uptime it tells has wrapped since the heartbeat before. -/
theorem computedReset_iff (hmono : ∀ t t', t ≤ t' → ticksToMs t ≤ ticksToMs t') (cb : Bool)
    (hsrc : src ≠ 0) {events pre : List SenderEvent} (hforeign : ∀ e ∈ events, e.Foreign src)
    (horder : InOrder events) {ticks lease rxTicks : UInt32} {port : UInt8} {answer : Option Nat}
    (hpre : pre ++ [.sent ticks lease port rxTicks answer] <+: events) :
    ∃ s, afterEvents msToTicks ticksToMs cb src pre = some s ∧
      (s.computedReset src port (bcmpSendHeartbeat ticksToMs ticks lease) answer = some false ↔
        (src ∈ s.ids → ∀ earlier, lastTicks pre = some earlier →
          ¬Wraps ticksToMs earlier ticks)) := by
  have hshort : pre <+: events := (List.prefix_append _ _).trans hpre
  obtain ⟨s, l, hrun, hstands, ht, htime⟩ := afterEvents_time msToTicks ticksToMs cb hsrc
    fun e he => hforeign e (hshort.subset he)
  refine ⟨s, hrun, ?_⟩
  rw [hstands.computedReset ht, hstands.ids_eq]
  by_cases hknown : src ∈ l.map (·.nodeId)
  · obtain ⟨n, hn, hid⟩ := List.mem_map.mp hknown
    obtain ⟨earlier, lease', hlast, heq⟩ := htime n hn hid
    have hle : earlier ≤ ticks := horder.last_le hpre hlast
    have hfind : l.find? (·.nodeId = src) = some n := hid ▸ find_known hn ht.nodup
    have hwraps := sent_lt_iff ticksToMs hmono hle lease lease'
    rw [← heq] at hwraps
    simp [hfind, hknown, hlast, neighborReset, ← hwraps]
  · simp [find_new hknown, hknown]

/-- For a sender whose clock does not go back, and whose heartbeats arrive in order, no reset is
ever computed if and only if the uptime in microseconds never wraps at 2^32 between two heartbeats
of which the second finds the sender in the table. -/
theorem no_reset_iff_no_wrap (hmono : ∀ t t', t ≤ t' → ticksToMs t ≤ ticksToMs t') (cb : Bool)
    (hsrc : src ≠ 0) (events : List SenderEvent) (hforeign : ∀ e ∈ events, e.Foreign src)
    (horder : InOrder events) :
    (∀ pre ticks lease port rxTicks answer, pre ++
      [.sent ticks lease port rxTicks answer] <+: events →
      ∃ s, afterEvents msToTicks ticksToMs cb src pre = some s ∧
        s.computedReset src port (bcmpSendHeartbeat ticksToMs ticks lease) answer = some false) ↔
    ∀ pre ticks lease port rxTicks answer, pre ++
    [.sent ticks lease port rxTicks answer] <+: events →
      ∀ s, afterEvents msToTicks ticksToMs cb src pre = some s → src ∈ s.ids →
        ∀ earlier, lastTicks pre = some earlier → ¬Wraps ticksToMs earlier ticks := by
  constructor
  · intro h pre ticks lease port rxTicks answer hpre s hs
    obtain ⟨s₀, hs₀, hiff⟩ := computedReset_iff msToTicks ticksToMs hmono cb hsrc hforeign
      horder hpre
    obtain ⟨s₁, hs₁, hreset⟩ := h pre ticks lease port rxTicks answer hpre
    obtain rfl : s₀ = s := by simpa [hs] using hs₀.symm
    obtain rfl : s₁ = s₀ := by simpa [hs] using hs₁.symm
    exact hiff.mp hreset
  · intro h pre ticks lease port rxTicks answer hpre
    obtain ⟨s, hs, hiff⟩ := computedReset_iff msToTicks ticksToMs hmono cb hsrc hforeign horder hpre
    exact ⟨s, hs, hiff.mpr (h pre ticks lease port rxTicks answer hpre s hs)⟩

/-- Two heartbeats, the first shortly before and the second shortly after 2^32 microseconds, with
ticks of one millisecond. -/
def longUptime : List SenderEvent := [.sent 4294967 10 1 0 (some 0), .sent 4294968 10 1 1 none]

theorem no_reset_iff_longUptime :
    (∀ pre ticks lease port rxTicks answer, pre ++
      [.sent ticks lease port rxTicks answer] <+: longUptime →
      ∃ s, afterEvents id id true 7 pre = some s ∧
        s.computedReset 7 port (bcmpSendHeartbeat id ticks lease) answer = some false) ↔
    ∀ pre ticks lease port rxTicks answer, pre ++
    [.sent ticks lease port rxTicks answer] <+: longUptime →
      ∀ s, afterEvents id id true 7 pre = some s → (7 : UInt64) ∈ s.ids →
        ∀ earlier, lastTicks pre = some earlier → ¬Wraps id earlier ticks :=
  no_reset_iff_no_wrap id id (fun _ _ h => h) true (by decide) longUptime
    (by
      intro e he
      simp only [longUptime, List.mem_cons, List.not_mem_nil, or_false] at he
      rcases he with rfl | rfl
      · trivial
      · trivial)
    (by simp [InOrder, longUptime, SenderEvent.ticks?])

/-- The second heartbeat is taken for that of a rebooted node. -/
theorem longUptime_resets : ∃ s, afterEvents id id true 7 [.sent 4294967 10 1 0 (some 0)] = some s ∧
    s.computedReset 7 1 (bcmpSendHeartbeat id 4294968 10) none = some true := by
  refine ⟨(afterEvents id id true 7 [.sent 4294967 10 1 0 (some 0)]).get (by decide +kernel),
    by simp, ?_⟩
  decide +kernel

end Neighborhood

end BmCore.Bcmp
