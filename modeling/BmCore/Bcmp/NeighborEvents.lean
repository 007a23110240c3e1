import BmCore.Bcmp.NeighborRuns

/-!
# Discovery events

The discovery callback hears of nodes that come and go: from `bcmp_update_neighbor`, from
`bcmp_process_heartbeat` and from `neighbor_check`. A neighbor that a new node on its port displaces
is removed from a fourth place, which calls nobody.
-/
namespace BmCore.Bcmp.Neighborhood

variable (msToTicks : UInt32 → UInt32) {s s' : Neighborhood} {l : List Neighbor}
    {a : NeighborAction}

/-- What a call tells about a node. -/
def eventOf (id : UInt64) : NeighborCall → Option Bool
  | .discovery discovered n => if n.nodeId = id then some discovered else none
  | .requestInfo _ => none

/-- The last event of a node; the calls are latest first. -/
def lastEvent (id : UInt64) (calls : List NeighborCall) : Option Bool :=
  calls.findSome? (eventOf id)

def Online (l : List Neighbor) (id : UInt64) : Prop := ∃ n ∈ l, n.nodeId = id ∧ n.online = true

/-- The last event of a node tells whether it is in the table and online. -/
def Mirrors (s : Neighborhood) : Prop := ∀ id, lastEvent id s.calls = some true ↔ Online s.list id

theorem lastEvent_append (id : UInt64) (new old : List NeighborCall) :
    lastEvent id (new ++ old) = (lastEvent id new).or (lastEvent id old) := List.findSome?_append

theorem online_of_map {l l' : List Neighbor}
    (hmap : l'.map (fun n => (n.nodeId, n.online)) = l.map fun n => (n.nodeId, n.online))
    (id : UInt64) :
    Online l' id ↔ Online l id := by
  have hiff : ∀ l : List Neighbor, Online l id ↔
      (id, true) ∈ l.map fun n => (n.nodeId, n.online) := by
    intro l
    simp [Online]
  rw [hiff, hiff, hmap]

/-! ## Heartbeats -/

theorem lastEvent_heartbeatCalls (heartbeat : BcmpHeartbeat) (n : Neighbor) (id : UInt64) :
    lastEvent id (heartbeatCalls true heartbeat n) =
      if n.nodeId = id ∧ (n.online = false ∨ neighborReset heartbeat n = true) then some true else
      none := by
  unfold heartbeatCalls lastEvent
  cases n.online <;> cases neighborReset heartbeat n <;> by_cases hid : n.nodeId = id <;>
    simp [hid, eventOf, List.findSome?_cons]

theorem lastEvent_newCalls (src : UInt64) (port : UInt8) (id : UInt64) :
    lastEvent id (newCalls true src port) = if src = id then some true else none := by
  by_cases hid : src = id <;> simp [newCalls, lastEvent, eventOf, hid]

/-- The heartbeat of a known node is reported, if it had not been online. -/
theorem mirrors_known {old : Option Bool} {n : Neighbor} (hn : n ∈ l)
    (heartbeat : BcmpHeartbeat) (ticks : UInt32) {id : UInt64}
    (hold : old = some true ↔ Online l id) :
    (lastEvent id (heartbeatCalls true heartbeat n)).or old = some true ↔
      Online (changeAt n.nodeId (·.beat heartbeat ticks) l) id := by
  rw [lastEvent_heartbeatCalls]
  by_cases hsame : n.nodeId = id
  · subst hsame
    have hafter : Online (changeAt n.nodeId (·.beat heartbeat ticks) l) n.nodeId := by
      refine ⟨n.beat heartbeat ticks, ?_, rfl, rfl⟩
      exact List.mem_map.mpr ⟨n, hn, if_pos rfl⟩
    have hbefore : n.online = true → old = some true :=
      fun honline => hold.mpr ⟨n, hn, rfl, honline⟩
    cases honline : n.online <;> simp [hafter]
    cases neighborReset heartbeat n <;> simp [hbefore honline]
  · have hmap : Online (changeAt n.nodeId (·.beat heartbeat ticks) l) id ↔ Online l id := by
      simp only [Online, changeAt, List.mem_map]
      constructor
      · rintro ⟨m', ⟨m, hm, rfl⟩, hmid, honline⟩
        by_cases hmn : m.nodeId = n.nodeId
        · rw [if_pos hmn] at hmid
          exact absurd (hmn.symm.trans hmid) hsame
        · rw [if_neg hmn] at hmid honline
          exact ⟨m, hm, hmid, honline⟩
      · rintro ⟨m, hm, hmid, honline⟩
        refine ⟨m, ⟨m, hm, if_neg fun hmn => hsame (hmn.symm.trans hmid)⟩, hmid, honline⟩
    simp [hsame, hmap, hold]

/-- A new node is reported; those that it displaces are not. -/
theorem mirrors_new {calls : List NeighborCall}
    (hold : ∀ id, lastEvent id calls = some true ↔ Online l id)
    (hid : Identified l) {src : UInt64} (hsrc : src ∉ l.map (·.nodeId)) (port : UInt8)
    (heartbeat : BcmpHeartbeat) (ticks : UInt32) :
    (∀ id, lastEvent id (newCalls true src port ++ calls) = some true ↔
      Online (l.filter (fun n => n.port ≠ port) ++
        [Neighbor.beat heartbeat ticks { nodeId := src, port := port }]) id) ↔
      ∀ n ∈ l, n.port = port → n.online = false := by
  have hafter : ∀ id, Online (l.filter (fun n => n.port ≠ port) ++
      [Neighbor.beat heartbeat ticks { nodeId := src, port := port }]) id ↔
      src = id ∨ ∃ n ∈ l, n.port ≠ port ∧ n.nodeId = id ∧ n.online = true := by
    intro id
    simp only [Online, List.mem_append, List.mem_filter, List.mem_singleton, decide_eq_true_eq]
    constructor
    · rintro ⟨n, ⟨hn, hport⟩ | rfl, hid, honline⟩
      · exact .inr ⟨n, hn, hport, hid, honline⟩
      · exact .inl hid
    · rintro (rfl | ⟨n, hn, hport, hid, honline⟩)
      · exact ⟨_, .inr rfl, rfl, rfl⟩
      · exact ⟨n, .inl ⟨hn, hport⟩, hid, honline⟩
  simp only [hafter, lastEvent_append, lastEvent_newCalls]
  constructor
  · -- a neighbor that was online is still the last one reported
    intro h n hn hport
    by_contra honline
    have honline' : n.online = true := by simpa using honline
    have hne : src ≠ n.nodeId := fun heq => hsrc (heq ▸ List.mem_map_of_mem hn)
    have hstill := (h n.nodeId).mp (by simp [hne, (hold n.nodeId).mpr ⟨n, hn, rfl, honline'⟩])
    obtain heq | ⟨m, hm, hmport, hmid, -⟩ := hstill
    · exact hne heq
    · rw [List.inj_on_of_nodup_map hid.nodup hm hn hmid] at hmport
      exact hmport hport
  · intro h id
    by_cases hsame : src = id
    · simp [hsame]
    · rw [if_neg hsame, Option.none_or, hold, or_iff_right hsame]
      refine exists_congr fun n => and_congr_right fun hn => ?_
      constructor
      · rintro ⟨hnid, honline⟩
        refine ⟨fun hport => ?_, hnid, honline⟩
        simp [h n hn hport] at honline
      · rintro ⟨-, hnid, honline⟩
        exact ⟨hnid, honline⟩

/-! ## Liveness -/

theorem checked_nodeId (ticks : UInt32) (n : Neighbor) :
    (checked msToTicks ticks n).nodeId = n.nodeId := by
  unfold checked
  split <;> rfl

theorem lastEvent_checkCalls_ne {n : Neighbor} {id : UInt64} (hid : n.nodeId ≠ id)
    (ticks : UInt32) :
    lastEvent id (checkCalls msToTicks true ticks n) = none := by
  unfold checkCalls
  split <;> simp [lastEvent, eventOf, hid]

theorem lastEvent_checkCallsFrom_absent {id : UInt64} (hid : id ∉ l.map (·.nodeId))
    (ticks : Nat → UInt32)
    (i : Nat) : lastEvent id (checkCallsFrom msToTicks true ticks i l) = none := by
  induction l generalizing i with
  | nil => rfl
  | cons n l ih =>
    simp only [List.map_cons, List.mem_cons, not_or] at hid
    rw [checkCallsFrom, lastEvent_append, ih hid.2,
      lastEvent_checkCalls_ne msToTicks (Ne.symm hid.1)]
    rfl

/-- A neighbor that goes offline is reported. -/
theorem mirrors_check {old : Option Bool} (hid : (l.map (·.nodeId)).Nodup) (ticks : Nat → UInt32)
    (i : Nat)
    {id : UInt64} (hold : old = some true ↔ Online l id) :
    (lastEvent id (checkCallsFrom msToTicks true ticks i l)).or old = some true ↔
      Online (checkedFrom msToTicks ticks i l) id := by
  induction l generalizing i with
  | nil => simpa [checkCallsFrom, checkedFrom, lastEvent] using hold
  | cons n l ih =>
    rw [List.map_cons, List.nodup_cons] at hid
    by_cases hn : n.nodeId = id
    · subst hn
      have honly : ∀ m l', m.nodeId = n.nodeId → n.nodeId ∉ l'.map (·.nodeId) →
          (Online (m :: l') n.nodeId ↔ m.online = true) := by
        rintro m l' hm hl'
        simp only [Online, List.mem_cons]
        constructor
        · rintro ⟨k, rfl | hk, hkid, honline⟩
          · exact honline
          · exact absurd (hkid ▸ List.mem_map_of_mem hk) hl'
        · intro honline
          exact ⟨m, .inl rfl, hm, honline⟩
      have hrest : n.nodeId ∉ (checkedFrom msToTicks ticks (i + 1) l).map (·.nodeId) := by
        rw [ids_of_map (checkedFrom_map msToTicks ticks (i + 1) l)]
        exact hid.1
      rw [honly n l rfl hid.1] at hold
      rw [checkCallsFrom, lastEvent_append, lastEvent_checkCallsFrom_absent msToTicks hid.1,
        Option.none_or,
        checkedFrom, honly _ _ (checked_nodeId msToTicks (ticks i) n) hrest]
      unfold checkCalls checked
      cases honline : n.online <;> cases expired msToTicks (ticks i) n <;>
        simp_all [lastEvent, eventOf]
    · have hother : ∀ m l', m.nodeId = n.nodeId → (Online (m :: l') id ↔ Online l' id) := by
        intro m l' hm
        simp [Online, hm, hn]
      rw [checkCallsFrom, lastEvent_append, lastEvent_checkCalls_ne msToTicks hn, Option.or_none,
        checkedFrom, hother _ _ (checked_nodeId msToTicks (ticks i) n)]
      exact ih hid.2 (i + 1) (hold.trans (hother n l rfl))

/-! ## Runs -/

/-- A new node displaces nobody who is online. -/
def DisplacesNoneOnline (s : Neighborhood) : NeighborAction → Prop
  | .heartbeat src port _ _ answer =>
    src ∉ s.ids → s.hasMemory answer → ∀ n ∈ s.list, n.port = port → n.online = false
  | _ => True

/-- The events mirror the table after an action if the action displaces nobody who is online, and
only then. -/
theorem mirrors_step (hs : s.Stands l) (ht : Table l) (hcb : s.discoveryCb = true) (h : Mirrors s)
    (hs' : s'.Stands (listAfter msToTicks s l a))
    (hcalls : s'.calls = callsOf msToTicks s l a ++ s.calls) :
    Mirrors s' ↔ DisplacesNoneOnline s a := by
  unfold Mirrors at h ⊢
  rw [hs.list_eq] at h
  rw [hs'.list_eq, hcalls]
  have hquiet : ∀ l', l'.map (fun n : Neighbor => (n.nodeId, n.online)) = l.map
    (fun n => (n.nodeId, n.online)) →
      ∀ id, lastEvent id ([] ++ s.calls) = some true ↔ Online l' id := by
    intro l' hmap id
    rw [online_of_map hmap]
    exact h id
  cases a with
  | heartbeat src port heartbeat ticks answer =>
    simp only [DisplacesNoneOnline, hs.ids_eq, hs.list_eq, callsOf, listAfter, hcb]
    by_cases hsrc : src ∈ l.map (·.nodeId)
    · obtain ⟨n, hn, rfl⟩ := List.mem_map.mp hsrc
      simp only [hsrc, not_true_eq_false, false_implies, iff_true]
      intro id
      rw [heard, if_pos hsrc, heardCalls_known hn ht.nodup, lastEvent_append]
      exact mirrors_known hn heartbeat ticks (h id)
    · rw [heard, if_neg hsrc, heardCalls_new hsrc]
      cases hmem : s.hasMemory answer with
      | true => simpa [hsrc] using mirrors_new h ht.toIdentified hsrc port heartbeat ticks
      | false => simpa using fun id => h id
  | check ticks =>
    simp only [DisplacesNoneOnline, callsOf, listAfter, hcb, iff_true]
    intro id
    rw [lastEvent_append]
    exact mirrors_check msToTicks ht.nodup ticks 0 (h id)
  | infoReply reply pending ok =>
    simp only [DisplacesNoneOnline, callsOf, listAfter, iff_true]
    refine hquiet _ ?_
    split
    · rw [changeAt, List.map_map]
      refine List.map_congr_left fun n _ => ?_
      by_cases hn : n.nodeId = reply.info.nodeId <;> simp [hn, populateNeighborInfo]
    · rfl
  | expectInfo nodeId =>
    simp only [DisplacesNoneOnline, callsOf, listAfter, iff_true]
    exact hquiet l rfl

theorem mirrors_init : Mirrors (init true) := by
  intro id
  have hlist : (init true).list = [] := (stands_init true).list_eq
  have hcalls : (init true).calls = [] := rfl
  rw [hlist, hcalls]
  simp [lastEvent, Online]

/-- The states of a run, where the callback is registered from the start. -/
theorem after_callback {actions : List NeighborAction} (h : ∀ a ∈ actions, Sourced a) :
    ∃ s l, after msToTicks true actions = some s ∧ s.Stands l ∧ Table l ∧ s.discoveryCb = true := by
  refine after_rule msToTicks (fun s _ => s.discoveryCb = true) true (fun _ ha => ha) rfl ?_ h
  intro s l a s' _ _ hinv _ _ _ _ hcb
  exact hcb.trans hinv

/-- In the states of a run the last event of each node tells whether it is in the table and online,
if and only if no new node displaces one that is online. -/
theorem events_mirror_iff_none_displaced (actions : List NeighborAction)
    (hsourced : ∀ a ∈ actions, Sourced a) :
    (∀ pre, pre <+: actions → (after msToTicks true pre).isSome) ∧
      ((∀ pre s, pre <+: actions → after msToTicks true pre = some s → Mirrors s) ↔
        ∀ pre a s, pre ++ [a] <+: actions → after msToTicks true pre = some s →
        DisplacesNoneOnline s a) := by
  have hpre : ∀ {pre}, pre <+: actions → ∀ a ∈ pre, Sourced a :=
    fun hpre a ha => hsourced a (hpre.subset ha)
  refine ⟨fun pre h => ?_, fun h => ?_, fun h => ?_⟩
  · obtain ⟨s, l, hrun, -⟩ := after_callback msToTicks (hpre h)
    simp [hrun]
  · intro pre a s hprefix hs
    have hshort : pre <+: actions := (List.prefix_append pre [a]).trans hprefix
    obtain ⟨s₀, l, hrun, hstands, ht, hcb⟩ := after_callback msToTicks (hpre hshort)
    obtain rfl : s₀ = s := by simpa [hs] using hrun.symm
    obtain ⟨s', hexec, hstands', hcalls, -⟩ := hstands.exec msToTicks ht a
    have hmirrors := h (pre ++ [a]) s' hprefix ((after_concat msToTicks hs a).trans hexec)
    exact (mirrors_step msToTicks hstands ht hcb (h pre s₀ hshort hs) hstands' hcalls).mp hmirrors
  · intro pre s hprefix hs
    -- from state to state along the prefix
    induction pre using List.reverseRecOn generalizing s with
    | nil =>
      obtain rfl : init true = s := by simpa [after] using hs
      exact mirrors_init
    | append_singleton pre a ih =>
      have hshort : pre <+: actions := (List.prefix_append pre [a]).trans hprefix
      obtain ⟨s₀, l, hrun, hstands, ht, hcb⟩ := after_callback msToTicks (hpre hshort)
      obtain ⟨s', hexec, hstands', hcalls, -⟩ := hstands.exec msToTicks ht a
      obtain rfl : s' = s := by
        rw [after_concat msToTicks hrun, hexec] at hs
        exact Option.some.inj hs
      exact (mirrors_step msToTicks hstands ht hcb (ih s₀ hshort hrun) hstands' hcalls).mpr
        (h pre a s₀ hprefix hrun)

/-- Two nodes on the port 1, both online. -/
def displaced : List NeighborAction :=
  [.heartbeat 7 1 ⟨0, 10⟩ 0 (some 0), .heartbeat 9 1 ⟨0, 10⟩ 5 (some 1)]

theorem displaced_sourced : ∀ a ∈ displaced, Sourced a := by
  intro a ha
  simp only [displaced, List.mem_cons, List.not_mem_nil, or_false] at ha
  rcases ha with rfl | rfl
  · exact show (7 : UInt64) ≠ 0 by decide
  · exact show (9 : UInt64) ≠ 0 by decide

theorem events_mirror_iff_displaced :
    (∀ pre s, pre <+: displaced → after id true pre = some s → Mirrors s) ↔
      ∀ pre a s, pre ++ [a] <+: displaced → after id true pre = some s → DisplacesNoneOnline s a :=
  (events_mirror_iff_none_displaced id displaced displaced_sourced).2

/-- The first node is gone, and the last that was said of it is that it is there. -/
theorem displaced_not_mirrored : ∃ s, after id true displaced = some s ∧ ¬Mirrors s := by
  obtain ⟨s, hs, hids, hevent⟩ : ∃ s, after id true displaced = some s ∧
      s.ids = [9] ∧ lastEvent 7 s.calls = some true := by
    refine ⟨(after id true displaced).get (by decide +kernel), by simp, by decide +kernel,
      by decide +kernel⟩
  refine ⟨s, hs, fun h => ?_⟩
  obtain ⟨n, hn, hid, -⟩ := (h 7).mp hevent
  have hmem : n.nodeId ∈ s.ids := List.mem_map_of_mem hn
  rw [hids, hid] at hmem
  simp at hmem

end BmCore.Bcmp.Neighborhood
