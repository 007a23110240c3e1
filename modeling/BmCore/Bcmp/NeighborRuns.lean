import BmCore.Bcmp.NeighborTable

/-!
# Runs of the neighbor table

Over every run of heartbeats, liveness checks and info replies the table has one neighbor for each
node id and for each port. A known node keeps the port it was first heard on. -/
namespace BmCore.Bcmp.Neighborhood

variable (msToTicks : UInt32 → UInt32) {s s' : Neighborhood} {l : List Neighbor}
    {a : NeighborAction}

def IsHeartbeat : NeighborAction → Prop
  | .heartbeat .. => True
  | _ => False

theorem NeighborAction.Valid.sourced (h : a.Valid) : Sourced a := by
  cases a with
  | heartbeat src port heartbeat ticks answer => exact h.1
  | _ => trivial

theorem Stands.ids_eq (h : s.Stands l) : s.ids = l.map (·.nodeId) := by
  rw [ids, h.list_eq]

/-! ## One action -/

theorem ids_of_map {l l' : List Neighbor}
    (hmap : l'.map (fun n => (n.nodeId, n.port)) = l.map fun n => (n.nodeId, n.port)) :
    l'.map (·.nodeId) = l.map (·.nodeId) := by
  simpa [List.map_map, Function.comp_def] using congrArg (List.map Prod.fst) hmap

/-- Only a heartbeat changes who is in the table. -/
theorem listAfter_map (ha : ¬IsHeartbeat a) :
    (listAfter msToTicks s l a).map (fun n => (n.nodeId, n.port)) =
    l.map fun n => (n.nodeId, n.port) := by
  cases a with
  | heartbeat src port heartbeat ticks answer => exact absurd trivial ha
  | check ticks => exact checkedFrom_map msToTicks ticks 0 l
  | infoReply reply pending ok =>
    simp only [listAfter]
    split
    · refine changeAt_map ?_ l
      intro n _
      exact ⟨rfl, rfl⟩
    · rfl
  | expectInfo nodeId => rfl

theorem heard_known {src : UInt64} (hsrc : src ∈ l.map (·.nodeId)) (port : UInt8)
    (heartbeat : BcmpHeartbeat)
    (ticks : UInt32) (ok : Bool) : (heard src port heartbeat ticks ok l).map
    (fun n => (n.nodeId, n.port)) =
      l.map fun n => (n.nodeId, n.port) := by
  rw [heard, if_pos hsrc]
  refine changeAt_map ?_ l
  intro n hn
  exact ⟨hn, rfl⟩

/-- A node that is heard is in the table, if there is memory for it. -/
theorem mem_heard (src : UInt64) (port : UInt8) (heartbeat : BcmpHeartbeat) (ticks : UInt32) :
    src ∈ (heard src port heartbeat ticks true l).map (·.nodeId) := by
  by_cases hsrc : src ∈ l.map (·.nodeId)
  · rw [ids_of_map (heard_known hsrc port heartbeat ticks true)]
    exact hsrc
  · rw [heard, if_neg hsrc]
    simp [Neighbor.beat]

/-- A neighbor is dropped by a new one on its port only. -/
theorem dropped_by_new {n : Neighbor} (hn : n ∈ l)
    (hgone : n.nodeId ∉ (listAfter msToTicks s l a).map (·.nodeId)) : ∃ src heartbeat ticks answer,
      a = .heartbeat src n.port heartbeat ticks answer ∧ src ∉ l.map (·.nodeId) := by
  have hmem : n.nodeId ∈ l.map (·.nodeId) := List.mem_map_of_mem hn
  by_cases ha : IsHeartbeat a
  · cases a with
    | heartbeat src port heartbeat ticks answer =>
      simp only [listAfter] at hgone
      by_cases hsrc : src ∈ l.map (·.nodeId)
      · rw [ids_of_map (heard_known hsrc port heartbeat ticks _)] at hgone
        exact absurd hmem hgone
      · rw [heard, if_neg hsrc] at hgone
        split at hgone
        · have hport : n.port = port := by
            by_contra hne
            refine hgone (List.mem_map_of_mem (List.mem_append_left _ ?_))
            exact List.mem_filter.mpr ⟨hn, by simpa using hne⟩
          exact ⟨src, heartbeat, ticks, answer, by rw [hport], hsrc⟩
        · exact absurd hmem hgone
    | _ => exact ha.elim
  · rw [ids_of_map (listAfter_map msToTicks ha)] at hgone
    exact absurd hmem hgone

/-- The ports are those that heartbeats came from. -/
theorem ports_listAfter (h : ∀ n ∈ l, n.port < 16) (ha : a.Valid) :
    ∀ n ∈ listAfter msToTicks s l a, n.port < 16 := by
  have hkeep : ∀ l' : List Neighbor, l'.map (fun n => (n.nodeId, n.port)) = l.map
    (fun n => (n.nodeId, n.port)) →
      ∀ n ∈ l', n.port < 16 := by
    intro l' hmap n hn
    have hmem : (n.nodeId, n.port) ∈ l.map fun n => (n.nodeId, n.port) :=
      hmap ▸ List.mem_map_of_mem hn
    obtain ⟨m, hm, heq⟩ := List.mem_map.mp hmem
    rw [← (Prod.mk.inj heq).2]
    exact h m hm
  by_cases hheart : IsHeartbeat a
  · cases a with
    | heartbeat src port heartbeat ticks answer =>
      by_cases hsrc : src ∈ l.map (·.nodeId)
      · exact hkeep _ (heard_known hsrc port heartbeat ticks _)
      · simp only [listAfter, heard, if_neg hsrc]
        split
        · intro n hn
          rcases List.mem_append.mp hn with hn | hn
          · exact h n (List.mem_filter.mp hn).1
          · obtain rfl := List.mem_singleton.mp hn
            exact ha.2
        · exact h
    | _ => exact hheart.elim
  · exact hkeep _ (listAfter_map msToTicks hheart)

/-- There are no more neighbors than ports. -/
theorem Table.length_le (ht : Table l) (h : ∀ n ∈ l, n.port < 16) : l.length ≤ 16 := by
  have hnodup : (l.map fun n => n.port.toNat).Nodup := by
    have hmap := (List.nodup_map_iff (f := UInt8.toNat) fun _ _ => UInt8.toNat_inj.mp).mpr ht.ports
    simpa [List.map_map, Function.comp_def] using hmap
  have hsub : (l.map fun n => n.port.toNat).Subperm (List.range 16) := by
    refine List.Nodup.subperm hnodup fun p hp => ?_
    obtain ⟨n, hn, rfl⟩ := List.mem_map.mp hp
    exact List.mem_range.mpr (UInt8.lt_iff_toNat_lt.mp (h n hn))
  simpa using hsub.length_le

/-! ## Runs -/

theorem after_concat {cb : Bool} {actions : List NeighborAction}
    (hs : after msToTicks cb actions = some s)
    (a : NeighborAction) : after msToTicks cb (actions ++ [a]) = s.exec msToTicks a := by
  rw [after, List.foldlM_append]
  rw [after] at hs
  simp [hs]

/-- After every run of sourced actions there is a table. -/
theorem after_table (cb : Bool) {actions : List NeighborAction} (h : ∀ a ∈ actions, Sourced a) :
    ∃ s l, after msToTicks cb actions = some s ∧ s.Stands l ∧ Table l := by
  obtain ⟨s, l, hrun, hstands, ht, -⟩ := after_rule msToTicks (fun _ _ => True) cb
    (fun _ ha => ha) trivial (fun _ _ _ _ _ _ _ _ _ _ _ _ => trivial) h
  exact ⟨s, l, hrun, hstands, ht⟩

/-- Between heartbeats nobody comes or goes. -/
theorem Stands.quiet (h : s.Stands l) (ht : Table l) {rest : List NeighborAction}
    (hrest : ∀ a ∈ rest, ¬IsHeartbeat a)
    (hrun : rest.foldlM (Neighborhood.exec msToTicks) s = some s') :
    s'.ids = s.ids := by
  induction rest generalizing s l with
  | nil =>
    obtain rfl : s = s' := by simpa using hrun
    rfl
  | cons a rest ih =>
    have ha : ¬IsHeartbeat a := hrest a (by simp)
    obtain ⟨s₁, hexec, hstands, -, -⟩ := h.exec msToTicks ht a
    rw [List.foldlM_cons, hexec] at hrun
    have hmap := listAfter_map msToTicks (s := s) (l := l) ha
    rw [ih hstands (ht.of_map hmap) (fun b hb => hrest b (by simp [hb])) hrun, hstands.ids_eq,
      h.ids_eq]
    exact ids_of_map hmap

/-- `bcmp_get_neighbors` counts the neighbors. -/
theorem Stands.count (h : s.Stands l) (hlen : l.length ≤ 16) (ticks : Nat → UInt32) :
    ∃ head count s', s.bcmpGetNeighbors msToTicks ticks = some (head, count, s') ∧
      count.toNat = s'.list.length := by
  obtain ⟨s', hrun, hstands, -, -, hnum⟩ := h.check msToTicks ticks
  refine ⟨s'.neighbors, s'.numNeighbors, s', by simp [bcmpGetNeighbors, hrun], ?_⟩
  have hsame : (checkedFrom msToTicks ticks 0 l).length = l.length := by
    simpa using congrArg List.length (checkedFrom_map msToTicks ticks 0 l)
  rw [hstands.list_eq, hsame, hnum, UInt8.toNat_ofNat']
  exact Nat.mod_eq_of_lt (by omega)

/-- Over every run of heartbeats of nodes on the ports, of info replies and of checks, the list of
neighbors is intact and has each node and each port once, and its length is what is counted. The
node of the latest heartbeat is in it, and a neighbor is dropped only for a new node on its port. -/
theorem neighbors_one_per_node_and_port (cb : Bool) (actions : List NeighborAction)
    (hvalid : ∀ a ∈ actions, a.Valid) : ∃ s, after msToTicks cb actions = some s ∧ s.Stands s.list ∧
      s.ids.Nodup ∧ (s.list.map (·.port)).Nodup ∧
      (∀ ticks, ∃ head count s', s.bcmpGetNeighbors msToTicks ticks = some (head, count, s') ∧
        count.toNat = s'.list.length ∧ s'.ids = s.ids) ∧
      (∀ pre src port heartbeat ticks answer rest s₀,
        actions = pre ++ .heartbeat src port heartbeat ticks answer :: rest →
        (∀ a ∈ rest, ¬IsHeartbeat a) → after msToTicks cb pre = some s₀ → s₀.hasMemory answer →
        src ∈ s.ids) ∧
      ∀ pre a rest s₀ s₁, actions = pre ++ a :: rest → after msToTicks cb pre = some s₀ →
        s₀.exec msToTicks a = some s₁ → ∀ n ∈ s₀.list, n.nodeId ∉ s₁.ids →
        ∃ src heartbeat ticks answer, a = .heartbeat src n.port heartbeat ticks answer ∧
        src ∉ s₀.ids := by
  obtain ⟨s, l, hrun, hstands, ht, hports⟩ :=
    after_rule msToTicks (fun _ l => ∀ n ∈ l, n.port < 16) cb
    (fun _ ha => NeighborAction.Valid.sourced ha) (by simp)
    (fun _ _ _ _ _ _ hinv ha _ _ _ _ => ports_listAfter msToTicks hinv ha) hvalid
  -- the state before an action of the run
  have hbefore : ∀ pre a rest, actions = pre ++ a :: rest →
    ∃ s₀ l₀, after msToTicks cb pre = some s₀ ∧
      s₀.Stands l₀ ∧ Table l₀ := by
    rintro pre a rest rfl
    exact after_table msToTicks cb fun b hb =>
      NeighborAction.Valid.sourced (hvalid b (by simp [hb]))
  refine ⟨s, hrun, hstands.list_eq ▸ hstands, hstands.ids_eq ▸ ht.nodup, hstands.list_eq ▸ ht.ports,
    fun ticks => ?_, ?_, ?_⟩
  · obtain ⟨s', hcheck, hstands', -⟩ := hstands.check msToTicks ticks
    obtain ⟨head, count, s'', hget, hcount⟩ := hstands.count msToTicks (ht.length_le hports) ticks
    obtain rfl : s' = s'' := by
      simp only [bcmpGetNeighbors, hcheck, Option.bind_eq_bind, Option.bind_some, Option.some.injEq,
        Prod.mk.injEq] at hget
      exact hget.2.2
    refine ⟨head, count, s', hget, hcount, ?_⟩
    rw [hstands'.ids_eq, hstands.ids_eq]
    exact ids_of_map (checkedFrom_map msToTicks ticks 0 l)
  · intro pre src port heartbeat ticks answer rest s₀ hsplit hquiet hs₀ hmem
    obtain ⟨s₀', l₀, hs₀', hstands₀, ht₀⟩ := hbefore pre _ rest hsplit
    obtain rfl : s₀' = s₀ := by simpa [hs₀] using hs₀'.symm
    obtain ⟨s₁, hexec, hstands₁, -, -⟩ :=
      hstands₀.exec msToTicks ht₀ (.heartbeat src port heartbeat ticks answer)
    have hsrc : src ∈ s₁.ids := by
      rw [hstands₁.ids_eq]
      simp only [listAfter, hmem]
      exact mem_heard src port heartbeat ticks
    have ht₁ : Table (listAfter msToTicks s₀' l₀ (.heartbeat src port heartbeat ticks answer)) :=
      ht₀.listAfter msToTicks (hvalid (.heartbeat src port heartbeat ticks answer)
      (by simp [hsplit])).1
    have hrest : rest.foldlM (exec msToTicks) s₁ = some s := by
      rw [hsplit, after, List.foldlM_append] at hrun
      rw [after] at hs₀
      simpa [hs₀, hexec] using hrun
    rwa [hstands₁.quiet msToTicks ht₁ hquiet hrest]
  · intro pre a rest s₀ s₁ hsplit hs₀ hexec n hn hgone
    obtain ⟨s₀', l₀, hs₀', hstands₀, ht₀⟩ := hbefore pre a rest hsplit
    obtain rfl : s₀' = s₀ := by simpa [hs₀] using hs₀'.symm
    obtain ⟨s₁', hexec', hstands₁, -, -⟩ := hstands₀.exec msToTicks ht₀ a
    obtain rfl : s₁' = s₁ := by simpa [hexec] using hexec'.symm
    rw [hstands₁.ids_eq] at hgone
    rw [hstands₀.list_eq] at hn
    rw [hstands₀.ids_eq]
    exact dropped_by_new msToTicks hn hgone

/-- A second node on the first one's port, and a check. -/
theorem neighbors_one_per_node_and_port_replaced :
    ∃ s, after id true [.heartbeat 7 1 ⟨0, 10⟩ 0 (some 0), .heartbeat 9 1 ⟨0, 10⟩ 5 (some 1),
      .check fun _ => 6] = some s ∧ s.ids.Nodup := by
  obtain ⟨s, hrun, -, hids, -⟩ := neighbors_one_per_node_and_port id true
    [.heartbeat 7 1 ⟨0, 10⟩ 0 (some 0), .heartbeat 9 1 ⟨0, 10⟩ 5 (some 1), .check fun _ => 6]
    (by
      intro a ha
      simp only [List.mem_cons, List.not_mem_nil, or_false] at ha
      rcases ha with rfl | rfl | rfl
      · exact ⟨by decide, by decide⟩
      · exact ⟨by decide, by decide⟩
      · trivial)
  exact ⟨s, hrun, hids⟩

/-! ## Where a node is -/

/-- The node is on the port, and nobody else is. -/
def Located (s : Neighborhood) (src : UInt64) (port : UInt8) : Prop :=
  (∃ n ∈ s.list, n.nodeId = src ∧ n.port = port) ∧
    (∀ n ∈ s.list, n.nodeId = src → n.port = port) ∧ ∀ n ∈ s.list, n.port = port → n.nodeId = src

theorem Table.located (ht : Table l) (hs : s.Stands l) {src : UInt64} {port : UInt8} :
    Located s src port ↔ (src, port) ∈ l.map fun n => (n.nodeId, n.port) := by
  unfold Located
  rw [hs.list_eq]
  constructor
  · rintro ⟨⟨n, hn, rfl, rfl⟩, -⟩
    exact List.mem_map.mpr ⟨n, hn, rfl⟩
  · intro hmem
    obtain ⟨n, hn, heq⟩ := List.mem_map.mp hmem
    obtain ⟨rfl, rfl⟩ := Prod.mk.inj heq
    refine ⟨⟨n, hn, rfl, rfl⟩, fun m hm hid => ?_, fun m hm hport => ?_⟩
    · rw [List.inj_on_of_nodup_map ht.nodup hm hn hid]
    · rw [List.inj_on_of_nodup_map ht.ports hm hn hport]

/-- After a heartbeat the node is where the heartbeat came from, unless it was known on another port
or there was no memory for it. -/
theorem heard_located (src : UInt64) (port : UInt8) (heartbeat : BcmpHeartbeat)
    (ticks : UInt32) (ok : Bool) :
    (src, port) ∈ (heard src port heartbeat ticks ok l).map (fun n => (n.nodeId, n.port)) ↔
      (src ∉ l.map (·.nodeId) ∧ ok) ∨ (src, port) ∈ l.map fun n => (n.nodeId, n.port) := by
  have hid : (src, port) ∈ l.map (fun n => (n.nodeId, n.port)) → src ∈ l.map (·.nodeId) := by
    intro hmem
    obtain ⟨n, hn, heq⟩ := List.mem_map.mp hmem
    exact List.mem_map.mpr ⟨n, hn, (Prod.mk.inj heq).1⟩
  by_cases hsrc : src ∈ l.map (·.nodeId)
  · rw [heard_known hsrc]
    tauto
  · rw [heard, if_neg hsrc]
    cases ok with
    | true => simp [Neighbor.beat, hsrc]
    | false =>
      have hnot : (src, port) ∉ l.map fun n => (n.nodeId, n.port) := fun hmem => hsrc (hid hmem)
      simp [hnot]

/-- In every run, a heartbeat of a node leaves the node on the port it came from, and nobody else,
if and only if the node was on that port before or was new and there was memory for it. -/
theorem located_iff_not_moved (cb : Bool) (actions : List NeighborAction) (src : UInt64)
    (port : UInt8) (heartbeat : BcmpHeartbeat) (ticks : UInt32) (answer : Option Nat)
    (hsourced : ∀ a ∈ actions ++ [.heartbeat src port heartbeat ticks answer], Sourced a) :
    ∃ s s', after msToTicks cb actions = some s ∧
      after msToTicks cb (actions ++ [.heartbeat src port heartbeat ticks answer]) = some s' ∧
      (Located s' src port ↔
        (src ∉ s.ids ∧ s.hasMemory answer) ∨ ∃ n ∈ s.list, n.nodeId = src ∧ n.port = port) := by
  have hsourced' : ∀ a ∈ actions, Sourced a := fun a ha => hsourced a (by simp [ha])
  obtain ⟨s, l, hrun, hstands, ht⟩ := after_table msToTicks cb hsourced'
  obtain ⟨s', hexec, hstands', -, -⟩ := hstands.exec msToTicks ht
    (.heartbeat src port heartbeat ticks answer)
  have ht' : Table (listAfter msToTicks s l (.heartbeat src port heartbeat ticks answer)) :=
    ht.listAfter msToTicks (hsourced (.heartbeat src port heartbeat ticks answer) (by simp))
  refine ⟨s, s', hrun, (after_concat msToTicks hrun _).trans hexec, ?_⟩
  rw [ht'.located hstands', listAfter, heard_located, hstands.ids_eq, hstands.list_eq]
  simp

/-- Two nodes are heard on two ports, the second one of them twice, and checked. -/
def twoPorts : List NeighborAction :=
  [.heartbeat 7 1 ⟨0, 10⟩ 0 (some 0), .heartbeat 9 2 ⟨0, 10⟩ 0 (some 1),
    .heartbeat 9 2 ⟨10000000, 10⟩ 10000 none, .check fun _ => 10001]

/-- Then another node is heard on the port of the first one. -/
theorem located_iff_not_moved_twoPorts : ∃ s', after id true
    (twoPorts ++ [.heartbeat 5 1 ⟨0, 10⟩ 10002 (some 2)]) = some s' ∧ Located s' 5 1 := by
  have hsourced : ∀ a ∈ twoPorts ++ [.heartbeat 5 1 ⟨0, 10⟩ 10002 (some 2)], Sourced a := by
    intro a ha
    simp only [twoPorts, List.cons_append, List.nil_append, List.mem_cons, List.not_mem_nil,
      or_false] at ha
    rcases ha with rfl | rfl | rfl | rfl | rfl
    · exact show (7 : UInt64) ≠ 0 by decide
    · exact show (9 : UInt64) ≠ 0 by decide
    · exact show (9 : UInt64) ≠ 0 by decide
    · trivial
    · exact show (5 : UInt64) ≠ 0 by decide
  obtain ⟨s, s', hs, hs', hlocated⟩ :=
    located_iff_not_moved id true twoPorts 5 1 ⟨0, 10⟩ 10002 (some 2) hsourced
  obtain ⟨s₀, hs₀, hnew⟩ : ∃ s₀, after id true twoPorts = some s₀ ∧
      (5 : UInt64) ∉ s₀.ids ∧ s₀.hasMemory (some 2) := by
    refine ⟨(after id true twoPorts).get (by decide +kernel), by simp, by decide +kernel⟩
  obtain rfl : s₀ = s := Option.some.inj (hs₀.symm.trans hs)
  exact ⟨s', hs', hlocated.mpr (.inl hnew)⟩

/-- The node is heard on the port 1, and after it has been connected to the port 2 it is heard
there. -/
def recabled : List NeighborAction :=
  [.heartbeat 7 1 ⟨0, 10⟩ 0 (some 0), .heartbeat 7 2 ⟨10000000, 10⟩ 10000 (some 1)]

theorem recabled_not_located : ∃ s, after id true recabled = some s ∧ ¬Located s 7 2 ∧
    s.list.map (fun n => (n.nodeId, n.port)) = [(7, 1)] := by
  obtain ⟨s, hs, hlist⟩ : ∃ s, after id true recabled = some s ∧
      s.list.map (fun n => (n.nodeId, n.port)) = [(7, 1)] := by
    refine ⟨(after id true recabled).get (by decide +kernel), by simp, by decide +kernel⟩
  refine ⟨s, hs, ?_, hlist⟩
  rintro ⟨⟨n, hn, hid, hport⟩, -⟩
  have hmem : (n.nodeId, n.port) ∈ s.list.map fun n => (n.nodeId, n.port) := List.mem_map_of_mem hn
  rw [hlist, hid, hport] at hmem
  simp at hmem

end BmCore.Bcmp.Neighborhood
