import BmCore.Integrations.TopologyEvents

/-!
# Runs of the list operations

The list from the start of a session on, with entries put in on both sides of the cursor and the
cursor moved, in any order. Whatever has been done to it, the pointers form one chain and the cursor
is where the index says; at the end every entry is freed once.
-/
namespace BmCore.Topology
open Library

/-- A call of a list operation. An insertion comes with the address of the entry that has been
allocated for it, and with what the entry holds besides its links. -/
inductive ListCall where
  | insertBefore (a : Nat) (v : Visit)
  | insertAfter (a : Nat) (v : Visit)
  | movePrev
  | moveNext

namespace TopologyMem
variable (m : TopologyMem)

/-- A new entry, zeroed but for what it holds, which is not linked yet. -/
def allocate (a : Nat) (v : Visit) : TopologyMem :=
  { m with heap := Function.update m.heap a (some (mkEntry none none v)) }

/-- What the calls of `network_topology_delete_back` in `network_topology_clear` free, in their
order. -/
def freed : Nat → TopologyMem → List Nat
  | 0, _ => []
  | length + 1, m => m.net.back.toList ++ (m.deleteBack.map (freed length)).getD []

end TopologyMem

namespace ListCall

def run (m : TopologyMem) : ListCall → Option TopologyMem
  | .insertBefore a v => (m.allocate a v).insertBefore a
  | .insertAfter a v => (m.allocate a v).insertAfter a
  | .movePrev => m.movePrev
  | .moveNext => m.moveNext

/-- No memory in use is allocated, and there is room in a `uint8_t` for one more entry. -/
def Allowed (m : TopologyMem) : ListCall → Prop
  | .insertBefore a _ | .insertAfter a _ => m.heap a = none ∧ m.net.length < 255
  | .movePrev | .moveNext => True

end ListCall

/-- The lists that the calls lead to from the start of a session on. -/
inductive Reached (s : TopoContext) (env : HandleEnv) : TopologyMem → Prop where
  | start {s' : TopoContext} {net : NetworkTopology} :
      s.processStartTopologyEvent env = some (s', true) → s'.networkTopology = some net →
      Reached s env ⟨s'.heap, net⟩
  | call {m m' : TopologyMem} (call : ListCall) :
      Reached s env m → call.Allowed m → call.run m = some m' → Reached s env m'

/-- The entries of `es` form one chain, and the cursor is at the one with the index. -/
structure OneChain (m : TopologyMem) (es : List (Nat × Visit)) : Prop extends Listed m es where
  front : m.net.front = headAddr es none
  index_nonneg : 0 ≤ m.net.index
  index_lt : m.net.index < m.net.length
  cursor : m.net.cursor = es[m.net.index.toNat]?.map Prod.fst

variable {m : TopologyMem} {s : TopoContext} {env : HandleEnv} {ls rs : List (Nat × Visit)}
  {c : Nat × Visit} {a : Nat} {v : Visit}

theorem Rep.oneChain (h : Rep m ls c rs) : OneChain m (ls ++ c :: rs) where
  toListed := h.toListed
  front := h.front
  index_nonneg := by simp [h.index]
  index_lt := by
    simp only [h.index, h.length, List.length_append, List.length_cons]
    omega
  cursor := by simp [h.index, h.cursor]

/-! ## The start of a session -/

theorem bmQueueSend_heap (s : TopoContext) (item : BcmpTopoQueueItem) :
    (s.bmQueueSend item).heap = s.heap := by
  unfold TopoContext.bmQueueSend
  split <;> rfl

theorem bmQueueSend_networkTopology (s : TopoContext) (item : BcmpTopoQueueItem) :
    (s.bmQueueSend item).networkTopology = s.networkTopology := by
  unfold TopoContext.bmQueueSend
  split <;> rfl

/-- A session that has started has the root in its list. -/
theorem start_rep {s' : TopoContext} {net : NetworkTopology}
    (h : s.processStartTopologyEvent env = some (s', true)) (hnet : s'.networkTopology = some net) :
    Rep ⟨s'.heap, net⟩ [] (s.fresh, ⟨0, true, env.own⟩) [] := by
  by_cases halloc : env.topologyAlloc = true ∧ env.entryAlloc = true ∧ env.tableAlloc = true
  · rw [processStart_eq s env halloc] at h
    obtain ⟨rfl, -⟩ := Prod.mk.inj (Option.some.inj h)
    rw [bmQueueSend_networkTopology] at hnet
    rw [bmQueueSend_heap, ← Option.some.inj hnet]
    exact newEntry_rep s env.own
  · -- without its memory no session starts
    exfalso
    unfold TopoContext.processStartTopologyEvent at h
    split at h
    · simp at h
    · split at h
      · simp only [Option.bind_eq_bind, Option.bind_eq_some_iff] at h
        obtain ⟨t, -, ht⟩ := h
        simp at ht
      · simp_all

/-! ## The calls -/

/-- An entry that is allocated for an insertion is not in the list. -/
theorem Rep.newEntry (h : Rep m ls c rs) (ha : m.heap a = none) (hroom : m.net.length < 255)
    (v : Visit) :
    Rep (m.allocate a v) ls c rs ∧ NewEntry (m.allocate a v) (ls ++ c :: rs) a v := by
  have hfresh : a ∉ (ls ++ c :: rs).map Prod.fst := by
    intro hmem
    obtain ⟨e, he, rfl⟩ := List.mem_map.mp hmem
    exact h.allocated he ha
  exact ⟨h.update hfresh _, Function.update_self .., hfresh, h.length ▸ hroom⟩

/-- The new entry comes right after the cursor. -/
theorem Rep.runInsertAfter (h : Rep m ls c rs) (hcall : (ListCall.insertAfter a v).Allowed m) :
    ∃ m', (ListCall.insertAfter a v).run m = some m' ∧ Rep m' ls c ((a, v) :: rs) := by
  obtain ⟨hrep, hnew⟩ := h.newEntry hcall.1 hcall.2 v
  obtain ⟨m', hinsert, -, hrep'⟩ := hrep.insertAfter hnew
  exact ⟨m', hinsert, hrep'⟩

/-- The new entry comes right before the cursor. -/
theorem Rep.runInsertBefore (h : Rep m ls c rs) (hcall : (ListCall.insertBefore a v).Allowed m) :
    ∃ m', (ListCall.insertBefore a v).run m = some m' ∧ Rep m' (ls ++ [(a, v)]) c rs := by
  obtain ⟨hrep, hnew⟩ := h.newEntry hcall.1 hcall.2 v
  obtain ⟨m', hinsert, -, hrep'⟩ := hrep.insertBefore hnew
  exact ⟨m', hinsert, hrep'⟩

/-- Every call has a result, and leaves a list with a cursor. -/
theorem Rep.run (h : Rep m ls c rs) {call : ListCall} (hcall : call.Allowed m) :
    ∃ m' ls' c' rs', call.run m = some m' ∧ Rep m' ls' c' rs' := by
  cases call with
  | insertBefore a v =>
    obtain ⟨m', hrun, hrep⟩ := h.runInsertBefore hcall
    exact ⟨m', _, _, _, hrun, hrep⟩
  | insertAfter a v =>
    obtain ⟨m', hrun, hrep⟩ := h.runInsertAfter hcall
    exact ⟨m', _, _, _, hrun, hrep⟩
  | movePrev =>
    rcases List.eq_nil_or_concat ls with rfl | ⟨ls, b, rfl⟩
    · exact ⟨m, _, _, _, h.movePrev_nil, h⟩
    · rw [List.concat_eq_append] at h
      obtain ⟨m', hmove, -, hrep⟩ := h.movePrev
      exact ⟨m', _, _, _, hmove, hrep⟩
  | moveNext =>
    cases rs with
    | nil => exact ⟨m, _, _, _, h.moveNext_nil, h⟩
    | cons b rs =>
      obtain ⟨m', hmove, -, hrep⟩ := h.moveNext
      exact ⟨m', _, _, _, hmove, hrep⟩

theorem Reached.rep (h : Reached s env m) : ∃ ls c rs, Rep m ls c rs := by
  induction h with
  | start hstart hnet => exact ⟨_, _, _, start_rep hstart hnet⟩
  | call call _ hcall hrun ih =>
    obtain ⟨ls, c, rs, hrep⟩ := ih
    obtain ⟨m', ls', c', rs', hrun', hrep'⟩ := hrep.run hcall
    obtain rfl := Option.some.inj (hrun'.symm.trans hrun)
    exact ⟨ls', c', rs', hrep'⟩

/-! ## The end of a list -/

/-- The entries are freed from the last one to the first one. -/
theorem Listed.freed {es : List (Nat × Visit)} (h : Listed m es) :
    TopologyMem.freed es.length m = (es.map Prod.fst).reverse := by
  induction es using List.reverseRecOn generalizing m with
  | nil => rfl
  | append_singleton es c ih =>
    obtain ⟨m', hdelete, -, hlisted, -⟩ := h.deleteBack
    have hback : m.net.back = some c.1 := by rw [h.back, lastAddr_concat]
    rw [List.length_append, List.length_singleton, TopologyMem.freed, hback, hdelete,
      Option.map_some, ih hlisted]
    simp

theorem insertIdx_length (l r : List (Nat × Visit)) (x : Nat × Visit) :
    (l ++ r).insertIdx l.length x = l ++ x :: r := by
  induction l with
  | nil => rfl
  | cons y l ih => rw [List.cons_append, List.length_cons, List.insertIdx_succ_cons, ih]; rfl

/-! ## The law -/

/-- **The topology list is a list with a cursor.** After the start of a session and any calls its
pointers form one chain of as many entries as `length` says, with the cursor at the entry that
`index` says. No call follows a pointer to no entry, an insertion puts the new entry next to the
cursor, which stays at its entry, and `network_topology_clear` frees every entry once. -/
theorem topology_list_represented (h : Reached s env m) : ∃ es, OneChain m es ∧
    (∀ call : ListCall, call.Allowed m → ∃ m', call.run m = some m') ∧
    (∀ a v, (ListCall.insertAfter a v).Allowed m → ∃ m',
      (ListCall.insertAfter a v).run m = some m' ∧ m'.net.cursor = m.net.cursor ∧
        OneChain m' (es.insertIdx (m.net.index.toNat + 1) (a, v))) ∧
    (∀ a v, (ListCall.insertBefore a v).Allowed m → ∃ m',
      (ListCall.insertBefore a v).run m = some m' ∧ m'.net.cursor = m.net.cursor ∧
        OneChain m' (es.insertIdx m.net.index.toNat (a, v))) ∧
    ∃ m', m.clear = some m' ∧ m'.heap = without m.heap es ∧
      TopologyMem.freed m.net.length m = (es.map Prod.fst).reverse := by
  obtain ⟨ls, c, rs, hrep⟩ := h.rep
  refine ⟨ls ++ c :: rs, hrep.oneChain, ?_, ?_, ?_, ?_⟩
  · intro call hcall
    obtain ⟨m', -, -, -, hrun, -⟩ := hrep.run hcall
    exact ⟨m', hrun⟩
  · intro a v hcall
    obtain ⟨m', hrun, hrep'⟩ := hrep.runInsertAfter hcall
    have hplace := insertIdx_length (ls ++ [c]) rs (a, v)
    refine ⟨m', hrun, hrep'.cursor.trans hrep.cursor.symm, ?_⟩
    simp only [List.length_append, List.length_singleton, List.append_assoc,
      List.singleton_append] at hplace
    rw [hrep.index, Int.toNat_natCast, hplace]
    exact hrep'.oneChain
  · intro a v hcall
    obtain ⟨m', hrun, hrep'⟩ := hrep.runInsertBefore hcall
    refine ⟨m', hrun, hrep'.cursor.trans hrep.cursor.symm, ?_⟩
    rw [hrep.index, Int.toNat_natCast, insertIdx_length, ← List.singleton_append,
      ← List.append_assoc]
    exact hrep'.oneChain
  · obtain ⟨m', hclear, hheap⟩ := hrep.clear
    refine ⟨m', hclear, hheap, ?_⟩
    rw [hrep.length]
    exact hrep.freed

/-- The cursor goes from the root to a second entry, a third one is put before it, and the cursor
moves back to that. -/
theorem topology_list_represented_three :
    ∃ m es, Reached .init { own := ⟨10, [], []⟩ } m ∧ OneChain m es ∧ es.length = 3 ∧
      m.net.index = 1 ∧ TopologyMem.freed m.net.length m = (es.map Prod.fst).reverse := by
  let visit : Visit := ⟨0, false, ⟨11, [], []⟩⟩
  have hthree : ∃ m, Reached .init { own := ⟨10, [], []⟩ } m ∧ m.net.length = 3 ∧ m.net.index = 1 :=
    ⟨_, .call .movePrev
      (.call (.insertBefore 9 visit)
        (.call .moveNext
          (.call (.insertAfter 5 visit) (.start rfl rfl) ⟨rfl, by decide⟩ rfl) trivial rfl)
        ⟨rfl, by decide⟩ rfl) trivial rfl, rfl, rfl⟩
  obtain ⟨m, hreached, hlength, hindex⟩ := hthree
  obtain ⟨es, hchain, -, -, -, m', -, -, hfreed⟩ := topology_list_represented hreached
  exact ⟨m, es, hreached, hchain, hchain.length.symm.trans hlength, hindex, hfreed⟩

end BmCore.Topology
