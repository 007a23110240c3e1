import BmCore.Library.SinglyLinked
import BmCore.Middleware.ServiceRequest
import Mathlib.Data.List.AList
import Mathlib.Data.List.Perm.Subperm
import Mathlib.Tactic.Ring

/-!
# One pass of the expiry timer of service requests

The list of requests in memory. After each removal `_service_request_timer_expiry_cb` starts again
at the head, so that it looks at the requests in front of the removed one once more; the clock shows
one time during the pass. A walk that never ends has no result, nor has an access to a freed
node. -/
namespace BmCore.Middleware
open Library

/-- `BmServiceRequestNode` with its link. -/
structure RequestCell where
  next : Option Nat
  node : BmServiceRequestNode

def mkRequest (next : Option Nat) (node : BmServiceRequestNode) : RequestCell := ⟨next, node⟩

/-- `CTX.service_request_list` and the nodes it leads to. -/
structure RequestMemory where
  heap : AList fun _ : Nat => RequestCell
  serviceRequestList : Option Nat

/-- `reply_cb(false, id, service_strlen, service, 0, NULL)` -/
structure ExpiryReply where
  replyCb : Nat
  id : UInt32
  service : ServiceName
  deriving DecidableEq

namespace BmServiceRequestNode
variable (node : BmServiceRequestNode)

/-- No time remains. -/
def timedOut (ticks : Ticks) (now : UInt32) : Bool :=
  timeRemainingMs ticks node.requestStartMs node.timeoutMs now == 0

def expiryReply : Option ExpiryReply := node.replyCb.map fun cb => ⟨cb, node.id, node.service⟩

end BmServiceRequestNode

/-! ## The list of nodes -/

section Nodes
variable {ticks : Ticks} {now : UInt32}

/-- With one time for the whole pass, the next node is the first one that is timed out. -/
theorem nextExpired_const (k : Nat) (list : List BmServiceRequestNode) :
    (nextExpired ticks (fun _ => now) k list).map Prod.fst = list.find? (·.timedOut ticks now) := by
  induction list generalizing k with
  | nil => rfl
  | cons node list ih =>
    rw [nextExpired]
    by_cases hout : timeRemainingMs ticks node.requestStartMs node.timeoutMs now = 0
    · simp [BmServiceRequestNode.timedOut, hout]
    · rw [if_neg hout, ih, List.find?_cons_of_neg (by simp [BmServiceRequestNode.timedOut, hout])]

/-- On the list of its nodes, a pass at a time splits the requests into those that are timed out and
the others. -/
theorem expire_const {fuel : Nat} {list : List BmServiceRequestNode}
    (hnodup : (list.map (·.call)).Nodup)
    (hfuel : (list.filter (·.timedOut ticks now)).length ≤ fuel) (k : Nat) :
    expire ticks (fun _ => now) fuel k list =
      (list.filter fun node => !node.timedOut ticks now, list.filter (·.timedOut ticks now)) := by
  have hfind : (nextExpired ticks (fun _ => now) k list).map Prod.fst = _ :=
    nextExpired_const k list
  induction fuel generalizing list k with
  | zero =>
    have hnone : list.filter (·.timedOut ticks now) = [] := List.eq_nil_of_length_eq_zero (by omega)
    have hall : list.filter (fun node => !node.timedOut ticks now) = list :=
      List.filter_eq_self.mpr (by simpa using hnone)
    rw [expire, hnone, hall]
  | succ fuel ih =>
    rw [expire]
    cases hnext : nextExpired ticks (fun _ => now) k list with
    | none =>
      rw [hnext, Option.map_none, eq_comm, List.find?_eq_none] at hfind
      have hnone : list.filter (·.timedOut ticks now) = [] := List.filter_eq_nil_iff.mpr hfind
      have hall : list.filter (fun node => !node.timedOut ticks now) = list :=
        List.filter_eq_self.mpr (by simpa using hfind)
      rw [hnone, hall]
    | some result =>
      obtain ⟨node, k'⟩ := result
      rw [hnext, Option.map_some, eq_comm, List.find?_eq_some_iff_append] at hfind
      obtain ⟨hout, pre, post, rfl, hpre⟩ := hfind
      have hother : ∀ n ∈ pre, ¬ (n.call == node.call) = true := by
        intro n hn heq
        rw [List.map_append, List.map_cons, List.nodup_append] at hnodup
        exact hnodup.2.2 n.call (List.mem_map_of_mem hn) node.call (by simp) (by simpa using heq)
      have hremove : requestListRemoveRequest (pre ++ node :: post) node = pre ++ post := by
        rw [requestListRemoveRequest, List.eraseP_append_right _ hother]
        simp
      have hnone : pre.filter (·.timedOut ticks now) = [] :=
        List.filter_eq_nil_iff.mpr fun n hn => by simpa using hpre n hn
      have hsub : (pre ++ post).Sublist (pre ++ node :: post) := by simp
      have hrest := ih ((hsub.map _).nodup hnodup)
        (by simpa [List.filter_append, hnone, hout] using hfuel) k' (nextExpired_const k' _)
      simp only [hremove, hrest, List.filter_append, hnone, List.nil_append, Prod.mk.injEq]
      simp [hout]

end Nodes

/-! ## The list in memory -/

namespace RequestMemory

/-- No walk along the links meets more nodes than the memory holds. -/
def fuel (m : RequestMemory) : Nat := m.heap.keys.length

/-- The loop of `_request_list_remove_request`: the node that links to `node`, if there is one. -/
def beforeLoop (heap : AList fun _ : Nat => RequestCell) (node : Nat) :
    Nat → Option Nat → Option (Option Nat)
  | _, none => some none
  | 0, some _ => none
  | fuel + 1, some current => do
    let cell ← heap.lookup current
    if cell.next ≠ some node then beforeLoop heap node fuel cell.next else some (some current)

/-- `_request_list_remove_request` -/
def requestListRemoveRequest (node : Nat) (m : RequestMemory) : Option RequestMemory := do
  if m.serviceRequestList = some node then
    let cell ← m.heap.lookup node
    some ⟨m.heap.erase node, cell.next⟩
  else
    match ← beforeLoop m.heap node m.fuel m.serviceRequestList with
    | none => some m
    | some current =>
      let before ← m.heap.lookup current
      let cell ← m.heap.lookup node
      some { m with heap := (m.heap.insert current { before with next := cell.next }).erase node }

/-- The loop of `_service_request_timer_expiry_cb`, for as many rounds as `fuel` allows. -/
def expiryLoop (ticks : Ticks) (now : UInt32) :
    (fuel : Nat) → (current : Option Nat) → RequestMemory → List ExpiryReply →
    Option (RequestMemory × List ExpiryReply)
  | _, none, m, replies => some (m, replies)
  | 0, some _, _, _ => none
  | fuel + 1, some current, m, replies => do
    let cell ← m.heap.lookup current
    if cell.node.timedOut ticks now then
      let m ← m.requestListRemoveRequest current
      expiryLoop ticks now fuel m.serviceRequestList m (replies ++ cell.node.expiryReply.toList)
    else expiryLoop ticks now fuel cell.next m replies

/-- `_service_request_timer_expiry_cb` with `fuel` rounds: what it leaves and the replies it
makes. -/
def serviceRequestTimerExpiryCb (ticks : Ticks) (lock : Bool) (now : UInt32) (fuel : Nat)
    (m : RequestMemory) : Option (RequestMemory × List ExpiryReply) :=
  if !lock then some (m, []) else expiryLoop ticks now fuel m.serviceRequestList m []

/-- The list leads to the nodes of `es`, with their addresses. -/
structure Linked (m : RequestMemory) (es : List (Nat × BmServiceRequestNode)) : Prop where
  nodup : (es.map Prod.fst).Nodup
  links : SinglyLinked mkRequest m.heap.lookup es none
  head : m.serviceRequestList = headAddr es none

section Removal
variable {m : RequestMemory} {es pre post : List (Nat × BmServiceRequestNode)}
  {e l : Nat × BmServiceRequestNode}

theorem Linked.cell (h : Linked m (pre ++ e :: post)) :
    m.heap.lookup e.1 = some ⟨headAddr post none, e.2⟩ := h.links.cell

theorem Linked.length_le (h : Linked m es) : es.length ≤ m.fuel := by
  have hmem : ∀ a ∈ es.map Prod.fst, a ∈ m.heap.keys := by
    intro a ha
    obtain ⟨e, he, rfl⟩ := List.mem_map.mp ha
    obtain ⟨pre, post, rfl⟩ := List.append_of_mem he
    exact AList.mem_keys.mp (AList.lookup_isSome.mp (by simp [h.cell]))
  have hle := (List.Nodup.subperm h.nodup hmem).length_le
  rwa [List.length_map] at hle

/-- The walk from the head stops at the node before. -/
theorem beforeLoop_eq {heap : AList fun _ : Nat => RequestCell}
    (h : SinglyLinked mkRequest heap.lookup (pre ++ l :: e :: post) none)
    (hnot : e.1 ∉ pre.map Prod.fst) (hne : l.1 ≠ e.1) {fuel : Nat} (hfuel : pre.length < fuel) :
    beforeLoop heap e.1 fuel (headAddr (pre ++ l :: e :: post) none) = some (some l.1) := by
  induction pre generalizing fuel with
  | nil =>
    obtain ⟨fuel, rfl⟩ : ∃ n, fuel = n + 1 := ⟨fuel - 1, by omega⟩
    have hcell : heap.lookup l.1 = some ⟨some e.1, l.2⟩ := (singlyLinked_cons.mp h).1
    simp [beforeLoop, hcell]
  | cons f pre ih =>
    obtain ⟨fuel, rfl⟩ : ∃ n, fuel = n + 1 := ⟨fuel - 1, by omega⟩
    obtain ⟨hcell, hrest⟩ := singlyLinked_cons.mp h
    have hcell : heap.lookup f.1 = some ⟨headAddr (pre ++ l :: e :: post) none, f.2⟩ := hcell
    have hnext : headAddr (pre ++ l :: e :: post) none ≠ some e.1 := by
      cases pre with
      | nil => simpa using hne
      | cons g pre =>
        intro heq
        exact hnot (by simp [← Option.some.inj heq])
    have hloop := ih hrest (fun hmem => hnot (by simp [hmem])) (Nat.lt_of_succ_lt_succ hfuel)
    simp only [List.cons_append, headAddr_cons, beforeLoop, hcell, Option.bind_eq_bind,
      Option.bind_some, if_pos hnext, hloop]

/-- A node is taken out of the list and freed, wherever it is. -/
theorem Linked.remove (h : Linked m (pre ++ e :: post)) :
    ∃ m', m.requestListRemoveRequest e.1 = some m' ∧ Linked m' (pre ++ post) ∧
      ∀ a, a ∈ m'.heap ↔ a ≠ e.1 ∧ a ∈ m.heap := by
  have hcell := h.cell
  have hnodup := h.nodup
  have hsub : (pre ++ post).Sublist (pre ++ e :: post) := by simp
  rcases List.eq_nil_or_concat pre with rfl | ⟨ps, l, rfl⟩
  · have hhead : m.serviceRequestList = some e.1 := h.head
    refine ⟨⟨m.heap.erase e.1, headAddr post none⟩, ?_, ⟨(hsub.map _).nodup hnodup, ?_, rfl⟩,
      fun a => AList.mem_erase⟩
    · simp [requestListRemoveRequest, hhead, hcell]
    · exact h.links.unlink_first hnodup fun a ha => AList.lookup_erase_ne ha
  · simp only [List.concat_eq_append, List.append_assoc, List.singleton_append] at *
    have hlast : m.heap.lookup l.1 = some ⟨some e.1, l.2⟩ := h.cell
    have hdistinct : l.1 ≠ e.1 ∧ e.1 ∉ ps.map Prod.fst := by
      simp only [List.map_append, List.map_cons, List.nodup_append, List.nodup_cons] at hnodup
      exact ⟨fun heq => hnodup.2.1.1 (by simp [heq]),
        fun hmem => hnodup.2.2 _ hmem e.1 (by simp) rfl⟩
    have hhead : m.serviceRequestList ≠ some e.1 := by
      rw [h.head]
      cases ps with
      | nil => simpa using hdistinct.1
      | cons f ps =>
        intro heq
        exact hdistinct.2 (by simp [← Option.some.inj heq])
    have hlength := h.length_le
    have hbefore := beforeLoop_eq h.links hdistinct.2 hdistinct.1
      (show ps.length < m.fuel by simp at hlength; omega)
    rw [← h.head] at hbefore
    refine ⟨{ m with heap := (m.heap.insert l.1 ⟨headAddr post none, l.2⟩).erase e.1 }, ?_,
      ⟨(hsub.map _).nodup hnodup, ?_, ?_⟩, fun a => ?_⟩
    · simp [requestListRemoveRequest, hhead, hbefore, hlast, hcell]
    · refine h.links.unlink_later hnodup ?_ fun a hal hae => ?_
      · rw [AList.lookup_erase_ne hdistinct.1, AList.lookup_insert]
        rfl
      · rw [AList.lookup_erase_ne hae, AList.lookup_insert_ne hal]
    · rw [h.head]
      cases ps <;> rfl
    · have hl : l.1 ∈ m.heap := AList.lookup_isSome.mp (by simp [hlast])
      simp only [AList.mem_erase, AList.mem_insert]
      refine and_congr_right fun _ => ⟨?_, .inr⟩
      rintro (rfl | ha)
      · exact hl
      · exact ha

end Removal

/-! ## The pass -/

section Pass
variable (ticks : Ticks) (now : UInt32)

/-- The replies of a pass over the requests. -/
def expiryReplies (requests : List (Nat × BmServiceRequestNode)) : List ExpiryReply :=
  (requests.filter (·.2.timedOut ticks now)).filterMap (·.2.expiryReply)

variable {ticks now} {m : RequestMemory} {pre post : List (Nat × BmServiceRequestNode)}
  {e : Nat × BmServiceRequestNode}

/-- The rounds that a loop at `post` may need: it goes on to the end of the list, or starts again
with a shorter list. -/
def rounds (pre post : List (Nat × BmServiceRequestNode)) : Nat :=
  post.length + (pre ++ post).length ^ 2

theorem rounds_restart : rounds [] (pre ++ post) + 1 ≤ rounds pre (e :: post) := by
  have hlength : (pre ++ e :: post).length = (pre ++ post).length + 1 := by
    simp only [List.length_append, List.length_cons]
    omega
  have hsquare : ∀ n : Nat, (n + 1) ^ 2 = n + n ^ 2 + (n + 1) := fun n => by ring
  rw [rounds, rounds, hlength, hsquare, List.nil_append]
  omega

theorem rounds_advance : rounds (pre ++ [e]) post + 1 = rounds pre (e :: post) := by
  rw [rounds, rounds, List.append_assoc, List.singleton_append, List.length_cons]
  omega

/-- With nothing expired in front of it, the loop comes to the end. -/
theorem expiryLoop_eq (h : Linked m (pre ++ post)) (hpre : ∀ e ∈ pre, ¬ e.2.timedOut ticks now)
    {bound : Nat} (hbound : rounds pre post ≤ bound) (replies : List ExpiryReply) :
    ∃ m', (∀ fuel, rounds pre post ≤ fuel →
        expiryLoop ticks now fuel (headAddr post none) m replies =
          some (m', replies ++ expiryReplies ticks now post)) ∧
      Linked m' (pre ++ post.filter fun e => !e.2.timedOut ticks now) ∧
      ∀ a, a ∈ m'.heap ↔
        a ∈ m.heap ∧ a ∉ (post.filter (·.2.timedOut ticks now)).map Prod.fst := by
  induction bound generalizing m pre post replies with
  | zero =>
    obtain rfl : post = [] := List.eq_nil_of_length_eq_zero (by rw [rounds] at hbound; omega)
    exact ⟨m, by simp [expiryLoop, expiryReplies], by simpa using h, by simp⟩
  | succ bound ih =>
    cases post with
    | nil => exact ⟨m, by simp [expiryLoop, expiryReplies], by simpa using h, by simp⟩
    | cons e post =>
      have hcell := h.cell
      cases hout : e.2.timedOut ticks now with
      | true =>
        obtain ⟨m₁, hremove, hlinked, hheap₁⟩ := h.remove
        have hnone : pre.filter (fun e => e.2.timedOut ticks now) = [] :=
          List.filter_eq_nil_iff.mpr hpre
        have hall : pre.filter (fun e => !e.2.timedOut ticks now) = pre :=
          List.filter_eq_self.mpr fun f hf => by simpa using hpre f hf
        have hless : rounds [] (pre ++ post) + 1 ≤ rounds pre (e :: post) := rounds_restart
        have hrestart : Linked m₁ ([] ++ (pre ++ post)) := hlinked
        obtain ⟨m', hloop, hlinked', hheap'⟩ := ih hrestart (by simp) (by omega)
          (replies ++ e.2.expiryReply.toList)
        refine ⟨m', fun fuel hfuel => ?_, ?_, fun a => ?_⟩
        · obtain ⟨fuel, rfl⟩ : ∃ n, fuel = n + 1 := ⟨fuel - 1, by omega⟩
          rw [headAddr_cons, expiryLoop, hcell]
          simp only [Option.bind_eq_bind, Option.bind_some, hout, if_true, hremove, hlinked.head,
            hloop fuel (by omega), expiryReplies, List.filter_append, hnone, List.nil_append,
            List.append_assoc]
          cases hreply : e.2.expiryReply <;> simp [hout, hreply]
        · simpa [List.filter_append, hall, hout] using hlinked'
        · rw [hheap', hheap₁, List.filter_append, hnone]
          simp [hout]
          tauto
      | false =>
        have hless : rounds (pre ++ [e]) post + 1 = rounds pre (e :: post) := rounds_advance
        have hsplit : Linked m ((pre ++ [e]) ++ post) := by simpa using h
        have hpre' : ∀ f ∈ pre ++ [e], ¬ f.2.timedOut ticks now := by
          simpa [or_imp, forall_and, hout] using hpre
        obtain ⟨m', hloop, hlinked', hheap'⟩ := ih hsplit hpre' (by omega) replies
        refine ⟨m', fun fuel hfuel => ?_, ?_, fun a => ?_⟩
        · obtain ⟨fuel, rfl⟩ : ∃ n, fuel = n + 1 := ⟨fuel - 1, by omega⟩
          rw [headAddr_cons, expiryLoop, hcell]
          simp [hout, hloop fuel (by omega), expiryReplies]
        · simpa [hout] using hlinked'
        · simpa [hout] using hheap' a

/-- A pass of the timer at a time ends, replies once for every request that has no time left and
takes exactly these out of the list; the others stay in their order. -/
theorem service_expiry_pass (m : RequestMemory) (es : List (Nat × BmServiceRequestNode))
    (h : Linked m es) (ticks : Ticks) (now : UInt32) : ∃ m',
    (∀ fuel, es.length + es.length ^ 2 ≤ fuel →
      m.serviceRequestTimerExpiryCb ticks true now fuel =
        some (m', expiryReplies ticks now es)) ∧
    Linked m' (es.filter fun e => !e.2.timedOut ticks now) ∧
    ∀ a, a ∈ m'.heap ↔ a ∈ m.heap ∧ a ∉ (es.filter (·.2.timedOut ticks now)).map Prod.fst := by
  have hlist : Linked m ([] ++ es) := h
  have hfront : ∀ e ∈ ([] : List (Nat × BmServiceRequestNode)), ¬ e.2.timedOut ticks now := by
    simp
  obtain ⟨m', hloop, hlinked, hheap⟩ := expiryLoop_eq hlist hfront (le_refl _) []
  refine ⟨m', fun fuel hfuel => ?_, hlinked, hheap⟩
  rw [serviceRequestTimerExpiryCb, h.head]
  exact hloop fuel hfuel

/-- The pass in memory does what the pass over the list of the nodes does. -/
theorem Linked.expiry_refines {es : List (Nat × BmServiceRequestNode)} (h : Linked m es)
    (hcalls : (es.map (·.2.call)).Nodup) :
    let pass := Middleware.serviceRequestTimerExpiryCb ticks true (fun _ => now) (es.map Prod.snd)
    ∃ m' es', m.serviceRequestTimerExpiryCb ticks true now (rounds [] es) =
        some (m', pass.2.filterMap (·.expiryReply)) ∧
      Linked m' es' ∧ es'.map Prod.snd = pass.1 := by
  have hlist : Linked m ([] ++ es) := h
  have hfront : ∀ e ∈ ([] : List (Nat × BmServiceRequestNode)), ¬ e.2.timedOut ticks now := by
    simp
  obtain ⟨m', hloop, hlinked, -⟩ := expiryLoop_eq hlist hfront (le_refl _) []
  have hpass := hloop _ (le_refl _)
  rw [← h.head] at hpass
  have hnodup : ((es.map Prod.snd).map (·.call)).Nodup := by simpa [Function.comp_def] using hcalls
  simp only [Middleware.serviceRequestTimerExpiryCb, Bool.not_true, Bool.false_eq_true, if_false,
    expire_const hnodup (List.length_filter_le _ _) 0]
  refine ⟨m', _, hpass.trans ?_, hlinked, ?_⟩
  · simp [expiryReplies, List.filter_map, List.filterMap_map, Function.comp_def]
  · simp [List.filter_map, Function.comp_def]

/-- A request for the service `a`, made by the call `call` and numbered likewise. -/
def requestAt (call : Nat) (replyCb : Option Nat) (timeoutMs requestStartMs : UInt32) :
    BmServiceRequestNode :=
  ⟨call, nameA, replyCb, timeoutMs, requestStartMs, .ofNat call⟩

/-- At 1100 ms the first, the third and the last request have no time left. -/
def fourRequests : List (Nat × BmServiceRequestNode) :=
  [(40, requestAt 0 (some 7) 1000 0), (10, requestAt 1 (some 8) 1000 900),
    (30, requestAt 2 none 1000 100), (20, requestAt 3 (some 9) 500 600)]

def fourMemory : RequestMemory where
  heap := ([⟨40, some 10, requestAt 0 (some 7) 1000 0⟩,
    ⟨10, some 30, requestAt 1 (some 8) 1000 900⟩, ⟨30, some 20, requestAt 2 none 1000 100⟩,
    ⟨20, none, requestAt 3 (some 9) 500 600⟩] : List (Sigma fun _ : Nat => RequestCell)).toAList
  serviceRequestList := some 40

theorem service_expiry_pass_four : ∃ m',
    (∀ fuel, 20 ≤ fuel → fourMemory.serviceRequestTimerExpiryCb posixTicks true 1100 fuel =
      some (m', [⟨7, 0, ⟨[0x61], by decide⟩⟩, ⟨9, 3, ⟨[0x61], by decide⟩⟩])) ∧
    Linked m' [(10, requestAt 1 (some 8) 1000 900)] ∧
    ∀ a, a ∈ m'.heap ↔ a ∈ fourMemory.heap ∧ a ∉ [40, 30, 20] :=
  service_expiry_pass fourMemory fourRequests
    ⟨by decide, ⟨rfl, rfl, rfl, rfl, trivial⟩, rfl⟩ posixTicks 1100

end Pass

end RequestMemory

end BmCore.Middleware
