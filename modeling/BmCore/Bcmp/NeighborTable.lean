import BmCore.Bcmp.Neighbors
import BmCore.Library.SinglyLinked
import Mathlib.Data.List.Induction
import Mathlib.Data.List.Perm.Subperm

/-!
# The neighbor table as a list

The neighbors in the order of their links. As long as no two of them have the same node id or the
same port, every operation does on this list what its name says, and no pointer to a freed neighbor
is followed. -/
namespace BmCore.Bcmp
open Library

/-- A neighbor and its link. -/
def mkNeighbor (_prev next : Option Nat) (n : Neighbor) : BcmpNeighbor := ⟨next, n⟩

namespace Neighborhood

/-- The linked neighbors are those of `es`, with their addresses. -/
structure Linked (s : Neighborhood) (es : List (Nat × Neighbor)) : Prop where
  nodup : (es.map Prod.fst).Nodup
  segment : Segment mkNeighbor s.heap.lookup none es none
  head : s.neighbors = headAddr es none

variable {s : Neighborhood} {heap : AList fun _ : Nat => BcmpNeighbor}
    {es pre post : List (Nat × Neighbor)}
  {e : Nat × Neighbor} {p : Option Nat}

theorem Linked.cell (h : Linked s (pre ++ e :: post)) :
    s.heap.lookup e.1 = some ⟨headAddr post none, e.2⟩ := h.segment.cell

theorem Linked.mem_heap (h : Linked s es) {a : Nat} (ha : a ∈ es.map Prod.fst) : a ∈ s.heap := by
  obtain ⟨e, he, rfl⟩ := List.mem_map.mp ha
  obtain ⟨pre, post, rfl⟩ := List.append_of_mem he
  exact AList.lookup_isSome.mp (by simp [h.cell])

theorem Linked.length_le (h : Linked s es) : es.length ≤ s.fuel := by
  have hsub : (es.map Prod.fst).Subperm s.heap.keys :=
    List.Nodup.subperm h.nodup fun a ha => AList.mem_keys.mp (h.mem_heap ha)
  have hle := hsub.length_le
  rwa [List.length_map] at hle

theorem listFrom_segment (h : Segment mkNeighbor heap.lookup p es none) {fuel : Nat}
    (hfuel : es.length ≤ fuel) : listFrom heap fuel (headAddr es none) = es.map Prod.snd := by
  induction es generalizing p fuel with
  | nil => cases fuel <;> rfl
  | cons e es ih =>
    obtain ⟨hcell, hrest⟩ := h
    obtain ⟨fuel, rfl⟩ : ∃ n, fuel = n + 1 := ⟨fuel - 1, by simp at hfuel; omega⟩
    simp only [headAddr_cons, listFrom, hcell, mkNeighbor, List.map_cons]
    rw [ih hrest (by simpa using hfuel)]

theorem Linked.list_eq (h : Linked s es) : s.list = es.map Prod.snd := by
  rw [list, h.head]
  exact listFrom_segment h.segment h.length_le

/-! ## Lookup -/

theorem findLoop_segment (h : Segment mkNeighbor heap.lookup p es none) {fuel : Nat}
    (hfuel : es.length ≤ fuel) (nodeId : UInt64) :
    findLoop heap nodeId fuel (headAddr es none) =
      some ((es.find? fun e => nodeId ≠ 0 ∧ nodeId = e.2.nodeId).map Prod.fst) := by
  induction es generalizing p fuel with
  | nil => cases fuel <;> rfl
  | cons e es ih =>
    obtain ⟨hcell, hrest⟩ := h
    obtain ⟨fuel, rfl⟩ : ∃ n, fuel = n + 1 := ⟨fuel - 1, by simp at hfuel; omega⟩
    simp only [headAddr_cons, findLoop, hcell, mkNeighbor, Option.bind_eq_bind, Option.bind_some]
    by_cases hid : nodeId ≠ 0 ∧ nodeId = e.2.nodeId
    · rw [if_pos hid, List.find?_cons_of_pos (by simpa using hid)]
      rfl
    · rw [if_neg hid, List.find?_cons_of_neg (by simpa using hid), ih hrest (by simpa using hfuel)]

theorem Linked.find (h : Linked s es) (nodeId : UInt64) : s.bcmpFindNeighbor nodeId =
    some ((es.find? fun e => nodeId ≠ 0 ∧ nodeId = e.2.nodeId).map Prod.fst) := by
  rw [bcmpFindNeighbor, h.head]
  exact findLoop_segment h.segment h.length_le nodeId

/-- No two neighbors have the same node id, and none has the node id zero. -/
structure Identified (l : List Neighbor) : Prop where
  nodup : (l.map (·.nodeId)).Nodup
  ne_zero : ∀ n ∈ l, n.nodeId ≠ 0

theorem Linked.find_mem (h : Linked s (pre ++ e :: post))
    (hid : Identified ((pre ++ e :: post).map Prod.snd)) :
    s.bcmpFindNeighbor e.2.nodeId = some (some e.1) := by
  have hne : e.2.nodeId ≠ 0 := hid.ne_zero _ (by simp)
  have hnone : pre.find? (fun f => e.2.nodeId ≠ 0 ∧ e.2.nodeId = f.2.nodeId) = none := by
    rw [List.find?_eq_none]
    intro f hf
    have hnodup := hid.nodup
    simp only [List.map_append, List.map_map, List.map_cons, List.nodup_append] at hnodup
    have := hnodup.2.2 f.2.nodeId (List.mem_map.mpr ⟨f, hf, rfl⟩) e.2.nodeId (by simp)
    simpa [hne] using this.symm
  rw [h.find, List.find?_append, hnone]
  simp [hne]

theorem Linked.find_absent (h : Linked s es) {nodeId : UInt64}
    (hid : nodeId ∉ es.map fun e => e.2.nodeId) : s.bcmpFindNeighbor nodeId = some none := by
  have hnone : es.find? (fun f => nodeId ≠ 0 ∧ nodeId = f.2.nodeId) = none := by
    rw [List.find?_eq_none]
    intro f hf
    have hne : nodeId ≠ f.2.nodeId := by
      rintro rfl
      exact hid (List.mem_map.mpr ⟨f, hf, rfl⟩)
    simp [hne]
  rw [h.find, hnone]
  rfl

/-! ## Removal -/

theorem beforeLoop_segment {f : Nat × Neighbor} {mid : List (Nat × Neighbor)}
    (h : Segment mkNeighbor heap.lookup p (f :: mid ++ e :: post) none)
    (hmid : e.1 ∉ mid.map Prod.fst)
    {fuel : Nat} (hfuel : mid.length < fuel) :
    beforeLoop heap e.1 fuel f.1 = some (lastAddr (some f.1) mid) := by
  induction mid generalizing f p fuel with
  | nil =>
    obtain ⟨fuel, rfl⟩ : ∃ n, fuel = n + 1 := ⟨fuel - 1, by omega⟩
    have hcell : heap.lookup f.1 = some ⟨some e.1, f.2⟩ := h.1
    simp [beforeLoop, hcell]
  | cons g mid ih =>
    obtain ⟨fuel, rfl⟩ : ∃ n, fuel = n + 1 := ⟨fuel - 1, by omega⟩
    have hcell : heap.lookup f.1 = some ⟨some g.1, f.2⟩ := h.1
    have hne : g.1 ≠ e.1 := by
      intro heq
      exact hmid (by simp [heq])
    simp only [beforeLoop, hcell, Option.bind_eq_bind, Option.bind_some, if_neg hne]
    exact ih h.2 (fun hmem => hmid (by simp [hmem])) (by simpa using hfuel)

/-- What the operations of the list leave alone. -/
structure SameBut (s s' : Neighborhood) (as : List Nat) : Prop where
  heap : ∀ a, a ∉ as → s'.heap.lookup a = s.heap.lookup a
  discoveryCb : s'.discoveryCb = s.discoveryCb
  calls : s'.calls = s.calls

theorem SameBut.refl (s : Neighborhood) (as : List Nat) : SameBut s s as :=
  ⟨fun _ _ => rfl, rfl, rfl⟩

/-- The first neighbor is removed. -/
theorem Linked.remove_first (h : Linked s (e :: post)) : ∃ s',
    s.bcmpRemoveNeighborFromTable e.1 = some s' ∧
    Linked s' post ∧ SameBut s s' [e.1] := by
  have hlinked : SinglyLinked (mkNeighbor none) s.heap.lookup (e :: post) none := h.segment
  refine ⟨{ s with heap := s.heap.erase e.1, neighbors := headAddr post none }, ?_,
    ⟨?_, ?_, rfl⟩, ?_⟩
  · have hcell : s.heap.lookup e.1 = some ⟨headAddr post none, e.2⟩ := h.segment.1
    simp [bcmpRemoveNeighborFromTable, hcell, h.head]
  · exact (List.nodup_cons.mp h.nodup).2
  · exact hlinked.unlink_first h.nodup fun a ha => AList.lookup_erase_ne ha
  · refine ⟨fun a ha => AList.lookup_erase_ne ?_, rfl, rfl⟩
    simpa using ha

/-- A later neighbor is removed. -/
theorem Linked.remove_later {l : Nat × Neighbor} (h : Linked s (pre ++ [l] ++ e :: post)) :
    ∃ s', s.bcmpRemoveNeighborFromTable e.1 = some s' ∧ Linked s' (pre ++ [l] ++ post) ∧
      SameBut s s' [l.1, e.1] := by
  have hcell : s.heap.lookup e.1 = some ⟨headAddr post none, e.2⟩ := h.cell
  have hbefore : s.heap.lookup l.1 = some ⟨some e.1, l.2⟩ := by
    have h' := h
    rw [List.append_assoc] at h'
    exact h'.cell
  have hnodup := h.nodup
  simp only [List.map_append, List.map_cons, List.append_assoc, List.nil_append,
    List.cons_append] at hnodup
  have hne : l.1 ≠ e.1 := by grind
  refine ⟨{ s with heap := (s.heap.insert l.1 ⟨headAddr post none, l.2⟩).erase e.1 }, ?_,
    ⟨?_, ?_, ?_⟩, ?_⟩
  · -- the walk from the head ends at the neighbor before
    obtain ⟨f, mid, hfm⟩ : ∃ f mid, pre ++ [l] = f :: mid := by cases pre <;> simp
    have hlast : lastAddr (some f.1) mid = some l.1 := by
      rw [← lastAddr_concat none pre l, hfm]
      rfl
    rw [hfm] at h
    have hmid : e.1 ∉ mid.map Prod.fst ∧ f.1 ≠ e.1 := by
      have hall : e.1 ∉ (f :: mid).map Prod.fst := by
        rw [← hfm]
        grind
      simpa [eq_comm, and_comm] using hall
    have hloop := beforeLoop_segment h.segment hmid.1
      (show mid.length < s.fuel by have := h.length_le; simp at this; omega)
    have hhead : s.neighbors = some f.1 := h.head
    simp [bcmpRemoveNeighborFromTable, hcell, hhead, hmid.2, hloop, hlast, hbefore]
  · simp only [List.map_append, List.map_cons, List.append_assoc, List.nil_append,
      List.cons_append]
    grind
  · have hlinked : SinglyLinked (mkNeighbor none) s.heap.lookup (pre ++ l :: e :: post) none := by
      rw [List.append_cons]
      exact h.segment
    rw [List.append_assoc, List.singleton_append]
    refine hlinked.unlink_later (List.append_cons pre l _ ▸ h.nodup) ?_ fun a hal hae => ?_
    · rw [AList.lookup_erase_ne hne, AList.lookup_insert]
      rfl
    · rw [AList.lookup_erase_ne hae, AList.lookup_insert_ne hal]
  · rw [h.head]
    cases pre <;> rfl
  · refine ⟨fun a ha => ?_, rfl, rfl⟩
    simp only [List.mem_cons, List.not_mem_nil, or_false, not_or] at ha
    rw [AList.lookup_erase_ne ha.2, AList.lookup_insert_ne ha.1]

/-- `bcmp_remove_neighbor_from_table` takes the neighbor out of the list. -/
theorem Linked.remove (h : Linked s (pre ++ e :: post)) : ∃ s',
    s.bcmpRemoveNeighborFromTable e.1 = some s' ∧
    Linked s' (pre ++ post) ∧ SameBut s s' ((pre ++ e :: post).map Prod.fst) := by
  have hmore : ∀ {s' : Neighborhood} {as : List Nat}, SameBut s s' as →
      (∀ a ∈ as, a ∈ (pre ++ e :: post).map Prod.fst) →
      SameBut s s' ((pre ++ e :: post).map Prod.fst) :=
    fun hs hsub => ⟨fun a ha => hs.heap a fun hmem => ha (hsub a hmem), hs.discoveryCb, hs.calls⟩
  rcases List.eq_nil_or_concat pre with rfl | ⟨pre', l, rfl⟩
  · obtain ⟨s', hrun, hlinked, hsame⟩ := Linked.remove_first h
    exact ⟨s', hrun, hlinked, hmore hsame (by simp)⟩
  · rw [List.concat_eq_append] at h hmore ⊢
    obtain ⟨s', hrun, hlinked, hsame⟩ := Linked.remove_later h
    exact ⟨s', hrun, hlinked, hmore hsame (by simp)⟩

/-! ## The port of a new neighbor -/

/-- Where no neighbor has the port, nothing is dropped. -/
theorem Linked.clearPort_skip {port : UInt8} (h : Linked s (pre ++ e :: post))
    (hport : ∀ f ∈ e :: post, f.2.port ≠ port) {fuel : Nat} (hfuel : post.length < fuel) :
    s.clearPortLoop port fuel e.1 = some s := by
  induction post generalizing pre e fuel with
  | nil =>
    obtain ⟨fuel, rfl⟩ : ∃ n, fuel = n + 1 := ⟨fuel - 1, by omega⟩
    have hne : e.2.port ≠ port := hport e (by simp)
    simp [clearPortLoop, h.cell, hne]
  | cons f post ih =>
    obtain ⟨fuel, rfl⟩ : ∃ n, fuel = n + 1 := ⟨fuel - 1, by omega⟩
    have hne : e.2.port ≠ port := hport e (by simp)
    have h' : Linked s (pre ++ [e] ++ f :: post) := by simpa using h
    have hrest := ih h' (fun g hg => hport g (List.mem_cons_of_mem _ hg)) (by simpa using hfuel)
    simp [clearPortLoop, h.cell, h'.cell, hne, hrest]

/-- No two neighbors are on the same port. -/
def PortsDistinct (l : List Neighbor) : Prop := (l.map (·.port)).Nodup

/-- The neighbor on the port is dropped, and the walk goes on behind the one that followed it. -/
theorem Linked.clearPort_found {port : UInt8} (h : Linked s (pre ++ e :: post))
    (hid : Identified ((pre ++ e :: post).map Prod.snd)) (hport : e.2.port = port)
    (hpost : ∀ f ∈ post, f.2.port ≠ port) {fuel : Nat} (hfuel : post.length < fuel) :
    ∃ s', s.clearPortLoop port fuel e.1 = some s' ∧ Linked s' (pre ++ post) ∧
      SameBut s s' ((pre ++ e :: post).map Prod.fst) := by
  obtain ⟨fuel, rfl⟩ : ∃ n, fuel = n + 1 := ⟨fuel - 1, by omega⟩
  obtain ⟨s', hrun, hlinked, hsame⟩ := h.remove
  refine ⟨s', ?_, hlinked, hsame⟩
  have hids := hid.nodup
  simp only [List.map_append, List.map_map, List.map_cons] at hids
  cases post with
  | nil =>
    have hgone : e.2.nodeId ∉ (pre ++ []).map fun f : Nat × Neighbor => f.2.nodeId := by
      rw [List.append_nil]
      simp only [List.nodup_append, List.mem_cons] at hids
      intro hmem
      exact hids.2.2 _ hmem _ (.inl rfl) rfl
    simp [clearPortLoop, h.cell, hport, hrun, hlinked.find_absent hgone]
  | cons f post =>
    have h' : Linked s (pre ++ [e] ++ f :: post) := by simpa using h
    have hid' : Identified ((pre ++ f :: post).map Prod.snd) := by
      refine ⟨?_, fun n hn => hid.ne_zero n ?_⟩
      · simp only [List.map_append, List.map_map, List.map_cons, List.nodup_append,
          List.nodup_cons] at hids ⊢
        exact ⟨hids.1, hids.2.1.2, fun a ha b hb => hids.2.2 a ha b (List.mem_cons_of_mem _ hb)⟩
      · simp only [List.map_append, List.map_cons, List.mem_append, List.mem_cons] at hn ⊢
        tauto
    have hfind := hlinked.find_mem hid'
    cases post with
    | nil => simp [clearPortLoop, h.cell, h'.cell, hport, hrun, hfind, hlinked.cell]
    | cons g post =>
      have hnext : Linked s' (pre ++ [f] ++ g :: post) := by simpa using hlinked
      have hskip := hnext.clearPort_skip (fun x hx => hpost x (List.mem_cons_of_mem _ hx))
        (show post.length < fuel by simp at hfuel; omega)
      simp [clearPortLoop, h.cell, h'.cell, hport, hrun, hfind, hlinked.cell, hskip]

theorem filter_port {port : UInt8} {l : List (Nat × Neighbor)} (h : ∀ f ∈ l, f.2.port ≠ port) :
    l.filter (fun f => f.2.port ≠ port) = l := by
  rw [List.filter_eq_self]
  intro f hf
  simpa using h f hf

/-- The loop drops the neighbor on the port. -/
theorem Linked.clearPort_loop {port : UInt8} (h : Linked s (pre ++ e :: post))
    (hid : Identified ((pre ++ e :: post).map Prod.snd))
    (hports : PortsDistinct ((pre ++ e :: post).map Prod.snd)) (hpre : ∀ f ∈ pre, f.2.port ≠ port)
    {fuel : Nat} (hfuel : post.length < fuel) : ∃ s', s.clearPortLoop port fuel e.1 = some s' ∧
      Linked s' ((pre ++ e :: post).filter fun f => f.2.port ≠ port) ∧
      SameBut s s' ((pre ++ e :: post).map Prod.fst) := by
  induction post generalizing pre e fuel with
  | nil =>
    by_cases hport : e.2.port = port
    · have hfilter : (pre ++ [e]).filter (fun f => f.2.port ≠ port) = pre ++ [] := by
        rw [List.filter_append, List.filter_cons_of_neg (by simp [hport]), filter_port hpre]
        rfl
      rw [hfilter]
      exact h.clearPort_found hid hport (by simp) hfuel
    · have hall : ∀ f ∈ pre ++ [e], f.2.port ≠ port := by
        simpa [or_imp, forall_and, hport] using hpre
      rw [filter_port hall]
      exact ⟨s, h.clearPort_skip (by simpa using hport) hfuel, h, .refl s _⟩
  | cons f post ih =>
    by_cases hport : e.2.port = port
    · -- no other neighbor is on this port
      have hpost : ∀ g ∈ f :: post, g.2.port ≠ port := by
        intro g hg heq
        unfold PortsDistinct at hports
        simp only [List.map_append, List.map_map, List.map_cons, List.nodup_append,
          List.nodup_cons] at hports
        refine hports.2.1.1 ?_
        rw [hport, ← heq]
        exact List.mem_map_of_mem (f := fun x : Nat × Neighbor => x.2.port) hg
      have hfilter : (pre ++ e :: f :: post).filter (fun f => f.2.port ≠ port) = pre ++ f ::
          post := by
        rw [List.filter_append, List.filter_cons_of_neg (by simp [hport]), filter_port hpre,
          filter_port hpost]
      rw [hfilter]
      exact h.clearPort_found hid hport hpost hfuel
    · obtain ⟨fuel, rfl⟩ : ∃ n, fuel = n + 1 := ⟨fuel - 1, by omega⟩
      have hsplit : pre ++ e :: f :: post = pre ++ [e] ++ f :: post := by simp
      have hstep : s.clearPortLoop port (fuel + 1) e.1 = s.clearPortLoop port fuel f.1 := by
        have h' : Linked s (pre ++ [e] ++ f :: post) := hsplit ▸ h
        simp [clearPortLoop, h.cell, h'.cell, hport]
      rw [hstep]
      rw [hsplit] at h hid hports ⊢
      exact ih h hid hports (by simpa [or_imp, forall_and, hport] using hpre) (by simpa using hfuel)

theorem Linked.clearPort (h : Linked s es) (hid : Identified (es.map Prod.snd))
    (hports : PortsDistinct (es.map Prod.snd)) (port : UInt8) :
    ∃ s', s.clearPort port = some s' ∧ Linked s' (es.filter fun f => f.2.port ≠ port) ∧
      SameBut s s' (es.map Prod.fst) := by
  cases es with
  | nil =>
    have hhead : s.neighbors = none := h.head
    exact ⟨s, by simp [Neighborhood.clearPort, hhead], h, .refl s _⟩
  | cons e post =>
    have hhead : s.neighbors = some e.1 := h.head
    have hfuel : post.length < s.fuel := h.length_le
    have hfirst : Linked s ([] ++ e :: post) := h
    simp only [Neighborhood.clearPort, hhead]
    exact hfirst.clearPort_loop hid hports (by simp) hfuel

/-! ## New neighbors -/

theorem lastLoop_segment (h : Segment mkNeighbor heap.lookup p (pre ++ [e]) none) {nodeId : UInt64}
    (hid : ∀ f ∈ pre, f.2.nodeId ≠ nodeId) {fuel : Nat} (hfuel : pre.length < fuel) {first : Nat}
    (hfirst : headAddr (pre ++ [e]) none = some first) :
    lastLoop heap nodeId fuel first = some (some e.1) := by
  induction pre generalizing p fuel first with
  | nil =>
    obtain ⟨fuel, rfl⟩ : ∃ n, fuel = n + 1 := ⟨fuel - 1, by omega⟩
    obtain rfl : e.1 = first := by simpa using hfirst
    have hcell : heap.lookup e.1 = some ⟨none, e.2⟩ := h.1
    simp [lastLoop, hcell]
  | cons f pre ih =>
    obtain ⟨fuel, rfl⟩ : ∃ n, fuel = n + 1 := ⟨fuel - 1, by omega⟩
    obtain rfl : f.1 = first := by simpa using hfirst
    obtain ⟨next, hnext⟩ : ∃ next, headAddr (pre ++ [e]) none = some next := by
      cases pre <;> exact ⟨_, rfl⟩
    have hcell : heap.lookup f.1 = some ⟨some next, f.2⟩ := by
      rw [← hnext]
      exact h.1
    have hne : nodeId ≠ f.2.nodeId := (hid f (by simp)).symm
    have hrest := ih h.2 (fun g hg => hid g (List.mem_cons_of_mem _ hg))
      (by simpa using hfuel) hnext
    simp [lastLoop, hcell, hne, hrest]

/-- A neighbor that is not linked is linked behind the last one. -/
theorem Linked.link (h : Linked s es) {new : Nat} {n : Neighbor} (hnew : new ∉ es.map Prod.fst)
    (hcell : s.heap.lookup new = some ⟨none, n⟩) {nodeId : UInt64}
    (hid : ∀ f ∈ es, f.2.nodeId ≠ nodeId) :
    ∃ s', s.linkNeighbor new nodeId = some (some new, s') ∧ Linked s' (es ++ [(new, n)]) ∧
      s'.discoveryCb = s.discoveryCb ∧ s'.calls = s.calls := by
  rcases List.eq_nil_or_concat es with rfl | ⟨pre, l, rfl⟩
  · refine ⟨{ s with neighbors := some new }, ?_, ⟨by simp, ⟨hcell, trivial⟩, rfl⟩, rfl, rfl⟩
    have hhead : s.neighbors = none := h.head
    simp [linkNeighbor, hhead]
  · rw [List.concat_eq_append] at h hnew hid ⊢
    have hlast : s.heap.lookup l.1 = some ⟨none, l.2⟩ := h.cell
    have hne : new ≠ l.1 := by
      rintro rfl
      exact hnew (by simp)
    obtain ⟨first, hfirst⟩ : ∃ first, headAddr (pre ++ [l]) none = some first := by
      cases pre <;> exact ⟨_, rfl⟩
    have hloop : lastLoop s.heap nodeId s.fuel first = some (some l.1) := by
      refine lastLoop_segment h.segment (fun f hf => hid f (by simp [hf])) ?_ hfirst
      have := h.length_le
      simp at this
      omega
    refine ⟨{ s with heap := s.heap.insert l.1 ⟨some new, l.2⟩ }, ?_, ⟨?_, ?_, ?_⟩, rfl, rfl⟩
    · simp [linkNeighbor, h.head.trans hfirst, hloop, hlast]
    · have hnodup := h.nodup
      rw [List.map_append, List.nodup_append]
      exact ⟨hnodup, by simp, by rintro a ha b hb rfl; simp at hb; exact hnew (hb ▸ ha)⟩
    · have hseg : Segment mkNeighbor s.heap.lookup none (pre ++ [l] ++ []) none := by
        simpa using h.segment
      refine hseg.insert ?_ ?_ (by simp) ?_
      · rw [AList.lookup_insert_ne hne]
        exact hcell
      · intro es' e hes
        obtain ⟨rfl, rfl⟩ : pre = es' ∧ l = e := by simpa using List.append_inj' hes rfl
        exact AList.lookup_insert _
      · intro x hx
        have hmem : x.1 ∈ pre.map Prod.fst := by
          simp only [List.dropLast_concat, List.tail_nil, List.append_nil] at hx
          exact List.mem_map_of_mem hx
        refine AList.lookup_insert_ne ?_
        have hnodup := h.nodup
        simp only [List.map_append, List.map_cons, List.map_nil] at hnodup
        grind
    · refine h.head.trans ?_
      cases pre <;> rfl

/-- `bcmp_add_neighbor` of an unknown node. -/
theorem Linked.add (h : Linked s es) (hid : Identified (es.map Prod.snd))
    (hports : PortsDistinct (es.map Prod.snd)) {nodeId : UInt64} (port : UInt8)
    {answer : Option Nat}
    {new : Nat} (hmalloc : s.malloc answer = some new) (habsent : ∀ f ∈ es, f.2.nodeId ≠ nodeId) :
    ∃ s', s.bcmpAddNeighbor nodeId port answer = some (some new, s') ∧
      Linked s' (es.filter (fun f => f.2.port ≠ port) ++
        [(new, { nodeId := nodeId, port := port })]) ∧
      s'.discoveryCb = s.discoveryCb ∧ s'.calls = s.calls := by
  have hfresh : new ∉ s.heap := by
    have hsome := hmalloc
    rw [malloc, Option.filter_eq_some_iff] at hsome
    simpa using hsome.2
  have hnew : new ∉ es.map Prod.fst := fun hmem => hfresh (h.mem_heap hmem)
  -- the new neighbor is in memory before the walks
  let n : Neighbor := { nodeId := nodeId, port := port }
  generalize hs₁ : { s with heap := s.heap.insert new ⟨none, n⟩ } = s₁
  have hlookup : ∀ a, a ≠ new → s₁.heap.lookup a = s.heap.lookup a := by
    intro a ha
    rw [← hs₁]
    exact AList.lookup_insert_ne ha
  have hcell : s₁.heap.lookup new = some ⟨none, n⟩ := by
    rw [← hs₁]
    exact AList.lookup_insert _
  have h₁ : Linked s₁ es := by
    refine ⟨h.nodup, h.segment.frame fun e he => hlookup e.1 ?_, ?_⟩
    · rintro rfl
      exact hnew (List.mem_map_of_mem he)
    · rw [← hs₁]
      exact h.head
  obtain ⟨s₂, hrun, h₂, hsame⟩ := h₁.clearPort hid hports port
  have hnew₂ : new ∉ (es.filter fun f => f.2.port ≠ port).map Prod.fst := by
    intro hmem
    obtain ⟨e, he, rfl⟩ := List.mem_map.mp hmem
    exact hnew (List.mem_map_of_mem (List.mem_filter.mp he).1)
  obtain ⟨s₃, hlink, h₃, hcb, hcalls⟩ := h₂.link hnew₂ ((hsame.heap new hnew).trans hcell)
    fun f hf => habsent f (List.mem_filter.mp hf).1
  refine ⟨s₃, ?_, h₃, ?_, ?_⟩
  · simp only [bcmpAddNeighbor, hmalloc, Option.bind_eq_bind]
    rw [hs₁, hrun, Option.bind_some, hlink]
  · rw [hcb, hsame.discoveryCb, ← hs₁]
  · rw [hcalls, hsame.calls, ← hs₁]

/-- A neighbor is changed in place. -/
theorem Linked.modify (h : Linked s (pre ++ e :: post)) (f : Neighbor → Neighbor) :
    ∃ s', s.modify e.1 f = some s' ∧ Linked s' (pre ++ (e.1, f e.2) :: post) ∧
      s'.discoveryCb = s.discoveryCb ∧ s'.calls = s.calls ∧ s'.numNeighbors = s.numNeighbors := by
  obtain ⟨hpre, -, hpost⟩ := segment_append.mp h.segment
  have hnodup := h.nodup
  simp only [List.map_append, List.map_cons] at hnodup
  have hother : ∀ x ∈ pre ++ post, x.1 ≠ e.1 := by
    intro x hx
    have hmem : x.1 ∈ pre.map Prod.fst ∨ x.1 ∈ post.map Prod.fst := by
      rcases List.mem_append.mp hx with hx | hx
      · exact .inl (List.mem_map_of_mem hx)
      · exact .inr (List.mem_map_of_mem hx)
    grind
  refine ⟨{ s with heap := s.heap.insert e.1 ⟨headAddr post none, f e.2⟩ }, ?_, ⟨?_, ?_, ?_⟩, rfl,
    rfl, rfl⟩
  · simp [Neighborhood.modify, h.cell]
  · simpa using h.nodup
  · refine segment_append.mpr ⟨hpre.frame fun x hx => ?_, AList.lookup_insert _,
      hpost.frame fun x hx => ?_⟩
    · exact AList.lookup_insert_ne (hother x (by simp [hx]))
    · exact AList.lookup_insert_ne (hother x (by simp [hx]))
  · rw [h.head, headAddr_append, headAddr_append]
    rfl

/-! ## Heartbeats -/

/-- The neighbors are those of `l`. -/
def Stands (s : Neighborhood) (l : List Neighbor) : Prop := ∃ es, Linked s es ∧ es.map Prod.snd = l

theorem Stands.list_eq {l : List Neighbor} (h : s.Stands l) : s.list = l := by
  obtain ⟨es, hes, rfl⟩ := h
  exact hes.list_eq

/-- The calls are irrelevant to the list. -/
theorem Linked.withCalls (h : Linked s es) (calls : List NeighborCall) :
    Linked { s with calls := calls } es := ⟨h.nodup, h.segment, h.head⟩

/-- What a heartbeat of a known neighbor calls. -/
def heartbeatCalls (cb : Bool) (heartbeat : BcmpHeartbeat) (n : Neighbor) : List NeighborCall :=
  (if neighborReset heartbeat n then [.requestInfo n.info.nodeId] else []) ++
    if cb && (!n.online || neighborReset heartbeat n) then [.discovery true n] else []

theorem beatNeighbor_eq {a : Nat} {cell : BcmpNeighbor} (hcell : s.heap.lookup a = some cell)
    (heartbeat : BcmpHeartbeat) (ticks : UInt32) : s.beatNeighbor heartbeat ticks a =
      (Neighborhood.modify a (·.beat heartbeat ticks) { s with
        calls := heartbeatCalls s.discoveryCb heartbeat cell.neighbor ++ s.calls }).map
        (BmErr.ok, ·) := by
  obtain ⟨heap, neighbors, numNeighbors, discoveryCb, expect, calls⟩ := s
  simp only [beatNeighbor, hcell, Option.bind_eq_bind, Option.bind_some, heartbeatCalls,
    bcmpNeighborInvokeDiscoveryCb]
  cases discoveryCb <;> cases cell.neighbor.online <;> cases neighborReset
    heartbeat cell.neighbor <;>
    simp [Option.map_eq_bind, Function.comp_def]

theorem Linked.beat (h : Linked s (pre ++ e :: post)) (heartbeat : BcmpHeartbeat) (ticks : UInt32) :
    ∃ s', s.beatNeighbor heartbeat ticks e.1 = some (.ok, s') ∧
      Linked s' (pre ++ (e.1, e.2.beat heartbeat ticks) :: post) ∧
      s'.calls = heartbeatCalls s.discoveryCb heartbeat e.2 ++ s.calls ∧
      s'.discoveryCb = s.discoveryCb := by
  have hcalls : Linked { s with calls := heartbeatCalls s.discoveryCb heartbeat e.2 ++ s.calls }
    (pre ++ e :: post) := h.withCalls _
  obtain ⟨s', hrun, hlinked, hcb, hcalls', -⟩ := hcalls.modify (·.beat heartbeat ticks)
  refine ⟨s', ?_, hlinked, hcalls', hcb⟩
  rw [beatNeighbor_eq h.cell, hrun]
  rfl

/-- The list with the neighbor of a node id changed. -/
def changeAt (nodeId : UInt64) (f : Neighbor → Neighbor) (l : List Neighbor) : List Neighbor :=
  l.map fun n => if n.nodeId = nodeId then f n else n

theorem changeAt_split {pre post : List Neighbor} {n : Neighbor} (h : Identified (pre ++ n :: post))
    (f : Neighbor → Neighbor) : changeAt n.nodeId f (pre ++ n :: post) = pre ++ f n :: post := by
  have hnodup := h.nodup
  simp only [List.map_append, List.map_cons] at hnodup
  have hsame : ∀ l : List Neighbor, n.nodeId ∉ l.map (·.nodeId) → changeAt n.nodeId f l = l := by
    intro l hl
    unfold changeAt
    conv => rhs; rw [← List.map_id l]
    refine List.map_congr_left fun m hm => if_neg fun heq => hl ?_
    exact heq ▸ List.mem_map_of_mem hm
  have happend : changeAt n.nodeId f (pre ++ n :: post) =
      changeAt n.nodeId f pre ++ f n :: changeAt n.nodeId f post := by simp [changeAt]
  rw [happend, hsame pre (by grind), hsame post (by grind)]

/-- The list after a heartbeat of the node `src` on the port `port`; `ok` says whether there is
memory for a new neighbor. -/
def heard (src : UInt64) (port : UInt8) (heartbeat : BcmpHeartbeat) (ticks : UInt32) (ok : Bool)
    (l : List Neighbor) : List Neighbor :=
  if src ∈ l.map (·.nodeId) then changeAt src (·.beat heartbeat ticks) l
  else if ok then
    l.filter (fun n => n.port ≠ port) ++
    [Neighbor.beat heartbeat ticks { nodeId := src, port := port }]
  else l

/-- What is called after a heartbeat of a new neighbor, latest first. -/
def newCalls (cb : Bool) (src : UInt64) (port : UInt8) : List NeighborCall :=
  let up : List NeighborCall := if cb then [.discovery true { nodeId := src, port := port }] else []
  up ++ .requestInfo src :: up

variable {l : List Neighbor}

/-- A heartbeat of a known neighbor. -/
theorem Stands.heartbeat_known (h : s.Stands l) (hid : Identified l) {n : Neighbor} (hn : n ∈ l)
    (port : UInt8) (heartbeat : BcmpHeartbeat) (ticks : UInt32) (answer : Option Nat) :
    ∃ s', s.bcmpProcessHeartbeat n.nodeId port heartbeat ticks answer = some (.ok, s') ∧
      s'.Stands (changeAt n.nodeId (·.beat heartbeat ticks) l) ∧
      s'.calls = heartbeatCalls s.discoveryCb heartbeat n ++ s.calls ∧
      s'.discoveryCb = s.discoveryCb := by
  obtain ⟨es, hes, rfl⟩ := h
  obtain ⟨e, he, rfl⟩ := List.mem_map.mp hn
  obtain ⟨pre, post, rfl⟩ := List.append_of_mem he
  obtain ⟨s', hrun, hlinked, hcalls, hcb⟩ := hes.beat heartbeat ticks
  refine ⟨s', ?_, ⟨_, hlinked, ?_⟩, hcalls, hcb⟩
  · simp [bcmpProcessHeartbeat, bcmpUpdateNeighbor, hes.find_mem hid, hrun]
  · simp only [List.map_append, List.map_cons] at hid ⊢
    exact (changeAt_split hid _).symm

/-- A heartbeat of a new neighbor, with memory for it. -/
theorem Stands.heartbeat_new (h : s.Stands l) (hid : Identified l) (hports : PortsDistinct l)
    {src : UInt64} (hsrc : src ∉ l.map (·.nodeId)) (port : UInt8) {answer : Option Nat} {new : Nat}
    (hmalloc : s.malloc answer = some new) (heartbeat : BcmpHeartbeat) (ticks : UInt32) :
    ∃ s', s.bcmpProcessHeartbeat src port heartbeat ticks answer = some (.ok, s') ∧
      s'.Stands (l.filter (fun n => n.port ≠ port) ++
        [Neighbor.beat heartbeat ticks { nodeId := src, port := port }]) ∧
      s'.calls = newCalls s.discoveryCb src port ++ s.calls ∧ s'.discoveryCb = s.discoveryCb := by
  obtain ⟨es, hes, rfl⟩ := h
  rw [List.map_map] at hsrc
  have habsent : ∀ f ∈ es, f.2.nodeId ≠ src := by
    rintro f hf rfl
    exact hsrc (List.mem_map.mpr ⟨f, hf, rfl⟩)
  obtain ⟨s₁, hadd, hlinked, hcb, hcalls⟩ := hes.add hid hports port hmalloc habsent
  let n : Neighbor := { nodeId := src, port := port }
  -- the discovery callback and the request for the info come before the heartbeat is looked at
  generalize hs₂ : { s₁ with calls := NeighborCall.requestInfo src ::
    (if s.discoveryCb then [NeighborCall.discovery true n] else []) ++ s.calls } = s₂
  have hlinked₂ : Linked s₂ (es.filter (fun f => f.2.port ≠ port) ++ (new, n) :: []) := by
    rw [← hs₂]
    exact hlinked.withCalls _
  obtain ⟨s₃, hbeat, hlinked₃, hcalls₃, hcb₃⟩ := hlinked₂.beat heartbeat ticks
  have hcb₂ : s₂.discoveryCb = s.discoveryCb := by
    rw [← hs₂]
    exact hcb
  refine ⟨s₃, ?_, ⟨_, hlinked₃, ?_⟩, ?_, hcb₃.trans hcb₂⟩
  · have hupdate : s.bcmpUpdateNeighbor src port answer = some (some new, s₂) := by
      simp only [bcmpUpdateNeighbor, hes.find_absent hsrc, hadd, Option.bind_eq_bind,
        Option.bind_some,
        hlinked.cell, bcmpNeighborInvokeDiscoveryCb, hcb, hcalls]
      rw [← hs₂]
      cases hd : s.discoveryCb <;> simp [n, hcalls, hcb, hd]
    simp [bcmpProcessHeartbeat, hupdate, hbeat]
  · rw [List.map_append, List.filter_map]
    rfl
  · rw [hcalls₃, hcb₂, ← hs₂]
    simp [newCalls, heartbeatCalls, neighborReset, n]

/-- Without memory nothing happens. -/
theorem Stands.heartbeat_refused (h : s.Stands l) {src : UInt64} (hsrc : src ∉ l.map (·.nodeId))
    {port : UInt8} {answer : Option Nat} (hmalloc : s.malloc answer = none)
    (heartbeat : BcmpHeartbeat) (ticks : UInt32) :
    s.bcmpProcessHeartbeat src port heartbeat ticks answer = some (.einval, s) := by
  obtain ⟨es, hes, rfl⟩ := h
  rw [List.map_map] at hsrc
  simp [bcmpProcessHeartbeat, bcmpUpdateNeighbor, hes.find_absent hsrc, bcmpAddNeighbor, hmalloc]

/-! ## Liveness and device info -/

/-- The neighbor after `neighbor_check`. -/
def checked (msToTicks : UInt32 → UInt32) (ticks : UInt32) (n : Neighbor) : Neighbor :=
  if n.online && expired msToTicks ticks n then { n with online := false } else n

/-- What `neighbor_check` calls. -/
def checkCalls (msToTicks : UInt32 → UInt32) (cb : Bool) (ticks : UInt32) (n : Neighbor) :
    List NeighborCall :=
  if cb && n.online && expired msToTicks ticks n then [.discovery false n] else []

/-- The list after a check that is at its round `i`. -/
def checkedFrom (msToTicks : UInt32 → UInt32) (ticks : Nat → UInt32) (i : Nat) :
    List Neighbor → List Neighbor
  | [] => []
  | n :: l => checked msToTicks (ticks i) n :: checkedFrom msToTicks ticks (i + 1) l

/-- What the check calls from its round `i` on, latest first. -/
def checkCallsFrom (msToTicks : UInt32 → UInt32) (cb : Bool) (ticks : Nat → UInt32) (i : Nat) :
    List Neighbor → List NeighborCall
  | [] => []
  | n :: l => checkCallsFrom msToTicks cb ticks (i + 1) l ++ checkCalls msToTicks cb (ticks i) n

variable (msToTicks : UInt32 → UInt32)

theorem Linked.check (h : Linked s (pre ++ e :: post)) (ticks : UInt32) :
    ∃ s', s.neighborCheck msToTicks ticks e.1 = some s' ∧
      Linked s' (pre ++ (e.1, checked msToTicks ticks e.2) :: post) ∧
      s'.calls = checkCalls msToTicks s.discoveryCb ticks e.2 ++ s.calls ∧
      s'.discoveryCb = s.discoveryCb ∧ s'.numNeighbors = s.numNeighbors := by
  by_cases hout : e.2.online && expired msToTicks ticks e.2
  · have hcalls : s.bcmpNeighborInvokeDiscoveryCb false e.2 =
        { s with calls := checkCalls msToTicks s.discoveryCb ticks e.2 ++ s.calls } := by
      obtain ⟨heap, neighbors, numNeighbors, discoveryCb, expect, calls⟩ := s
      cases discoveryCb <;> simp [bcmpNeighborInvokeDiscoveryCb, checkCalls, hout]
    obtain ⟨s', hrun, hlinked, hcb, hcalls', hnum⟩ :=
      (h.withCalls (checkCalls msToTicks s.discoveryCb ticks e.2 ++ s.calls)).modify
        fun n => { n with online := false }
    refine ⟨s', ?_, ?_, hcalls', hcb, hnum⟩
    · simp only [neighborCheck, h.cell, Option.bind_eq_bind, Option.bind_some, if_pos hout,
        hcalls, hrun]
    · rw [checked, if_pos hout]
      exact hlinked
  · refine ⟨s, ?_, ?_, ?_, rfl, rfl⟩
    · simp only [neighborCheck, h.cell, Option.bind_eq_bind, Option.bind_some, if_neg hout]
    · rw [checked, if_neg hout]
      exact h
    · rw [checkCalls, if_neg fun hall => hout ?_]
      · rfl
      · simp only [Bool.and_eq_true] at hall ⊢
        exact ⟨hall.1.2, hall.2⟩

theorem Linked.withNum (h : Linked s es) (num : UInt8) : Linked { s with numNeighbors := num } es :=
  ⟨h.nodup, h.segment, h.head⟩

theorem Linked.checkLoop (h : Linked s (pre ++ post)) (ticks : Nat → UInt32) (i : Nat) {fuel : Nat}
    (hfuel : post.length ≤ fuel) :
    ∃ s' post', s.checkLoop msToTicks ticks fuel i (headAddr post none) = some s' ∧
      Linked s' (pre ++ post') ∧
      post'.map Prod.snd = checkedFrom msToTicks ticks i (post.map Prod.snd) ∧
      s'.calls = checkCallsFrom msToTicks s.discoveryCb ticks i (post.map Prod.snd) ++ s.calls ∧
      s'.discoveryCb = s.discoveryCb ∧ s'.numNeighbors = s.numNeighbors +
        UInt8.ofNat post.length := by
  induction post generalizing s pre i fuel with
  | nil =>
    refine ⟨s, [], ?_, h, rfl, rfl, rfl, by simp⟩
    cases fuel <;> rfl
  | cons e post ih =>
    obtain ⟨fuel, rfl⟩ : ∃ n, fuel = n + 1 := ⟨fuel - 1, by simp at hfuel; omega⟩
    obtain ⟨s₁, hcheck, hlinked, hcalls, hcb, hnum⟩ := h.check msToTicks (ticks i)
    have hcell := hlinked.cell
    have hnext : Linked { s₁ with numNeighbors := s₁.numNeighbors + 1 }
        (pre ++ [(e.1, checked msToTicks (ticks i) e.2)] ++ post) := by
      simpa using hlinked.withNum (s₁.numNeighbors + 1)
    obtain ⟨s₂, post', hrun, hlinked₂, hmap, hcalls₂, hcb₂, hnum₂⟩ :=
      ih hnext (i + 1) (show post.length ≤ fuel by simpa using hfuel)
    refine ⟨s₂, (e.1, checked msToTicks (ticks i) e.2) :: post', ?_, by simpa using hlinked₂, ?_,
      ?_, ?_, ?_⟩
    · simp only [headAddr_cons, Neighborhood.checkLoop, hcheck, Option.bind_eq_bind,
        Option.bind_some]
      simp only at hcell
      rw [hcell, Option.bind_some]
      exact hrun
    · simp [checkedFrom, hmap]
    · simp [checkCallsFrom, hcalls₂, hcalls, hcb]
    · exact hcb₂.trans hcb
    · simp only [hnum₂, hnum, List.length_cons, UInt8.ofNat_add, UInt8.add_assoc]
      congr 1
      exact UInt8.add_comm _ _

/-- `bcmp_check_neighbors` -/
theorem Stands.check (h : s.Stands l) (ticks : Nat → UInt32) :
    ∃ s', s.bcmpCheckNeighbors msToTicks ticks = some s' ∧
    s'.Stands (checkedFrom msToTicks ticks 0 l) ∧
      s'.calls = checkCallsFrom msToTicks s.discoveryCb ticks 0 l ++ s.calls ∧
      s'.discoveryCb = s.discoveryCb ∧ s'.numNeighbors = UInt8.ofNat l.length := by
  obtain ⟨es, hes, rfl⟩ := h
  have hstart : Linked { s with numNeighbors := 0 } ([] ++ es) := hes.withNum 0
  obtain ⟨s', post', hrun, hlinked, hmap, hcalls, hcb, hnum⟩ :=
    hstart.checkLoop msToTicks ticks 0 hes.length_le
  refine ⟨s', ?_, ⟨post', hlinked, hmap⟩, hcalls, hcb, ?_⟩
  · rw [← hes.head] at hrun
    exact hrun
  · simpa using hnum

/-- `bcmp_process_info_reply` -/
theorem Stands.infoReply (h : s.Stands l) (hid : Identified l) (reply : BcmpDeviceInfoReply)
    (pending : Option Bool) (ok : Bool × Bool) :
    ∃ s', s.bcmpProcessInfoReply reply pending ok = some s' ∧
      s'.Stands (if pending = some false then
        changeAt reply.info.nodeId (populateNeighborInfo reply ok) l else l) ∧
      s'.calls = s.calls ∧ s'.discoveryCb = s.discoveryCb := by
  by_cases hpending : pending = some false
  · rw [if_pos hpending]
    obtain rfl := hpending
    obtain ⟨es, hes, rfl⟩ := h
    by_cases hmem : reply.info.nodeId ∈ es.map fun e => e.2.nodeId
    · obtain ⟨e, he, heq⟩ := List.mem_map.mp hmem
      obtain ⟨pre, post, rfl⟩ := List.append_of_mem he
      obtain ⟨s', hrun, hlinked, hcb, hcalls, -⟩ := hes.modify (populateNeighborInfo reply ok)
      refine ⟨s', ?_, ⟨_, hlinked, ?_⟩, hcalls, hcb⟩
      · simp [bcmpProcessInfoReply, ← heq, hes.find_mem hid, hrun]
      · simp only [List.map_append, List.map_cons] at hid ⊢
        rw [← heq]
        exact (changeAt_split hid _).symm
    · have hsame : changeAt reply.info.nodeId (populateNeighborInfo reply ok) (es.map Prod.snd) =
          es.map Prod.snd := by
        rw [changeAt, List.map_map]
        refine List.map_congr_left fun e he => if_neg fun heq => hmem ?_
        exact List.mem_map.mpr ⟨e, he, heq⟩
      rw [hsame]
      have hfind := hes.find_absent hmem
      by_cases hexpect : s.infoExpectNodeId ≠ 0 ∧ reply.info.nodeId = s.infoExpectNodeId
      · refine ⟨{ s with infoExpectNodeId := 0 }, ?_, ⟨es, ⟨hes.nodup, hes.segment, hes.head⟩, rfl⟩,
          rfl, rfl⟩
        simp only [bcmpProcessInfoReply, hfind, Option.bind_eq_bind, Option.bind_some,
          if_pos hexpect]
      · refine ⟨s, ?_, ⟨es, hes, rfl⟩, rfl, rfl⟩
        simp only [bcmpProcessInfoReply, hfind, Option.bind_eq_bind, Option.bind_some,
          if_neg hexpect]
  · rw [if_neg hpending]
    refine ⟨s, ?_, h, rfl, rfl⟩
    rcases pending with _ | _ | _
    · rfl
    · exact absurd rfl hpending
    · rfl

/-! ## Runs -/

/-- One neighbor for each node id and for each port. -/
structure Table (l : List Neighbor) : Prop extends Identified l where
  ports : PortsDistinct l

/-- A change that keeps the node ids and the ports keeps the table. -/
theorem Table.of_map {l' : List Neighbor} (h : Table l)
    (hmap : l'.map (fun n => (n.nodeId, n.port)) = l.map fun n => (n.nodeId, n.port)) :
    Table l' := by
  have hids : l'.map (·.nodeId) = l.map (·.nodeId) := by
    simpa [List.map_map, Function.comp_def] using congrArg (List.map Prod.fst) hmap
  have hports : l'.map (·.port) = l.map (·.port) := by
    simpa [List.map_map, Function.comp_def] using congrArg (List.map Prod.snd) hmap
  refine ⟨⟨hids ▸ h.nodup, fun n hn => ?_⟩, ?_⟩
  · have hmem : n.nodeId ∈ l.map (·.nodeId) := hids ▸ List.mem_map_of_mem hn
    obtain ⟨m, hm, heq⟩ := List.mem_map.mp hmem
    exact heq ▸ h.ne_zero m hm
  · rw [PortsDistinct, hports]
    exact h.ports

theorem changeAt_map {nodeId : UInt64} {f : Neighbor → Neighbor}
    (hf : ∀ n, n.nodeId = nodeId → (f n).nodeId = nodeId ∧ (f n).port = n.port)
    (l : List Neighbor) :
    (changeAt nodeId f l).map (fun n => (n.nodeId, n.port)) = l.map fun n =>
    (n.nodeId, n.port) := by
  rw [changeAt, List.map_map]
  refine List.map_congr_left fun n _ => ?_
  by_cases hn : n.nodeId = nodeId
  · simp [hn, hf n hn]
  · simp [hn]

theorem checkedFrom_map (ticks : Nat → UInt32) (i : Nat) (l : List Neighbor) :
    (checkedFrom msToTicks ticks i l).map (fun n => (n.nodeId, n.port)) =
      l.map fun n => (n.nodeId, n.port) := by
  induction l generalizing i with
  | nil => rfl
  | cons n l ih =>
    have hsame : (checked msToTicks (ticks i) n).nodeId = n.nodeId ∧
        (checked msToTicks (ticks i) n).port = n.port := by
      unfold checked
      split <;> exact ⟨rfl, rfl⟩
    simp [checkedFrom, ih, hsame]

theorem Table.heard (h : Table l) {src : UInt64} (hsrc : src ≠ 0) (port : UInt8)
    (heartbeat : BcmpHeartbeat) (ticks : UInt32) (ok : Bool) :
    Table (heard src port heartbeat ticks ok l) := by
  unfold Neighborhood.heard
  split
  · refine h.of_map (changeAt_map ?_ l)
    intro n hn
    exact ⟨hn, rfl⟩
  · rename_i hnew
    split
    · refine ⟨⟨?_, ?_⟩, ?_⟩
      · rw [List.map_append, List.nodup_append]
        refine ⟨h.nodup.sublist (List.filter_sublist.map _), by simp, ?_⟩
        rintro a ha b hb rfl
        obtain ⟨n, hn, rfl⟩ := List.mem_map.mp ha
        have heq : n.nodeId = src := by simpa [Neighbor.beat] using hb
        exact hnew (heq ▸ List.mem_map_of_mem (List.mem_filter.mp hn).1)
      · intro n hn
        rcases List.mem_append.mp hn with hn | hn
        · exact h.ne_zero n (List.mem_filter.mp hn).1
        · obtain rfl := List.mem_singleton.mp hn
          exact hsrc
      · rw [PortsDistinct, List.map_append, List.nodup_append]
        refine ⟨h.ports.sublist (List.filter_sublist.map _), by simp, ?_⟩
        rintro a ha b hb rfl
        obtain ⟨n, hn, rfl⟩ := List.mem_map.mp ha
        have heq : n.port = port := by simpa [Neighbor.beat] using hb
        exact absurd heq (by simpa using (List.mem_filter.mp hn).2)
    · exact h

/-- What is called after a heartbeat, latest first. -/
def heardCalls (cb : Bool) (src : UInt64) (port : UInt8) (heartbeat : BcmpHeartbeat) (ok : Bool)
    (l : List Neighbor) : List NeighborCall :=
  match l.find? (·.nodeId = src) with
  | some n => heartbeatCalls cb heartbeat n
  | none => if ok then newCalls cb src port else []

theorem find_known {n : Neighbor} (hn : n ∈ l) (hnodup : (l.map (·.nodeId)).Nodup) :
    l.find? (·.nodeId = n.nodeId) = some n := by
  obtain ⟨m, hm⟩ : ∃ m, l.find? (·.nodeId = n.nodeId) = some m := by
    rw [← Option.isSome_iff_exists, List.find?_isSome]
    exact ⟨n, hn, by simp⟩
  have heq : m.nodeId = n.nodeId := by simpa using List.find?_some hm
  rw [hm, List.inj_on_of_nodup_map hnodup (List.mem_of_find?_eq_some hm) hn heq]

theorem find_new {src : UInt64} (hsrc : src ∉ l.map (·.nodeId)) :
    l.find? (·.nodeId = src) = none := by
  rw [List.find?_eq_none]
  rintro n hn heq
  exact hsrc (by simpa using ⟨n, hn, by simpa using heq⟩)

theorem heardCalls_known {n : Neighbor} (hn : n ∈ l) (hnodup : (l.map (·.nodeId)).Nodup) (cb : Bool)
    (port : UInt8) (heartbeat : BcmpHeartbeat) (ok : Bool) :
    heardCalls cb n.nodeId port heartbeat ok l = heartbeatCalls cb heartbeat n := by
  rw [heardCalls, find_known hn hnodup]

theorem heardCalls_new {src : UInt64} (hsrc : src ∉ l.map (·.nodeId)) (cb : Bool) (port : UInt8)
    (heartbeat : BcmpHeartbeat) (ok : Bool) :
    heardCalls cb src port heartbeat ok l = if ok then newCalls cb src port else [] := by
  rw [heardCalls, find_new hsrc]

/-- There is memory for a new neighbor. -/
def hasMemory (s : Neighborhood) (answer : Option Nat) : Bool := (s.malloc answer).isSome

/-- `bcmp_process_heartbeat` -/
theorem Stands.heartbeat (h : s.Stands l) (ht : Table l) (src : UInt64) (port : UInt8)
    (heartbeat : BcmpHeartbeat) (ticks : UInt32) (answer : Option Nat) :
    ∃ s', s.bcmpProcessHeartbeat src port heartbeat ticks answer =
        some (if src ∈ l.map (·.nodeId) ∨ s.hasMemory answer then .ok else .einval, s') ∧
      s'.Stands (heard src port heartbeat ticks (s.hasMemory answer) l) ∧
      s'.calls = heardCalls s.discoveryCb src port heartbeat (s.hasMemory answer) l ++ s.calls ∧
      s'.discoveryCb = s.discoveryCb := by
  by_cases hsrc : src ∈ l.map (·.nodeId)
  · obtain ⟨n, hn, rfl⟩ := List.mem_map.mp hsrc
    obtain ⟨s', hrun, hstands, hcalls, hcb⟩ :=
      h.heartbeat_known ht.toIdentified hn port heartbeat ticks answer
    refine ⟨s', ?_, ?_, ?_, hcb⟩
    · rw [hrun, if_pos (.inl hsrc)]
    · rw [heard, if_pos hsrc]
      exact hstands
    · rw [heardCalls_known hn ht.nodup]
      exact hcalls
  · cases hmalloc : s.malloc answer with
    | some new =>
      obtain ⟨s', hrun, hstands, hcalls, hcb⟩ :=
        h.heartbeat_new ht.toIdentified ht.ports hsrc port hmalloc heartbeat ticks
      refine ⟨s', ?_, ?_, ?_, hcb⟩
      · simp [hrun, hasMemory, hmalloc]
      · rw [heard, if_neg hsrc]
        simpa [hasMemory, hmalloc] using hstands
      · rw [heardCalls_new hsrc]
        simpa [hasMemory, hmalloc] using hcalls
    | none =>
      refine ⟨s, ?_, ?_, ?_, rfl⟩
      · rw [h.heartbeat_refused hsrc hmalloc, if_neg]
        simpa [hasMemory, hmalloc] using hsrc
      · rw [heard, if_neg hsrc]
        simpa [hasMemory, hmalloc] using h
      · rw [heardCalls_new hsrc]
        simp [hasMemory, hmalloc]

/-- The list after an action. -/
def listAfter (s : Neighborhood) (l : List Neighbor) : NeighborAction → List Neighbor
  | .heartbeat src port heartbeat ticks answer =>
    heard src port heartbeat ticks (s.hasMemory answer) l
  | .check ticks => checkedFrom msToTicks ticks 0 l
  | .infoReply reply pending ok =>
    if pending = some false then changeAt reply.info.nodeId (populateNeighborInfo reply ok) l else l
  | .expectInfo _ => l

/-- What an action calls, latest first. -/
def callsOf (s : Neighborhood) (l : List Neighbor) : NeighborAction → List NeighborCall
  | .heartbeat src port heartbeat _ answer =>
    heardCalls s.discoveryCb src port heartbeat (s.hasMemory answer) l
  | .check ticks => checkCallsFrom msToTicks s.discoveryCb ticks 0 l
  | _ => []

/-- A heartbeat comes from a node. -/
def Sourced : NeighborAction → Prop
  | .heartbeat src _ _ _ _ => src ≠ 0
  | _ => True

/-- Every action does on the list what it is for. -/
theorem Stands.exec (h : s.Stands l) (ht : Table l) (a : NeighborAction) :
    ∃ s', s.exec msToTicks a = some s' ∧ s'.Stands (listAfter msToTicks s l a) ∧
      s'.calls = callsOf msToTicks s l a ++ s.calls ∧ s'.discoveryCb = s.discoveryCb := by
  cases a with
  | heartbeat src port heartbeat ticks answer =>
    obtain ⟨s', hrun, hrest⟩ := h.heartbeat ht src port heartbeat ticks answer
    exact ⟨s', by simp [Neighborhood.exec, hrun], hrest⟩
  | check ticks =>
    obtain ⟨s', hrun, hstands, hcalls, hcb, -⟩ := h.check msToTicks ticks
    exact ⟨s', hrun, hstands, hcalls, hcb⟩
  | infoReply reply pending ok => exact h.infoReply ht.toIdentified reply pending ok
  | expectInfo nodeId =>
    obtain ⟨es, hes, rfl⟩ := h
    exact ⟨_, rfl, ⟨es, ⟨hes.nodup, hes.segment, hes.head⟩, rfl⟩, rfl, rfl⟩

theorem Table.listAfter (ht : Table l) {a : NeighborAction} (ha : Sourced a) :
    Table (listAfter msToTicks s l a) := by
  cases a with
  | heartbeat src port heartbeat ticks answer => exact ht.heard ha port heartbeat ticks _
  | check ticks => exact ht.of_map (checkedFrom_map msToTicks ticks 0 l)
  | infoReply reply pending ok =>
    simp only [Neighborhood.listAfter]
    split
    · refine ht.of_map (changeAt_map ?_ l)
      intro n _
      exact ⟨rfl, rfl⟩
    · exact ht
  | expectInfo nodeId => exact ht

/-- The table after a run of actions. -/
def after (cb : Bool) (actions : List NeighborAction) : Option Neighborhood :=
  actions.foldlM (exec msToTicks) (init cb)

theorem stands_init (cb : Bool) : Stands (init cb) [] := ⟨[], ⟨by simp, trivial, rfl⟩, rfl⟩

theorem table_nil : Table [] := ⟨⟨by simp, by simp⟩, by simp [PortsDistinct]⟩

/-- What every action keeps holds after every run. -/
theorem after_rule (Inv : Neighborhood → List Neighbor → Prop) {P : NeighborAction → Prop}
    (cb : Bool) (hP : ∀ a, P a → Sourced a) (hinit : Inv (init cb) [])
    (hstep : ∀ s l a s', s.Stands l → Table l → Inv s l → P a → s.exec msToTicks a = some s' →
      s'.Stands (listAfter msToTicks s l a) → s'.calls = callsOf msToTicks s l a ++ s.calls →
      s'.discoveryCb = s.discoveryCb → Inv s' (listAfter msToTicks s l a))
    {actions : List NeighborAction} (hactions : ∀ a ∈ actions, P a) :
    ∃ s l, after msToTicks cb actions = some s ∧ s.Stands l ∧ Table l ∧ Inv s l := by
  induction actions using List.reverseRecOn with
  | nil => exact ⟨init cb, [], rfl, stands_init cb, table_nil, hinit⟩
  | append_singleton actions a ih =>
    obtain ⟨s, l, hrun, hstands, ht, hinv⟩ := ih fun b hb => hactions b (by simp [hb])
    have ha : P a := hactions a (by simp)
    obtain ⟨s', hexec, hstands', hcalls, hcb⟩ := hstands.exec msToTicks ht a
    refine ⟨s', _, ?_, hstands', ht.listAfter msToTicks (hP a ha),
      hstep s l a s' hstands ht hinv ha hexec hstands' hcalls hcb⟩
    rw [after, List.foldlM_append]
    rw [after] at hrun
    simp [hrun, hexec]

end Neighborhood

end BmCore.Bcmp
