import BmCore.Integrations.Topology
import BmCore.Library.DoublyLinked
import Mathlib.Data.List.Range
import Mathlib.Data.List.Perm.Subperm

/-!
# The list of entries

The entries of a topology in the order of their links, cut at the cursor. Every operation of the
list does on this view what its name says, as long as the list has at most 255 entries: its length
is a `uint8_t`. -/
namespace BmCore.Topology
open Library

/-- An entry without its links. -/
structure Visit where
  portsExplored : Nat
  isRoot : Bool
  table : BcmpNeighborTableReply
  deriving DecidableEq

def mkEntry (prevNode nextNode : Option Nat) (v : Visit) : NeighborTableEntry :=
  ⟨prevNode, nextNode, v.portsExplored, v.isRoot, v.table⟩

/-- A port of the entry has been explored. -/
def Visit.explore (v : Visit) : Visit := { v with portsExplored := (v.portsExplored + 1) % 256 }

variable {m : TopologyMem} {ls rs es : List (Nat × Visit)} {b c : Nat × Visit}

/-- The linked entries are those of `es`. -/
structure Listed (m : TopologyMem) (es : List (Nat × Visit)) : Prop where
  segment : Segment mkEntry m.heap none es none
  nodup : (es.map Prod.fst).Nodup
  back : m.net.back = lastAddr none es
  length : m.net.length = es.length
  bound : es.length ≤ 255

/-- The list is `ls`, the entry `c` of the cursor, and `rs`. -/
structure Rep (m : TopologyMem) (ls : List (Nat × Visit)) (c : Nat × Visit)
    (rs : List (Nat × Visit)) :
    Prop extends Listed m (ls ++ c :: rs) where
  front : m.net.front = headAddr (ls ++ c :: rs) none
  cursor : m.net.cursor = some c.1
  index : m.net.index = ls.length

/-- An entry of the list is in memory. -/
theorem Listed.allocated (h : Listed m es) {e : Nat × Visit} (he : e ∈ es) :
    m.heap e.1 ≠ none := by
  obtain ⟨pre, post, rfl⟩ := List.append_of_mem he
  rw [h.segment.cell]
  exact Option.some_ne_none _

namespace Rep

/-- What is not in the list may change. -/
theorem update (h : Rep m ls c rs) {a : Nat} (ha : a ∉ (ls ++ c :: rs).map Prod.fst)
    (e : Option NeighborTableEntry) : Rep ⟨Function.update m.heap a e, m.net⟩ ls c rs :=
  ⟨⟨h.segment.update ha e, h.nodup, h.back, h.length, h.bound⟩, h.front, h.cursor, h.index⟩

/-- The list of one entry, with the cursor at it. -/
theorem single {heap : Nat → Option NeighborTableEntry} {a : Nat} {v : Visit}
    (hcell : heap a = some (mkEntry none none v)) :
    Rep ⟨heap, ⟨some a, some a, some a, 1, 0⟩⟩ [] (a, v) [] :=
  ⟨⟨⟨hcell, trivial⟩, by simp, rfl, rfl, by simp⟩, rfl, rfl, rfl⟩

theorem cell (h : Rep m ls c rs) :
    m.heap c.1 = some (mkEntry (lastAddr none ls) (headAddr rs none) c.2) := h.segment.cell

theorem get_cursor (h : Rep m ls c rs) :
    m.get m.net.cursor = some (mkEntry (lastAddr none ls) (headAddr rs none) c.2) := by
  rw [h.cursor, TopologyMem.get, Option.bind_some, h.cell]

/-! ## Moves of the cursor -/

theorem movePrev_nil (h : Rep m [] c rs) : m.movePrev = some m := by
  have hindex : ¬m.net.index > 0 := by simp [h.index]
  rw [TopologyMem.movePrev, if_neg hindex]

theorem movePrev (h : Rep m (ls ++ [b]) c rs) :
    ∃ m', m.movePrev = some m' ∧ m'.heap = m.heap ∧ Rep m' ls b (c :: rs) := by
  have hindex : m.net.index = ls.length + 1 := by simp [h.index]
  have hlist : ls ++ b :: c :: rs = ls ++ [b] ++ c :: rs := by simp
  refine ⟨{ m with net := { m.net with cursor := some b.1, index := ls.length } }, ?_, rfl,
    ⟨hlist ▸ h.segment, hlist ▸ h.nodup, hlist ▸ h.back, hlist ▸ h.length, hlist ▸ h.bound⟩,
    hlist ▸ h.front, rfl, rfl⟩
  rw [TopologyMem.movePrev, if_pos (by omega), h.get_cursor]
  simp [mkEntry, hindex]

theorem moveNext_nil (h : Rep m ls c []) : m.moveNext = some m := by
  have hindex : ¬m.net.index < (m.net.length : Int) - 1 := by simp [h.index, h.length]
  rw [TopologyMem.moveNext, if_neg hindex]

theorem moveNext (h : Rep m ls c (b :: rs)) :
    ∃ m', m.moveNext = some m' ∧ m'.heap = m.heap ∧ Rep m' (ls ++ [c]) b rs := by
  have hindex : m.net.index < (m.net.length : Int) - 1 := by
    simp only [h.index, h.length, List.length_append, List.length_cons]
    omega
  have hlist : ls ++ [c] ++ b :: rs = ls ++ c :: b :: rs := by simp
  refine ⟨{ m with net := { m.net with cursor := some b.1, index := (ls ++ [c]).length } }, ?_, rfl,
    ⟨hlist ▸ h.segment, hlist ▸ h.nodup, hlist ▸ h.back, hlist ▸ h.length, hlist ▸ h.bound⟩,
    hlist ▸ h.front, rfl, rfl⟩
  rw [TopologyMem.moveNext, if_pos hindex, h.get_cursor]
  simp [mkEntry, h.index]

/-! ## New entries -/

end Rep

theorem modify_eq {m : TopologyMem} {a : Nat} {e : NeighborTableEntry} (h : m.heap a = some e)
    (f : NeighborTableEntry → NeighborTableEntry) :
    m.modify (some a) f = some { m with heap := Function.update m.heap a (some (f e)) } := by
  simp [TopologyMem.modify, h]

/-- An entry that is not in the list yet. -/
structure NewEntry (m : TopologyMem) (es : List (Nat × Visit)) (a : Nat) (v : Visit) : Prop where
  cell : m.heap a = some (mkEntry none none v)
  fresh : a ∉ es.map Prod.fst
  room : es.length < 255

/-- Nothing but the entries of the list and the new one has changed. -/
def SameBut (m m' : TopologyMem) (es : List (Nat × Visit)) (a : Nat) : Prop :=
  ∀ x, x ∉ es.map Prod.fst → x ≠ a → m'.heap x = m.heap x

section Insert
variable {a : Nat} {v : Visit} {m' : TopologyMem}

theorem NewEntry.ne (hnew : NewEntry m es a v) {e : Nat × Visit} (he : e ∈ es) : e.1 ≠ a := by
  rintro rfl
  exact hnew.fresh (List.mem_map_of_mem he)

theorem NewEntry.lengthInc (hnew : NewEntry m es a v) (h : Listed m es) :
    (m.net.length + 1) % 256 = m.net.length + 1 := by
  have hroom := hnew.room
  rw [h.length]
  omega

theorem ne_of_nodup {xs ys : List (Nat × Visit)} {x y : Nat × Visit}
    (h : ((xs ++ ys).map Prod.fst).Nodup) (hx : x ∈ xs) (hy : y ∈ ys) : x.1 ≠ y.1 := by
  rw [List.map_append, List.nodup_append] at h
  exact h.2.2 _ (List.mem_map_of_mem hx) _ (List.mem_map_of_mem hy)

theorem lastAddr_ne (h : ((ls ++ rs).map Prod.fst).Nodup) {e : Nat × Visit}
    (he : e ∈ ls.dropLast ++ rs) : some e.1 ≠ lastAddr none ls := by
  rcases List.eq_nil_or_concat ls with rfl | ⟨ls', l, rfl⟩
  · simp
  · simp only [List.concat_eq_append, lastAddr_concat, List.dropLast_concat, List.append_assoc,
      List.mem_append, ne_eq, Option.some.injEq] at he h ⊢
    rcases he with he | he
    · exact ne_of_nodup h he (by simp)
    · rw [← List.append_assoc] at h
      exact (ne_of_nodup h (List.mem_append_right ls' (List.mem_singleton_self l)) he).symm

theorem headAddr_ne (h : ((ls ++ rs).map Prod.fst).Nodup) {e : Nat × Visit}
    (he : e ∈ ls ++ rs.tail) : some e.1 ≠ headAddr rs none := by
  cases rs with
  | nil => simp
  | cons r rs =>
    simp only [headAddr_cons, List.tail_cons, List.mem_append, ne_eq, Option.some.injEq] at he ⊢
    rcases he with he | he
    · exact ne_of_nodup h he (by simp)
    · rw [List.append_cons] at h
      exact (ne_of_nodup h (List.mem_append_right ls (List.mem_singleton_self r)) he).symm

/-- A list with a new entry: the entry and its two neighbors have been written. -/
theorem Listed.insert (h : Listed m (ls ++ rs)) (hnew : NewEntry m (ls ++ rs) a v)
    (hcell : m'.heap a = some (mkEntry (lastAddr none ls) (headAddr rs none) v))
    (hlast : ∀ ls' e, ls = ls' ++ [e] →
      m'.heap e.1 = some (mkEntry (lastAddr none ls') (some a) e.2))
    (hhead : ∀ r rs', rs = r :: rs' → m'.heap r.1 = some (mkEntry (some a) (headAddr rs' none) r.2))
    (hother : ∀ x, x ≠ a → some x ≠ lastAddr none ls → some x ≠ headAddr rs none →
      m'.heap x = m.heap x)
    (hback : m'.net.back = lastAddr none (ls ++ (a, v) :: rs))
    (hlength : m'.net.length = m.net.length + 1) :
    SameBut m m' (ls ++ rs) a ∧ Listed m' (ls ++ (a, v) :: rs) := by
  refine ⟨fun x hx hxa => hother x hxa ?_ ?_,
    h.segment.insert hcell hlast hhead fun e he => ?_, ?_, hback, ?_, ?_⟩
  · intro hlast
    rcases List.eq_nil_or_concat ls with rfl | ⟨ls', l, rfl⟩
    · simp at hlast
    · rw [List.concat_eq_append, lastAddr_concat, Option.some.injEq] at hlast
      exact hx (by simp [hlast])
  · cases rs with
    | nil => simp
    | cons r rs =>
      rw [headAddr_cons, ne_eq, Option.some.injEq]
      rintro rfl
      exact hx (by simp)
  · have hmem : e ∈ ls ++ rs := by
      rcases List.mem_append.mp he with he | he
      · exact List.mem_append_left _ (List.dropLast_subset _ he)
      · exact List.mem_append_right _ (List.mem_of_mem_tail he)
    refine hother e.1 (hnew.ne hmem) (lastAddr_ne h.nodup ?_) (headAddr_ne h.nodup ?_)
    · rcases List.mem_append.mp he with he | he
      · exact List.mem_append_left _ he
      · exact List.mem_append_right _ (List.mem_of_mem_tail he)
    · rcases List.mem_append.mp he with he | he
      · exact List.mem_append_left _ (List.dropLast_subset _ he)
      · exact List.mem_append_right _ he
  · have hfresh := hnew.fresh
    have hnodup := h.nodup
    rw [List.map_append] at hfresh hnodup
    rw [List.map_append, List.map_cons, List.nodup_middle]
    exact List.nodup_cons.mpr ⟨hfresh, hnodup⟩
  · rw [hlength, h.length]
    simp only [List.length_append, List.length_cons]
    omega
  · have hroom := hnew.room
    simp only [List.length_append, List.length_cons] at hroom ⊢
    omega

end Insert

namespace Rep
variable {a : Nat} {v : Visit}

theorem concat_inj {ls ls' : List (Nat × Visit)} {e : Nat × Visit} (h : ls ++ [c] = ls' ++ [e]) :
    ls' = ls ∧ e = c := by
  obtain ⟨hls, he⟩ := List.append_inj' h rfl
  exact ⟨hls.symm, (List.cons.inj he).1.symm⟩

/-- `network_topology_insert_after` at the end of the list. -/
theorem insertAfter_last (h : Rep m ls c []) (hnew : NewEntry m (ls ++ [c]) a v) :
    ∃ m', m.insertAfter a = some m' ∧ SameBut m m' (ls ++ [c]) a ∧ Rep m' ls c [(a, v)] := by
  have hlength : m.net.length ≠ 0 := by simp [h.length]
  have hindex : m.net.index = (m.net.length : Int) - 1 := by simp [h.index, h.length]
  have hca : c.1 ≠ a := hnew.ne (by simp)
  have hback : m.net.back = some c.1 := by rw [h.back, lastAddr_concat]
  have hcell := h.cell
  let m' : TopologyMem :=
    ⟨Function.update (Function.update m.heap a (some (mkEntry (some c.1) none v))) c.1
      (some (mkEntry (lastAddr none ls) (some a) c.2)),
      { m.net with back := some a, length := m.net.length + 1 }⟩
  have hlisted : Listed m (ls ++ [c] ++ []) := by simpa using h.toListed
  have hnew' : NewEntry m (ls ++ [c] ++ []) a v := by simpa using hnew
  have hinsert : SameBut m m' (ls ++ [c] ++ []) a ∧ Listed m' (ls ++ [c] ++ [(a, v)]) := by
    refine hlisted.insert hnew' ?_ ?_ (by simp) ?_ ?_ rfl
    · simp [m', Ne.symm hca]
    · rintro ls' e hls
      obtain ⟨rfl, rfl⟩ := concat_inj hls
      simp [m']
    · intro x hxa hxc _
      rw [lastAddr_concat, ne_eq, Option.some.injEq] at hxc
      simp [m', hxa, hxc]
    · rw [lastAddr_concat]
  refine ⟨m', ?_, by simpa using hinsert.1, ⟨by simpa using hinsert.2, ?_, h.cursor, h.index⟩⟩
  · rw [TopologyMem.insertAfter, if_neg hlength, if_pos hindex, TopologyMem.append, if_neg hlength]
    simp [TopologyMem.modify, hback, hnew.cell, hcell, hca, TopologyMem.lengthInc,
      hnew.lengthInc h.toListed, mkEntry, m']
  · simp [m', h.front, headAddr_append]

/-- `network_topology_insert_after` in front of another entry. -/
theorem insertAfter_cons (h : Rep m ls c (b :: rs)) (hnew : NewEntry m (ls ++ c :: b :: rs) a v) :
    ∃ m', m.insertAfter a = some m' ∧ SameBut m m' (ls ++ c :: b :: rs) a ∧
      Rep m' ls c ((a, v) :: b :: rs) := by
  have hlength : m.net.length ≠ 0 := by simp [h.length]
  have hindex : ¬m.net.index = (m.net.length : Int) - 1 := by
    simp only [h.index, h.length, List.length_append, List.length_cons]
    omega
  have hca : c.1 ≠ a := hnew.ne (by simp)
  have hba : b.1 ≠ a := hnew.ne (by simp)
  have hlist : ls ++ c :: b :: rs = ls ++ [c] ++ b :: rs := by simp
  have hcb : c.1 ≠ b.1 := by
    have hnodup := h.nodup
    rw [hlist] at hnodup
    exact ne_of_nodup hnodup (by simp) (by simp)
  have hcell := h.cell
  have hbcell : m.heap b.1 = some (mkEntry (some c.1) (headAddr rs none) b.2) := by
    have hsegment := h.segment
    rw [hlist] at hsegment
    have hcell := hsegment.cell
    rwa [lastAddr_concat] at hcell
  let m' : TopologyMem :=
    ⟨Function.update (Function.update (Function.update (Function.update m.heap a
        (some (mkEntry none (some b.1) v))) b.1
        (some (mkEntry (some a) (headAddr rs none) b.2))) a
        (some (mkEntry (some c.1) (some b.1) v))) c.1
      (some (mkEntry (lastAddr none ls) (some a) c.2)),
      { m.net with length := m.net.length + 1 }⟩
  have hlisted : Listed m (ls ++ [c] ++ b :: rs) := by simpa using h.toListed
  have hnew' : NewEntry m (ls ++ [c] ++ b :: rs) a v := by simpa using hnew
  have hinsert : SameBut m m' (ls ++ [c] ++ b :: rs) a ∧
      Listed m' (ls ++ [c] ++ (a, v) :: b :: rs) := by
    refine hlisted.insert hnew' ?_ ?_ ?_ ?_ ?_ rfl
    · simp [m', Ne.symm hca]
    · rintro ls' e hls
      obtain ⟨rfl, rfl⟩ := concat_inj hls
      simp [m']
    · rintro r rs' hrs
      obtain ⟨rfl, rfl⟩ := List.cons.inj hrs
      simp [m', Ne.symm hcb, hba]
    · intro x hxa hxc hxb
      rw [lastAddr_concat, ne_eq, Option.some.injEq] at hxc
      rw [headAddr_cons, ne_eq, Option.some.injEq] at hxb
      simp [m', hxa, hxc, hxb]
    · simp [m', h.back, lastAddr]
  refine ⟨m', ?_, by simpa using hinsert.1, ⟨by simpa using hinsert.2, ?_, h.cursor, h.index⟩⟩
  · rw [TopologyMem.insertAfter, if_neg hlength, if_neg hindex, h.get_cursor]
    simp [TopologyMem.modify, h.cursor, hnew.cell, hcell, hbcell, hca, hba, hcb, Ne.symm hba,
      TopologyMem.lengthInc, hnew.lengthInc h.toListed, mkEntry, m']
  · simp [m', h.front, headAddr_append]

/-- `network_topology_insert_before` at the front of the list. -/
theorem insertBefore_first (h : Rep m [] c rs) (hnew : NewEntry m (c :: rs) a v) :
    ∃ m', m.insertBefore a = some m' ∧ SameBut m m' (c :: rs) a ∧ Rep m' [(a, v)] c rs := by
  have hlength : m.net.length ≠ 0 := by simp [h.length]
  have hindex : m.net.index = 0 := by simp [h.index]
  have hca : c.1 ≠ a := hnew.ne (by simp)
  have hfront : m.net.front = some c.1 := by rw [h.front, List.nil_append, headAddr_cons]
  have hcell := h.cell
  let m' : TopologyMem :=
    ⟨Function.update (Function.update m.heap a (some (mkEntry none (some c.1) v))) c.1
      (some (mkEntry (some a) (headAddr rs none) c.2)),
      { m.net with front := some a, length := m.net.length + 1, index := 1 }⟩
  have hinsert : SameBut m m' ([] ++ c :: rs) a ∧ Listed m' ([] ++ (a, v) :: c :: rs) := by
    refine h.toListed.insert hnew ?_ (by simp) ?_ ?_ ?_ rfl
    · simp [m', Ne.symm hca]
    · rintro r rs' hrs
      obtain ⟨rfl, rfl⟩ := List.cons.inj hrs
      simp [m']
    · intro x hxa _ hxc
      rw [headAddr_cons, ne_eq, Option.some.injEq] at hxc
      simp [m', hxa, hxc]
    · simp [m', h.back, lastAddr]
  refine ⟨m', ?_, by simpa using hinsert.1, ⟨by simpa using hinsert.2, rfl, h.cursor, rfl⟩⟩
  rw [TopologyMem.insertBefore, if_neg hlength, if_pos hindex, TopologyMem.prepend, if_neg hlength]
  simp [TopologyMem.modify, hfront, hindex, hnew.cell, hcell, hca, TopologyMem.lengthInc,
    hnew.lengthInc h.toListed, mkEntry, m']

/-- `network_topology_insert_before` behind another entry. -/
theorem insertBefore_concat (h : Rep m (ls ++ [b]) c rs)
    (hnew : NewEntry m (ls ++ [b] ++ c :: rs) a v) :
    ∃ m', m.insertBefore a = some m' ∧ SameBut m m' (ls ++ [b] ++ c :: rs) a ∧
      Rep m' (ls ++ [b] ++ [(a, v)]) c rs := by
  have hlength : m.net.length ≠ 0 := by simp [h.length]
  have hindex : ¬m.net.index = 0 := by
    simp only [h.index, List.length_append, List.length_singleton]
    omega
  have hca : c.1 ≠ a := hnew.ne (by simp)
  have hba : b.1 ≠ a := hnew.ne (by simp)
  have hbc : b.1 ≠ c.1 := ne_of_nodup h.nodup (by simp) (by simp)
  have hcell := h.cell
  have hbcell : m.heap b.1 = some (mkEntry (lastAddr none ls) (some c.1) b.2) := by
    have hsegment := h.segment
    rw [List.append_assoc] at hsegment
    exact hsegment.cell
  rw [lastAddr_concat] at hcell
  let m' : TopologyMem :=
    ⟨Function.update (Function.update (Function.update (Function.update m.heap b.1
        (some (mkEntry (lastAddr none ls) (some a) b.2))) a
        (some (mkEntry none (some c.1) v))) a
        (some (mkEntry (some b.1) (some c.1) v))) c.1
      (some (mkEntry (some a) (headAddr rs none) c.2)),
      { m.net with length := m.net.length + 1, index := m.net.index + 1 }⟩
  have hinsert : SameBut m m' (ls ++ [b] ++ c :: rs) a ∧
      Listed m' (ls ++ [b] ++ (a, v) :: c :: rs) := by
    refine h.toListed.insert hnew ?_ ?_ ?_ ?_ ?_ rfl
    · simp [m', Ne.symm hca]
    · rintro ls' e hls
      obtain ⟨rfl, rfl⟩ := concat_inj hls
      simp [m', hba, hbc]
    · rintro r rs' hrs
      obtain ⟨rfl, rfl⟩ := List.cons.inj hrs
      simp [m']
    · intro x hxa hxb hxc
      rw [lastAddr_concat, ne_eq, Option.some.injEq] at hxb
      rw [headAddr_cons, ne_eq, Option.some.injEq] at hxc
      simp [m', hxa, hxc, hxb]
    · simp [m', h.back, lastAddr]
  refine ⟨m', ?_, hinsert.1, ⟨by simpa using hinsert.2, ?_, h.cursor, ?_⟩⟩
  · rw [TopologyMem.insertBefore, if_neg hlength, if_neg hindex, h.get_cursor]
    simp [TopologyMem.modify, h.cursor, hnew.cell, hcell, hbcell, hca, Ne.symm hba, Ne.symm hbc,
      TopologyMem.lengthInc, hnew.lengthInc h.toListed, mkEntry, m']
  · simp [m', h.front, headAddr_append]
  · simp only [m', h.index, List.length_append, List.length_singleton]
    omega

theorem insertAfter (h : Rep m ls c rs) (hnew : NewEntry m (ls ++ c :: rs) a v) :
    ∃ m', m.insertAfter a = some m' ∧ SameBut m m' (ls ++ c :: rs) a ∧
    Rep m' ls c ((a, v) :: rs) := by
  cases rs with
  | nil => exact h.insertAfter_last hnew
  | cons b rs => exact h.insertAfter_cons hnew

theorem insertBefore (h : Rep m ls c rs) (hnew : NewEntry m (ls ++ c :: rs) a v) :
    ∃ m', m.insertBefore a = some m' ∧ SameBut m m' (ls ++ c :: rs) a ∧
      Rep m' (ls ++ [(a, v)]) c rs := by
  rcases List.eq_nil_or_concat ls with rfl | ⟨ls, b, rfl⟩
  · exact h.insertBefore_first hnew
  · rw [List.concat_eq_append] at *
    exact h.insertBefore_concat hnew

theorem incrementPortCount (h : Rep m ls c rs) :
    ∃ m', m.incrementPortCount = some m' ∧ (∀ x, x ≠ c.1 → m'.heap x = m.heap x) ∧
      Rep m' ls (c.1, c.2.explore) rs := by
  let m' : TopologyMem :=
    ⟨Function.update m.heap c.1
      (some (mkEntry (lastAddr none ls) (headAddr rs none) c.2.explore)), m.net⟩
  have haddr : (ls ++ (c.1, c.2.explore) :: rs).map Prod.fst =
      (ls ++ c :: rs).map Prod.fst := by simp
  have hlast : lastAddr none (ls ++ (c.1, c.2.explore) :: rs) = lastAddr none (ls ++ c :: rs) :=
    lastAddr_congr haddr
  refine ⟨m', ?_, fun x hx => Function.update_of_ne hx _ _,
    ⟨h.segment.setVal h.nodup, haddr ▸ h.nodup, ?_, ?_, ?_⟩, ?_, h.cursor, h.index⟩
  · rw [TopologyMem.incrementPortCount, h.cursor]
    exact modify_eq h.cell _
  · rw [hlast]
    exact h.back
  · simpa using h.length
  · simpa using h.bound
  · rw [h.front, headAddr_append, headAddr_append]
    rfl

/-! ## Questions -/

theorem isRoot (h : Rep m ls c rs) : m.isRoot = some c.2.isRoot := by
  simp [TopologyMem.isRoot, h.cursor, h.cell, mkEntry]

theorem getPortCount (h : Rep m ls c rs) (hports : c.2.portsExplored < 256) :
    ∃ count, m.getPortCount = some count ∧ (count = 1 ↔ c.2.portsExplored = 1) := by
  refine ⟨_, by simp [TopologyMem.getPortCount, h.cursor, h.cell, mkEntry]; rfl, ?_⟩
  split <;> omega

theorem checkAllPortsExplored (h : Rep m ls c rs) :
    m.checkAllPortsExplored = c.2.table.neighborsOnlineCount.map (· == c.2.portsExplored) := by
  rw [TopologyMem.checkAllPortsExplored, h.get_cursor]
  simp only [mkEntry, Option.bind_eq_bind, Option.bind_some]
  cases c.2.table.neighborsOnlineCount <;> rfl

end Rep

/-- The node is in the list. -/
def inList (es : List (Nat × Visit)) (nodeId : Nat) : Bool := es.any (·.2.table.nodeId == nodeId)

theorem nodeIdFrom_segment {p : Option Nat} {fuel nodeId : Nat}
    (h : Segment mkEntry m.heap p es none) (hfuel : es.length ≤ fuel) :
    m.nodeIdFrom nodeId fuel (headAddr es none) = some (inList es nodeId) := by
  induction es generalizing p fuel with
  | nil => cases fuel <;> rfl
  | cons e es ih =>
    obtain ⟨hcell, hrest⟩ := h
    cases fuel with
    | zero => simp at hfuel
    | succ fuel =>
      have hrec := ih hrest (Nat.le_of_succ_le_succ hfuel)
      rw [headAddr_cons, TopologyMem.nodeIdFrom, hcell]
      simp only [mkEntry, Option.bind_eq_bind, Option.bind_some, hrec, inList, List.any_cons]
      split <;> simp_all

namespace Rep
variable {fuel : Nat}

theorem nodeIdInTopology (h : Rep m ls c rs) (hfuel : (ls ++ c :: rs).length ≤ fuel)
    (nodeId : Nat) :
    m.nodeIdInTopology fuel nodeId = some (inList (ls ++ c :: rs) nodeId) := by
  rw [TopologyMem.nodeIdInTopology, h.front]
  exact nodeIdFrom_segment h.segment hfuel

theorem firstUnknown (h : Rep m ls c rs) (hfuel : (ls ++ c :: rs).length ≤ fuel)
    (neighbors : List BcmpNeighborInfo) :
    m.firstUnknown fuel neighbors =
      some ((neighbors.find? fun info => !inList (ls ++ c :: rs) info.nodeId).map (·.nodeId)) := by
  induction neighbors with
  | nil => rfl
  | cons info neighbors ih =>
    rw [TopologyMem.firstUnknown, h.nodeIdInTopology hfuel, List.find?_cons]
    cases inList (ls ++ c :: rs) info.nodeId <;> simp [ih]

/-- The first neighbor of the cursor that is not in the list, 0 for none. -/
theorem checkNeighborNodeIds (h : Rep m ls c rs) (hfuel : (ls ++ c :: rs).length ≤ fuel)
    (hneighbors : c.2.table.neighborList.length < 256) :
    m.checkNeighborNodeIds fuel = some (((c.2.table.neighborList.find? fun info =>
      !inList (ls ++ c :: rs) info.nodeId).map (·.nodeId)).getD 0) := by
  have htake : c.2.table.neighborList.take 256 = c.2.table.neighborList :=
    List.take_of_length_le (by omega)
  rw [TopologyMem.checkNeighborNodeIds, h.get_cursor]
  simp only [mkEntry, Option.bind_eq_bind, Option.bind_some, htake, h.firstUnknown hfuel,
    hneighbors,
    if_true]
  cases c.2.table.neighborList.find? fun info => !inList (ls ++ c :: rs) info.nodeId <;> rfl

end Rep

/-! ## The end of a list -/

/-- The memory without the entries of a list. -/
def without (heap : Nat → Option NeighborTableEntry) (es : List (Nat × Visit)) :
    Nat → Option NeighborTableEntry := fun a => if a ∈ es.map Prod.fst then none else heap a

theorem Listed.deleteBack_single (h : Listed m [c]) :
    ∃ m', m.deleteBack = some m' ∧ m'.heap c.1 = none ∧ Listed m' [] ∧
      ∀ x, x ∉ [c].map Prod.fst → m'.heap x = m.heap x := by
  have hcell : m.heap c.1 = some (mkEntry none none c.2) := h.segment.1
  have hlength : m.net.length = 1 := h.length
  have hback : m.net.back = some c.1 := h.back
  refine ⟨⟨Function.update m.heap c.1 none, ⟨none, none, none, 0, -1⟩⟩, ?_, ?_,
    ⟨trivial, List.nodup_nil, rfl, rfl, Nat.zero_le _⟩, fun x hx => ?_⟩
  · simp [TopologyMem.deleteBack, hlength, hback, TopologyMem.freeEntry, hcell]
  · simp
  · exact Function.update_of_ne (by simpa using hx) _ _

/-- The last entry is unlinked and freed, wherever the cursor is. -/
theorem Listed.deleteBack_concat (h : Listed m (es ++ [b, c])) :
    ∃ m', m.deleteBack = some m' ∧ m'.heap c.1 = none ∧ Listed m' (es ++ [b]) ∧
      ∀ x, x ∉ (es ++ [b, c]).map Prod.fst → m'.heap x = m.heap x := by
  have hlength : m.net.length = es.length + 2 := by simp [h.length]
  have hback : m.net.back = some c.1 := by
    rw [h.back, ← List.singleton_append, ← List.append_assoc, lastAddr_concat]
  have hbcell : m.heap b.1 = some (mkEntry (lastAddr none es) (some c.1) b.2) := h.segment.cell
  have hccell : m.heap c.1 = some (mkEntry (some b.1) none c.2) := by
    have hsegment := h.segment
    rw [← List.singleton_append, ← List.append_assoc] at hsegment
    have hcell := hsegment.cell
    rwa [lastAddr_concat] at hcell
  have hnodup : ((es ++ [b] ++ [c]).map Prod.fst).Nodup := by simpa using h.nodup
  have hbc : b.1 ≠ c.1 := ne_of_nodup hnodup (by simp) (by simp)
  let heap' := Function.update (Function.update m.heap b.1
    (some (mkEntry (lastAddr none es) none b.2))) c.1 none
  let cursor := if m.net.index = (m.net.length : Int) - 1 then some b.1 else m.net.cursor
  refine ⟨⟨heap', { m.net with back := some b.1, cursor, length := es.length + 1 }⟩, ?_, ?_,
    ⟨?_, ?_, ?_, ?_, ?_⟩, ?_⟩
  · rw [TopologyMem.deleteBack, if_neg (by omega), if_pos (by omega), hback]
    by_cases hindex : m.net.index = (es.length : Int) + 2 - 1
    · simp [TopologyMem.get, TopologyMem.modify, TopologyMem.freeEntry, hbcell, hccell, Ne.symm hbc,
        hindex, hlength, mkEntry, heap', cursor]
    · simp [TopologyMem.get, TopologyMem.modify, TopologyMem.freeEntry, hbcell, hccell, Ne.symm hbc,
        hindex, hlength, mkEntry, heap', cursor]
  · simp [heap']
  · refine (h.segment.dropLast h.nodup).update ?_ none
    intro hmem
    obtain ⟨e, he, hec⟩ := List.mem_map.mp hmem
    exact ne_of_nodup hnodup he (List.mem_singleton_self c) hec
  · rw [List.map_append, List.nodup_append] at hnodup
    exact hnodup.1
  · rw [lastAddr_concat]
  · simp
  · have hbound := h.bound
    simp only [List.length_append, List.length_cons, List.length_nil] at hbound ⊢
    omega
  · intro x hx
    have hxb : x ≠ b.1 := by
      rintro rfl
      exact hx (by simp)
    have hxc : x ≠ c.1 := by
      rintro rfl
      exact hx (by simp)
    simp [heap', hxb, hxc]

theorem Listed.deleteBack (h : Listed m (es ++ [c])) :
    ∃ m', m.deleteBack = some m' ∧ m'.heap c.1 = none ∧ Listed m' es ∧
      ∀ x, x ∉ (es ++ [c]).map Prod.fst → m'.heap x = m.heap x := by
  rcases List.eq_nil_or_concat es with rfl | ⟨es, b, rfl⟩
  · exact h.deleteBack_single
  · rw [List.concat_eq_append] at *
    have hlist : es ++ [b] ++ [c] = es ++ [b, c] := by simp
    rw [hlist] at h ⊢
    exact h.deleteBack_concat

/-- Every entry of the list is freed, once. -/
theorem Listed.clearLoop (h : Listed m es) :
    ∃ m', TopologyMem.clearLoop es.length m = some m' ∧ m'.heap = without m.heap es := by
  induction es using List.reverseRecOn generalizing m with
  | nil => exact ⟨m, rfl, by funext x; simp [without]⟩
  | append_singleton es c ih =>
    obtain ⟨m₁, hdelete, hc, hlisted, hother⟩ := h.deleteBack
    obtain ⟨m₂, hloop, hheap⟩ := ih hlisted
    refine ⟨m₂, ?_, ?_⟩
    · rw [List.length_append, List.length_singleton, TopologyMem.clearLoop, hdelete]
      exact hloop
    · rw [hheap]
      funext x
      by_cases hx : x ∈ (es ++ [c]).map Prod.fst
      · rw [without, without, if_pos hx]
        split
        · rfl
        · rename_i hes
          obtain rfl : x = c.1 := by simpa [hes] using hx
          exact hc
      · have hes : x ∉ es.map Prod.fst := fun hmem => hx (by simp at hmem ⊢; exact .inl hmem)
        rw [without, without, if_neg hx, if_neg hes, hother x hx]

theorem Rep.clear (h : Rep m ls c rs) :
    ∃ m', m.clear = some m' ∧ m'.heap = without m.heap (ls ++ c :: rs) := by
  rw [TopologyMem.clear, h.length]
  exact h.clearLoop

end BmCore.Topology
