import BmCore.Integrations.DiscoveryEnds
import Mathlib.Data.List.Permutation

/-!
# Discovery of a daisy chain

On a chain whose nodes all answer, the walk goes down the arm of the root's first neighbor, returns,
and goes down the other arm in the other direction. So the list is the chain, or the chain from its
other end.
-/
namespace BmCore.Topology
open Library

/-- Every node lists its neighbors in the chain, in any order. -/
def Adjacent (chain : List BcmpNeighborTableReply) : Prop :=
  ∀ xs t ys, chain = xs ++ t :: ys → (t.neighborList.map (·.nodeId)).Perm
    ((xs.getLast?.map (·.nodeId)).toList ++ (ys.head?.map (·.nodeId)).toList)

/-- A chain of nodes around the root, with distinct identifiers and distinct ports that are up. -/
structure DaisyChain (pre : List BcmpNeighborTableReply) (root : BcmpNeighborTableReply)
    (post : List BcmpNeighborTableReply) : Prop where
  length : (pre ++ root :: post).length ≤ 255
  nodup : ((pre ++ root :: post).map (·.nodeId)).Nodup
  nonzero : ∀ t ∈ pre ++ root :: post, t.nodeId ≠ 0
  adjacent : Adjacent (pre ++ root :: post)
  ports : ∀ t ∈ pre ++ root :: post, (t.neighborList.map (·.port)).Nodup ∧
    ∀ info ∈ t.neighborList, 1 ≤ info.port.toNat ∧ info.port.toNat ≤ t.portList.length ∧
      t.onUpPort info = true

/-- The list of the topology, front to back, with its links in both directions. -/
def ListsNodes (m : TopologyMem) (tables : List BcmpNeighborTableReply) (rootId : Nat) : Prop :=
  ∃ es : List (Nat × Visit), Segment mkEntry m.heap none es none ∧
    m.net.front = headAddr es none ∧ m.net.back = lastAddr none es ∧ m.net.length = es.length ∧
    es.map (·.2.table) = tables ∧ ∀ e ∈ es, e.2.isRoot = true ↔ e.2.table.nodeId = rootId

/-! ## An arm of the chain -/

/-- The nodes of `ts` hang in a row behind the node `parent`. -/
def Arm : Nat → List BcmpNeighborTableReply → Prop
  | _, [] => True
  | parent, t :: ts =>
    (t.neighborList.map (·.nodeId)).Perm (parent :: (ts.head?.map (·.nodeId)).toList) ∧
      Arm t.nodeId ts

theorem Adjacent.arm {chain xs ts : List BcmpNeighborTableReply} {parent : BcmpNeighborTableReply}
    (h : Adjacent chain) (hchain : chain = xs ++ parent :: ts) : Arm parent.nodeId ts := by
  induction ts generalizing xs parent with
  | nil => trivial
  | cons t ts ih =>
    have hsplit : chain = (xs ++ [parent]) ++ t :: ts := by simp [hchain]
    refine ⟨?_, ih hsplit⟩
    simpa using h _ _ _ hsplit

theorem Adjacent.reverse {chain : List BcmpNeighborTableReply} (h : Adjacent chain) :
    Adjacent chain.reverse := by
  intro xs t ys hsplit
  have hchain : chain = ys.reverse ++ t :: xs.reverse := by
    rw [← List.reverse_reverse chain, hsplit]
    simp
  have hperm := h _ _ _ hchain
  rw [List.getLast?_reverse, List.head?_reverse] at hperm
  exact hperm.trans List.perm_append_comm

theorem known_cons (v : Visit) (visits : List Visit) (nodeId : Nat) :
    known (v :: visits) nodeId = (v.table.nodeId == nodeId || known visits nodeId) := rfl

/-- A node that has been explored. -/
def explored (t : BcmpNeighborTableReply) : Visit := ⟨t.neighborList.length, false, t⟩

/-- All the neighbors of a node are on ports that are up. -/
def AllUp (t : BcmpNeighborTableReply) : Prop := ∀ info ∈ t.neighborList, t.onUpPort info = true

theorem AllUp.done {t : BcmpNeighborTableReply} (h : AllUp t) (ports : Nat) (isRoot : Bool) :
    Visit.done ⟨ports, isRoot, t⟩ = (t.neighborList.length == ports) := by
  rw [Visit.done, List.countP_eq_length.mpr h]

theorem newNode_eq {visits : List Visit} {v : Visit} {nodeId : Nat}
    (hmem : nodeId ∈ v.table.neighborList.map (·.nodeId)) (hunknown : known visits nodeId = false)
    (honly : ∀ x ∈ v.table.neighborList.map (·.nodeId), x ≠ nodeId → known visits x = true) :
    newNode visits v = nodeId := by
  obtain ⟨info, hinfo, rfl⟩ := List.mem_map.mp hmem
  rw [newNode]
  cases hfind : v.table.neighborList.find? fun info => !known visits info.nodeId with
  | none =>
    have hknown := List.find?_eq_none.mp hfind info hinfo
    simp [hunknown] at hknown
  | some found =>
    have hfound : known visits found.nodeId = false := by simpa using List.find?_some hfind
    by_contra hne
    have hknown := honly found.nodeId (List.mem_map_of_mem (List.mem_of_find?_eq_some hfind)) hne
    simp [hfound] at hknown

section Leads
variable {net : Network} {w w' : Walk}

/-- The walk gets there when every request is answered. -/
def Leads (net : Network) : Walk → Walk → Prop :=
  Relation.ReflTransGen fun w w' => w' = w.step net true

theorem Leads.step (h : w.step net true = w') : Leads net w w' := .single h.symm

/-- A neighbor that is not in the list is asked, answers and is added. -/
theorem leads_ask {t : BcmpNeighborTableReply} (hphase : w.phase = .check)
    (hdone : w.place.cur.done = false) (hnew : newNode w.place.all w.place.cur = t.nodeId)
    (hnonzero : t.nodeId ≠ 0) (htable : net.table t.nodeId = some t) :
    Leads net w ⟨(w.turned.place.setCur w.turned.place.cur.explore).push ⟨1, false, t⟩,
      w.turned.insertBefore, 0, .check⟩ := by
  have hunknown : known w.turned.place.all t.nodeId = false := by
    have hunknown : known w.place.all t.nodeId = false := by
      rw [← hnew] at hnonzero ⊢
      exact newNode_unknown hnonzero
    rwa [known, turned_all.any_eq]
  have hwait : w.step net true = { w.turned with phase := .wait t.nodeId } := by
    simp [Walk.step, hphase, hdone, hnew, hnonzero]
  have hadd : Walk.step { w.turned with phase := .wait t.nodeId } net true =
      ⟨w.turned.place.setCur w.turned.place.cur.explore, w.turned.insertBefore, 0, .add t⟩ := by
    simp [Walk.step, htable]
  have hcheck : Walk.step
      ⟨w.turned.place.setCur w.turned.place.cur.explore, w.turned.insertBefore, 0, .add t⟩
      net true =
      ⟨(w.turned.place.setCur w.turned.place.cur.explore).push ⟨1, false, t⟩,
        w.turned.insertBefore, 0, .check⟩ := by
    simp [Walk.step, known_explore, hunknown]
  exact ((Leads.step hwait).trans (Leads.step hadd)).trans (Leads.step hcheck)

/-- A node whose ports are explored is left. -/
theorem leads_back (hphase : w.phase = .check) (hdone : w.place.cur.done = true)
    (hroot : w.place.cur.isRoot = false) :
    Leads net w ⟨w.place.back, w.insertBefore, w.retry, .check⟩ :=
  Leads.step (by simp [Walk.step, hphase, hdone, hroot])

/-- The walk goes down an arm and comes back. -/
theorem leads_arm {ts : List BcmpNeighborTableReply} {t : BcmpNeighborTableReply} {b : Visit}
    {behind ahead : List Visit} {insertBefore : Bool} (harm : Arm b.table.nodeId (t :: ts))
    (hup : ∀ x ∈ t :: ts, AllUp x) (htable : ∀ x ∈ ts, net.table x.nodeId = some x)
    (hnonzero : ∀ x ∈ ts, x.nodeId ≠ 0) (hnodup : ((t :: ts).map (·.nodeId)).Nodup)
    (hunknown : ∀ x ∈ ts, known (b :: (behind ++ ahead)) x.nodeId = false) :
    Leads net ⟨⟨b :: behind, ⟨1, false, t⟩, ahead⟩, insertBefore, 0, .check⟩
      ⟨⟨behind, b, (t :: ts).map explored ++ ahead⟩, insertBefore, 0, .check⟩ := by
  induction ts generalizing t b behind with
  | nil =>
    have hlength : t.neighborList.length = 1 := by
      have hlength := harm.1.length_eq
      simpa using hlength
    have hdone : Visit.done ⟨1, false, t⟩ = true := by
      rw [(hup t List.mem_cons_self).done, hlength]
      rfl
    have hexplored : explored t = ⟨1, false, t⟩ := by rw [explored, hlength]
    rw [List.map_cons, hexplored]
    exact leads_back rfl hdone rfl
  | cons x xs ih =>
    obtain ⟨hneighbors, harm⟩ := harm
    have hlength : t.neighborList.length = 2 := by
      have hlength := hneighbors.length_eq
      simpa using hlength
    have hup_t := hup t List.mem_cons_self
    have hxt : t.nodeId ≠ x.nodeId := by
      rw [List.map_cons, List.nodup_cons] at hnodup
      intro heq
      exact hnodup.1 (by simp [heq])
    have hx_unknown : known (Place.all ⟨b :: behind, ⟨1, false, t⟩, ahead⟩) x.nodeId = false := by
      rw [Place.all, known_cons, Bool.or_eq_false_iff]
      exact ⟨by simpa using hxt, hunknown x List.mem_cons_self⟩
    have hnew : newNode (Place.all ⟨b :: behind, ⟨1, false, t⟩, ahead⟩) ⟨1, false, t⟩ =
        x.nodeId := by
      refine newNode_eq (hneighbors.mem_iff.mpr (by simp)) hx_unknown fun y hy hyx => ?_
      have hy' := hneighbors.mem_iff.mp hy
      obtain rfl : y = b.table.nodeId := by simpa [hyx] using hy'
      simp [known, Place.all]
    have hask : Leads net ⟨⟨b :: behind, ⟨1, false, t⟩, ahead⟩, insertBefore, 0, .check⟩
        ⟨⟨⟨2, false, t⟩ :: b :: behind, ⟨1, false, x⟩, ahead⟩, insertBefore, 0, .check⟩ := by
      have hask := leads_ask (w := ⟨⟨b :: behind, ⟨1, false, t⟩, ahead⟩, insertBefore, 0, .check⟩)
        rfl
        (by rw [hup_t.done, hlength]; rfl) hnew (hnonzero x List.mem_cons_self)
        (htable x List.mem_cons_self)
      rw [turned_of_not_root rfl] at hask
      exact hask
    have hexplored : explored t = ⟨2, false, t⟩ := by rw [explored, hlength]
    have hdown : Leads net ⟨⟨⟨2, false, t⟩ :: b :: behind, ⟨1, false, x⟩, ahead⟩, insertBefore, 0,
      .check⟩
        ⟨⟨b :: behind, ⟨2, false, t⟩, (x :: xs).map explored ++ ahead⟩, insertBefore, 0,
        .check⟩ := by
      refine ih harm (fun y hy => hup y (List.mem_cons_of_mem t hy))
        (fun y hy => htable y (List.mem_cons_of_mem x hy))
        (fun y hy => hnonzero y (List.mem_cons_of_mem x hy)) (List.nodup_cons.mp hnodup).2
        fun y hy => ?_
      rw [known_cons, Bool.or_eq_false_iff]
      refine ⟨?_, hunknown y (List.mem_cons_of_mem x hy)⟩
      have hty : t.nodeId ≠ y.nodeId := by
        intro heq
        rw [List.map_cons, List.nodup_cons] at hnodup
        refine hnodup.1 (List.mem_map.mpr ⟨y, List.mem_cons_of_mem x hy, heq.symm⟩)
      simpa using hty
    have hback : Leads net
        ⟨⟨b :: behind, ⟨2, false, t⟩, (x :: xs).map explored ++ ahead⟩, insertBefore, 0, .check⟩
        ⟨⟨behind, b, (t :: x :: xs).map explored ++ ahead⟩, insertBefore, 0, .check⟩ := by
      rw [List.map_cons (a := t), hexplored]
      exact leads_back rfl (by rw [hup_t.done, hlength]; rfl) rfl
    exact (hask.trans hdown).trans hback

theorem leads_end (hphase : w.phase = .check) (hdone : w.place.cur.done = true)
    (hroot : w.place.cur.isRoot = true) : Leads net w { w with phase := .finished } := by
  have hending : w.step net true = { w with phase := .ending } := by
    simp [Walk.step, hphase, hdone, hroot]
  have hover : Walk.step { w with phase := .ending } net true = { w with phase := .finished } := rfl
  exact (Leads.step hending).trans (Leads.step hover)

/-- The root visits the arm of a neighbor. -/
theorem leads_root_arm {root t : BcmpNeighborTableReply} {ts : List BcmpNeighborTableReply}
    {behind : List Visit} {ports : Nat} {insertBefore : Bool} (harm : Arm root.nodeId (t :: ts))
    (hup : ∀ x ∈ t :: ts, AllUp x) (htable : ∀ x ∈ t :: ts, net.table x.nodeId = some x)
    (hnonzero : ∀ x ∈ t :: ts, x.nodeId ≠ 0) (hnodup : ((t :: ts).map (·.nodeId)).Nodup)
    (hunknown : ∀ x ∈ t :: ts, known (⟨ports, true, root⟩ :: behind) x.nodeId = false)
    (hports : ports < 255) (hdone : Visit.done ⟨ports, true, root⟩ = false)
    (hnew : newNode (⟨ports, true, root⟩ :: behind) ⟨ports, true, root⟩ = t.nodeId)
    (hturned : w.turned = ⟨⟨behind, ⟨ports, true, root⟩, []⟩, insertBefore, 0, .check⟩)
    (hw : w.phase = .check ∧ w.place.cur = ⟨ports, true, root⟩) :
    Leads net w
      ⟨⟨behind, ⟨ports + 1, true, root⟩, (t :: ts).map explored⟩, insertBefore, 0, .check⟩ := by
  have hexplore : Visit.explore ⟨ports, true, root⟩ = ⟨ports + 1, true, root⟩ := by
    rw [Visit.explore]
    simp only [Visit.mk.injEq, and_true]
    omega
  have hall : w.turned.place.all = ⟨ports, true, root⟩ :: behind := by
    rw [hturned]
    simp [Place.all]
  have hnew' : newNode w.place.all w.place.cur = t.nodeId := by
    rw [hw.2, ← hnew, ← hall]
    exact newNode_congr (fun nodeId => turned_all.symm.any_eq) _
  have hask := leads_ask hw.1 (hw.2 ▸ hdone) hnew' (hnonzero t List.mem_cons_self)
    (htable t List.mem_cons_self)
  rw [hturned] at hask
  simp only [Place.setCur, Place.push, hexplore] at hask
  have hdown : Leads net ⟨⟨⟨ports + 1, true, root⟩ :: behind, ⟨1, false, t⟩, []⟩, insertBefore, 0,
    .check⟩
      ⟨⟨behind, ⟨ports + 1, true, root⟩, (t :: ts).map explored ++ []⟩, insertBefore, 0,
      .check⟩ := by
    refine leads_arm harm hup (fun x hx => htable x (List.mem_cons_of_mem t hx))
      (fun x hx => hnonzero x (List.mem_cons_of_mem t hx)) hnodup fun x hx => ?_
    have hx := hunknown x (List.mem_cons_of_mem t hx)
    simpa [known] using hx
  rw [List.append_nil] at hdown
  exact hask.trans hdown

/-- The root is at the beginning of the walk. -/
theorem turned_start : (Walk.start net).turned = Walk.start net := rfl

end Leads

/-! ## The chain -/

/-- The arm that the root lists first, and the other one. -/
structure TwoArms (net : Network) (as bs : List BcmpNeighborTableReply) : Prop where
  nodup : ((net.root :: (as ++ bs)).map (·.nodeId)).Nodup
  nonzero : ∀ t ∈ as ++ bs, t.nodeId ≠ 0
  up : ∀ t ∈ net.root :: (as ++ bs), AllUp t
  table : ∀ t ∈ as ++ bs, net.table t.nodeId = some t
  first : Arm net.root.nodeId as
  second : Arm net.root.nodeId bs
  neighbors : net.root.neighborList.map (·.nodeId) =
    (as.head?.map (·.nodeId)).toList ++ (bs.head?.map (·.nodeId)).toList

theorem known_explored {ts : List BcmpNeighborTableReply} {nodeId : Nat} :
    known (ts.map explored) nodeId = true ↔ nodeId ∈ ts.map (·.nodeId) := by
  simp [known, explored]

namespace TwoArms
variable {net : Network} {as bs : List BcmpNeighborTableReply} {t : BcmpNeighborTableReply}

/-- The root is done when both neighbors have been explored. -/
theorem done_root (h : TwoArms net as bs) (ports : Nat) :
    Visit.done ⟨ports, true, net.root⟩ = (net.root.neighborList.length == ports) :=
  (h.up net.root List.mem_cons_self).done ports true

theorem unknown (h : TwoArms net as bs) (ports : Nat) (ht : t ∈ as ++ bs) :
    known [⟨ports, true, net.root⟩] t.nodeId = false := by
  have hnodup := h.nodup
  rw [List.map_cons, List.nodup_cons] at hnodup
  have hne : net.root.nodeId ≠ t.nodeId := by
    intro heq
    rw [heq] at hnodup
    exact hnodup.1 (List.mem_map_of_mem ht)
  simp [known, hne]

/-- The first arm. -/
theorem leads_first (h : TwoArms net (t :: as) bs) :
    Leads net (.start net)
      ⟨⟨[], ⟨1, true, net.root⟩, (t :: as).map explored⟩, false, 0, .check⟩ := by
  have hunknown : ∀ x ∈ t :: as, known [⟨0, true, net.root⟩] x.nodeId = false :=
    fun x hx => h.unknown 0 (List.mem_append_left bs hx)
  have hneighbors := h.neighbors
  rw [List.head?_cons, Option.map_some, Option.toList_some, List.singleton_append,
    List.map_eq_cons_iff] at hneighbors
  obtain ⟨info, rest, hlist, hinfo, -⟩ := hneighbors
  have hnew : newNode [⟨0, true, net.root⟩] ⟨0, true, net.root⟩ = t.nodeId := by
    rw [newNode, hlist, List.find?_cons_of_pos]
    · exact hinfo
    · simp [hinfo, hunknown t List.mem_cons_self]
  have hnodup : ((t :: as).map (·.nodeId)).Nodup := by
    have hnodup := (List.nodup_cons.mp h.nodup).2
    rw [List.map_append] at hnodup
    exact hnodup.of_append_left
  refine leads_root_arm h.first (fun x hx => h.up x ?_) (fun x hx => h.table x ?_)
    (fun x hx => h.nonzero x ?_) hnodup hunknown (by omega) ?_ hnew turned_start ⟨rfl, rfl⟩
  · exact List.mem_cons_of_mem _ (List.mem_append_left bs hx)
  · exact List.mem_append_left bs hx
  · exact List.mem_append_left bs hx
  · rw [h.done_root, hlist]
    rfl

/-- The second arm, with `INSERT_BEFORE`. -/
theorem leads_second (h : TwoArms net as (t :: bs)) {a : BcmpNeighborTableReply}
    (ha : a ∈ as.head?) :
    Leads net ⟨⟨[], ⟨1, true, net.root⟩, as.map explored⟩, false, 0, .check⟩
      ⟨⟨as.map explored, ⟨2, true, net.root⟩, (t :: bs).map explored⟩, true, 0, .check⟩ := by
  have hneighbors := h.neighbors
  rw [Option.mem_def.mp ha, List.head?_cons] at hneighbors
  simp only [Option.map_some, Option.toList_some, List.singleton_append] at hneighbors
  have hnodup := (List.nodup_cons.mp h.nodup).2
  rw [List.map_append, List.nodup_append] at hnodup
  have hunknown : ∀ x ∈ t :: bs,
      known (⟨1, true, net.root⟩ :: as.map explored) x.nodeId = false := by
    intro x hx
    have hroot := h.unknown 1 (List.mem_append_right as hx)
    have has : ¬known (as.map explored) x.nodeId = true := by
      rw [known_explored]
      intro hmem
      exact hnodup.2.2 _ hmem _ (List.mem_map_of_mem hx) rfl
    rw [known_cons] at hroot ⊢
    simp_all [known]
  have hnew : newNode (⟨1, true, net.root⟩ :: as.map explored) ⟨1, true, net.root⟩ = t.nodeId := by
    refine newNode_eq (by simp [hneighbors]) (hunknown t List.mem_cons_self) fun y hy hyt => ?_
    have hya : y = a.nodeId := by
      rw [hneighbors] at hy
      simpa [hyt] using hy
    have hknown : known (as.map explored) y = true := by
      rw [known_explored, hya]
      exact List.mem_map_of_mem (List.mem_of_mem_head? ha)
    rw [known_cons, hknown, Bool.or_true]
  have hlength : net.root.neighborList.length = 2 := by
    have hlength := congrArg List.length hneighbors
    simpa using hlength
  refine leads_root_arm h.second (fun x hx => h.up x ?_) (fun x hx => h.table x ?_)
    (fun x hx => h.nonzero x ?_) hnodup.2.1 hunknown (by omega) ?_ hnew rfl ⟨rfl, rfl⟩
  · exact List.mem_cons_of_mem _ (List.mem_append_right as hx)
  · exact List.mem_append_right as hx
  · exact List.mem_append_right as hx
  · rw [h.done_root, hlength]
    rfl

/-- The walk ends with the two arms on both sides of the root. -/
theorem leads_over (h : TwoArms net as bs) (hempty : as = [] → bs = []) :
    ∃ place insertBefore ports, Leads net (.start net) ⟨place, insertBefore, 0, .finished⟩ ∧
      place.list insertBefore =
        bs.reverse.map explored ++ ⟨ports, true, net.root⟩ :: as.map explored := by
  cases as with
  | nil =>
    obtain rfl := hempty rfl
    have hnil : net.root.neighborList = [] := by simpa using h.neighbors
    have hdone : Visit.done ⟨0, true, net.root⟩ = true := by
      rw [h.done_root, hnil]
      rfl
    exact ⟨_, _, 0, leads_end rfl hdone rfl, rfl⟩
  | cons a as =>
    cases bs with
    | nil =>
      have hlength : net.root.neighborList.length = 1 := by
        have hlength := congrArg List.length h.neighbors
        simpa using hlength
      have hdone : Visit.done ⟨1, true, net.root⟩ = true := by
        rw [h.done_root, hlength]
        rfl
      exact ⟨_, _, 1, h.leads_first.trans (leads_end rfl hdone rfl), rfl⟩
    | cons b bs =>
      have hlength : net.root.neighborList.length = 2 := by
        have hlength := congrArg List.length h.neighbors
        simpa using hlength
      have hdone : Visit.done ⟨2, true, net.root⟩ = true := by
        rw [h.done_root, hlength]
        rfl
      have hwalk := (h.leads_first.trans (h.leads_second rfl)).trans (leads_end rfl hdone rfl)
      refine ⟨_, _, 2, hwalk, ?_⟩
      simp [Place.list]

end TwoArms

namespace DaisyChain
variable {pre post : List BcmpNeighborTableReply} {root : BcmpNeighborTableReply}

theorem degree_le (h : DaisyChain pre root post) {t : BcmpNeighborTableReply}
    (ht : t ∈ pre ++ root :: post) : t.neighborList.length ≤ 2 := by
  obtain ⟨xs, ys, hsplit⟩ := List.append_of_mem ht
  have hlength := (h.adjacent _ _ _ hsplit).length_eq
  rw [List.length_map] at hlength
  rw [hlength, List.length_append]
  have hopt : ∀ o : Option Nat, o.toList.length ≤ 1 := by
    intro o
    cases o <;> simp
  have hleft := hopt (xs.getLast?.map (·.nodeId))
  have hright := hopt (ys.head?.map (·.nodeId))
  omega

theorem wellFormed (h : DaisyChain pre root post) : ∀ t ∈ root :: (pre ++ post), t.WellFormed := by
  intro t ht
  have ht' : t ∈ pre ++ root :: post := List.perm_middle.mem_iff.mpr ht
  have hdegree := h.degree_le ht'
  exact ⟨by omega, fun info hinfo => ⟨((h.ports t ht').2 info hinfo).1,
    ((h.ports t ht').2 info hinfo).2.1⟩⟩

/-- The network of the chain. -/
def network (h : DaisyChain pre root post) : Network := ⟨root, pre ++ post, h.wellFormed⟩

theorem table_eq (h : DaisyChain pre root post) {t : BcmpNeighborTableReply}
    (ht : t ∈ pre ++ post) :
    h.network.table t.nodeId = some t := by
  have hnodup : ((pre ++ post).map (·.nodeId)).Nodup :=
    (List.nodup_cons.mp ((List.perm_middle.map _).nodup_iff.mp h.nodup)).2
  rw [Network.table]
  cases hfind : h.network.nodes.find? (·.nodeId == t.nodeId) with
  | none =>
    have hnone := List.find?_eq_none.mp hfind t ht
    simp at hnone
  | some found =>
    have hid : found.nodeId = t.nodeId := by simpa using List.find?_some hfind
    rw [Option.some.injEq]
    exact List.inj_on_of_nodup_map hnodup (List.mem_of_find?_eq_some hfind) ht hid

/-- Two arms of the chain, the one that the root lists first being `as`. -/
theorem twoArms (h : DaisyChain pre root post) {as bs : List BcmpNeighborTableReply}
    (hperm : (as ++ bs).Perm (pre ++ post)) (hfirst : Arm root.nodeId as)
    (hsecond : Arm root.nodeId bs) (hneighbors : root.neighborList.map (·.nodeId) =
      (as.head?.map (·.nodeId)).toList ++ (bs.head?.map (·.nodeId)).toList) :
    TwoArms h.network as bs := by
  have hall : (root :: (as ++ bs)).Perm (pre ++ root :: post) :=
    (hperm.cons root).trans List.perm_middle.symm
  refine ⟨(hall.map _).nodup_iff.mpr h.nodup, fun t ht => h.nonzero t ?_, fun t ht => ?_,
    fun t ht => h.table_eq (hperm.mem_iff.mp ht), hfirst, hsecond, hneighbors⟩
  · exact hall.mem_iff.mp (List.mem_cons_of_mem root ht)
  · exact fun info hinfo => ((h.ports t (hall.mem_iff.mp ht)).2 info hinfo).2.2

theorem perm_toList {α : Type} {l : List α} {a b : Option α} (h : l.Perm (a.toList ++ b.toList)) :
    l = a.toList ++ b.toList ∨ l = b.toList ++ a.toList := by
  cases a with
  | none => exact .inl (by cases b <;> simpa using h)
  | some a =>
    cases b with
    | none => exact .inl (by simpa using h)
    | some b =>
      have hpair : l.Perm [a, b] := h
      exact List.perm_pair.mp hpair

/-- The arms of a chain, in the order in which the walk visits them. -/
theorem arms (h : DaisyChain pre root post) :
    ∃ as bs, TwoArms h.network as bs ∧ (as = [] → bs = []) ∧
      (bs.reverse ++ root :: as = pre ++ root :: post ∨
        bs.reverse ++ root :: as = (pre ++ root :: post).reverse) := by
  have hpost : Arm root.nodeId post := h.adjacent.arm rfl
  have hpre : Arm root.nodeId pre.reverse :=
    h.adjacent.reverse.arm (by simp : (pre ++ root :: post).reverse = post.reverse ++ root ::
    pre.reverse)
  have hneighbors := h.adjacent pre root post rfl
  rw [← List.head?_reverse] at hneighbors
  have hforth : (post ++ pre.reverse).Perm (pre ++ post) :=
    List.perm_append_comm.trans ((List.reverse_perm pre).append_right post)
  have hback : (pre.reverse ++ post).Perm (pre ++ post) := (List.reverse_perm pre).append_right post
  -- an arm that is empty is not visited first
  rcases perm_toList hneighbors with hfirst | hfirst
  · by_cases hempty : pre.reverse = [] → post = []
    · exact ⟨_, _, h.twoArms hback hpre hpost hfirst, hempty, .inr (by simp)⟩
    · obtain ⟨hnil, hne⟩ := Classical.not_imp.mp hempty
      rw [hnil] at hfirst hpre hforth
      refine ⟨post, [], h.twoArms hforth hpost hpre ?_, fun hnil => absurd hnil hne, .inl ?_⟩
      · simpa using hfirst
      · simp [List.reverse_eq_nil_iff.mp hnil]
  · by_cases hempty : post = [] → pre.reverse = []
    · exact ⟨_, _, h.twoArms hforth hpost hpre hfirst, hempty, .inl (by simp)⟩
    · obtain ⟨hnil, hne⟩ := Classical.not_imp.mp hempty
      rw [hnil] at hfirst hpost
      have hback : (pre.reverse ++ []).Perm (pre ++ post) := by simp [hnil, List.reverse_perm]
      refine ⟨pre.reverse, [], h.twoArms hback hpre hpost ?_, fun hnil => absurd hnil hne, .inr ?_⟩
      · simpa using hfirst
      · simp [hnil]

end DaisyChain

/-- A walk in which every request is answered gets where the steps lead. -/
theorem Leads.walkRun {net : Network} {w : Walk} (h : Leads net (.start net) w) :
    ∃ n, walkRun net (fun _ => true) n = w := by
  induction h with
  | refl => exact ⟨0, rfl⟩
  | tail _ hstep ih =>
    obtain ⟨n, hn⟩ := ih
    refine ⟨n + 1, ?_⟩
    rw [Topology.walkRun, hn, hstep]

/-- What the list shows when the arms have been explored. -/
theorem listsNodes_of_cut {m : TopologyMem} {insertBefore : Bool} {p : Place (Nat × Visit)}
    {as bs : List BcmpNeighborTableReply} {root : BcmpNeighborTableReply} {ports : Nat}
    (h : Cut m insertBefore p) (hnodup : ((root :: (as ++ bs)).map (·.nodeId)).Nodup)
    (hlist : (p.map Prod.snd).list insertBefore =
      bs.reverse.map explored ++ ⟨ports, true, root⟩ :: as.map explored) :
    ListsNodes m (bs.reverse ++ root :: as) root.nodeId := by
  have hlisted := h.listed
  have hfront : m.net.front = headAddr (p.list insertBefore) none := by
    cases insertBefore with
    | false => exact Rep.front h
    | true => exact Rep.front h
  rw [← Place.map_list] at hlist
  refine ⟨p.list insertBefore, hlisted.segment, hfront, hlisted.back, hlisted.length, ?_, ?_⟩
  · have htables := congrArg (List.map Visit.table) hlist
    rw [List.map_map] at htables
    rw [show (fun e : Nat × Visit => e.2.table) = Visit.table ∘ Prod.snd from rfl, htables]
    simp [Function.comp_def, explored]
  · intro e he
    have hmem : e.2 ∈ bs.reverse.map explored ++ ⟨ports, true, root⟩ :: as.map explored := by
      rw [← hlist]
      exact List.mem_map_of_mem he
    rw [List.map_cons, List.nodup_cons] at hnodup
    have hother : ∀ t ∈ as ++ bs, t.nodeId ≠ root.nodeId := fun t ht heq =>
      hnodup.1 (List.mem_map.mpr ⟨t, ht, heq⟩)
    rw [List.mem_append, List.mem_cons, List.mem_map, List.mem_map] at hmem
    rcases hmem with ⟨t, ht, heq⟩ | heq | ⟨t, ht, heq⟩
    · rw [← heq]
      exact iff_of_false (by simp [explored])
        (hother t (List.mem_append_right as (List.mem_reverse.mp ht)))
    · rw [heq]
      exact iff_of_true rfl rfl
    · rw [← heq]
      exact iff_of_false (by simp [explored]) (hother t (List.mem_append_left bs ht))

/-- A session on a daisy chain whose nodes all answer ends with one call, and its list is the chain
from one end or from the other. -/
theorem discovery_of_daisyChain {pre post : List BcmpNeighborTableReply}
    {root : BcmpNeighborTableReply} (h : DaisyChain pre root post) (callback : Nat)
    {s : TopoContext}
    (hidle : Idle s) :
    ∃ n s' m, topoRun h.network (fun _ => true) (s.bcmpTopologyStart callback) n = some s' ∧
      s'.evtQueue = [] ∧ s'.item = none ∧ s'.timerRunning = false ∧ s'.inProgress = false ∧
      s'.calls = s.calls ++ [⟨callback, some m⟩] ∧
      (ListsNodes m (pre ++ root :: post) root.nodeId ∨
        ListsNodes m (pre ++ root :: post).reverse root.nodeId) := by
  obtain ⟨as, bs, harms, hempty, horder⟩ := h.arms
  obtain ⟨place, insertBefore, ports, hleads, hlist⟩ := harms.leads_over hempty
  obtain ⟨n, hwalk⟩ := hleads.walkRun
  have hnodes : h.network.nodes.length < 255 := by
    have hlength := h.length
    rw [List.length_append, List.length_cons] at hlength
    have hnodes : h.network.nodes.length = pre.length + post.length := List.length_append
    omega
  obtain ⟨s', hrun, hsim⟩ := topoRun_simulates (n := n) callback (fun _ => true) hidle
    fun k _ table => walkRun_room h.network hnodes _
  rw [hwalk] at hsim
  rcases hsim with ⟨p, -, hpending⟩ | ⟨-, hended⟩
  · exact hpending.elim
  · obtain ⟨m, p, hcalls, hcut, hplace⟩ := hended.calls
    refine ⟨n + 1, s', m, hrun, hended.evtQueue, hended.item, hended.timerRunning,
      hended.inProgress,
      hcalls, ?_⟩
    have hlists := listsNodes_of_cut hcut harms.nodup (by rw [hplace]; exact hlist)
    rcases horder with horder | horder
    · exact .inl (horder ▸ hlists)
    · exact .inr (horder ▸ hlists)

/-- Three nodes with the root in the middle. -/
theorem daisyChain_of_three : DaisyChain [tableOf 2 [1]] (tableOf 1 [2, 3]) [tableOf 3 [1]] := by
  refine ⟨by decide, by decide, by decide, ?_, by decide⟩
  intro xs t ys hsplit
  simp only [List.singleton_append, List.cons_eq_append_iff, List.cons.injEq,
    List.nil_eq_append_iff]
    at hsplit
  rcases hsplit with ⟨rfl, rfl, rfl⟩ | ⟨xs, rfl,
    ⟨rfl, rfl, rfl⟩ | ⟨xs, rfl, ⟨rfl, rfl, rfl⟩ | hend⟩⟩
  · decide
  · decide
  · decide
  · simp at hend

/-- The root lists node 2 first, so its arm is found first. -/
theorem discovery_of_three_nodes :
    ∃ n s' m, topoRun daisyChain_of_three.network (fun _ => true)
        (TopoContext.init.bcmpTopologyStart 7) n = some s' ∧
      s'.evtQueue = [] ∧ s'.item = none ∧ s'.timerRunning = false ∧ s'.inProgress = false ∧
      s'.calls = [⟨7, some m⟩] ∧
      (ListsNodes m [tableOf 2 [1], tableOf 1 [2, 3], tableOf 3 [1]] 1 ∨
        ListsNodes m [tableOf 3 [1], tableOf 1 [2, 3], tableOf 2 [1]] 1) :=
  discovery_of_daisyChain daisyChain_of_three 7 idle_init

end BmCore.Topology
