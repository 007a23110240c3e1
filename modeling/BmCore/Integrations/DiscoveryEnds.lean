import BmCore.Integrations.Discovery
import BmCore.Library.Runs
import Mathlib.Data.List.Basic

/-!
# When a session ends

A session ends at the root, when as many of its ports have been explored as there are neighbors on
ports that are up. The way back from the other nodes leads to the root as long as it is behind the
cursor. After `INSERT_BEFORE` has been set the nodes of the first branch are behind the root: a
`move_next` at the root goes to them, and nothing leads back from there. So a session ends if and
only if the task never has to leave the root that way. -/
namespace BmCore.Topology
open Library

/-- The nodes from the cursor back. -/
def Place.path {α : Type} (p : Place α) : List α := p.cur :: p.behind

/-- The number of neighbors that the root has to explore. -/
def Network.degree (net : Network) : Nat := net.root.neighborList.countP net.root.onUpPort

theorem Network.degree_lt (net : Network) : net.degree < 256 :=
  Nat.lt_of_le_of_lt List.countP_le_length (net.wellFormed net.root List.mem_cons_self).1

section Place
variable {p : Place Visit}

theorem path_back (h : p.behind ≠ []) : p.back.path = p.behind := by
  obtain ⟨behind, cur, ahead⟩ := p
  cases behind with
  | nil => exact absurd rfl h
  | cons b behind => rfl

theorem back_of_nil (h : p.behind = []) : p.back = p := by
  obtain ⟨behind, cur, ahead⟩ := p
  subst h
  rfl

theorem known_back (nodeId : Nat) : known p.back.all nodeId = known p.all nodeId :=
  Place.back_all.any_eq

theorem known_turn (nodeId : Nat) : known p.turn.all nodeId = known p.all nodeId :=
  (List.Perm.cons p.cur List.perm_append_comm : p.turn.all.Perm p.all).any_eq

theorem known_explore (nodeId : Nat) :
    known (p.setCur p.cur.explore).all nodeId = known p.all nodeId := by
  simp [known, Place.all, Place.setCur, Visit.explore]

theorem known_push (v : Visit) (nodeId : Nat) :
    known (p.push v).all nodeId = (v.table.nodeId == nodeId || known p.all nodeId) := by
  simp [known, Place.all, Place.push]

end Place

theorem newNode_unknown {visits : List Visit} {v : Visit} (h : newNode visits v ≠ 0) :
    known visits (newNode visits v) = false := by
  rw [newNode] at h ⊢
  cases hfind : v.table.neighborList.find? fun info => !known visits info.nodeId with
  | none => simp [hfind] at h
  | some info => simpa using List.find?_some hfind

/-! ## On track -/

/-- The root is on the way back. -/
structure RootBehind (net : Network) (p : Place Visit) (insertBefore : Bool) : Prop where
  root : ∃ r, p.path.find? (·.isRoot) = some r ∧ r.table = net.root ∧ r.portsExplored ≤ net.degree
  single : p.all.countP (·.isRoot) = 1
  last : insertBefore = false → ∀ v ∈ p.path.getLast?, v.isRoot = true

structure Tracks (net : Network) (w : Walk) : Prop extends
    RootBehind net w.place w.insertBefore where
  asking : w.phase = .timedOut ∨ (∃ nodeId, w.phase = .wait nodeId) → w.place.cur.isRoot = true →
    w.place.cur.portsExplored < net.degree

/-- Only unknown nodes are asked. -/
structure Asks (w : Walk) : Prop where
  wait : ∀ nodeId, w.phase = .wait nodeId → known w.place.all nodeId = false
  add : ∀ table, w.phase = .add table → known w.place.all table.nodeId = false

/-- The state before a step in which the task does not have to leave the root. -/
structure Walk.Stays (w : Walk) : Prop where
  check : w.phase = .check → w.place.cur.isRoot = true → w.place.cur.done = false →
    newNode w.place.all w.place.cur ≠ 0
  timedOut : w.phase = .timedOut → w.place.cur.isRoot = true →
    topologyRetries ≤ (w.retry + 1) % 256 → w.insertBefore = true → w.place.behind = []

section RootBehind
variable {net : Network} {p : Place Visit} {insertBefore : Bool}

/-- The ports of the root that are not explored. -/
def rootPorts (net : Network) (p : Place Visit) : Nat :=
  net.degree - ((p.path.find? (·.isRoot)).map (·.portsExplored)).getD 0

/-- How many steps back to the root. -/
def distance (p : Place Visit) : Nat := p.path.findIdx (·.isRoot)

namespace RootBehind

theorem behind_ne (h : RootBehind net p insertBefore) (hroot : p.cur.isRoot = false) :
    p.behind ≠ [] := by
  intro hnil
  obtain ⟨r, hfind, -⟩ := h.root
  simp [Place.path, hnil, hroot] at hfind

theorem behind_nil (h : RootBehind net p false) (hroot : p.cur.isRoot = true) : p.behind = [] := by
  by_contra hne
  have hlast := h.last rfl
  have hsingle := h.single
  rw [Place.path, List.getLast?_cons, List.getLast?_eq_some_getLast hne] at hlast
  have hmem : p.behind.getLast hne ∈ p.behind ++ p.ahead :=
    List.mem_append_left _ (List.getLast_mem hne)
  have hpos : 0 < (p.behind ++ p.ahead).countP (·.isRoot) :=
    List.countP_pos_iff.mpr ⟨_, hmem, hlast _ rfl⟩
  rw [Place.all, List.countP_cons, if_pos hroot] at hsingle
  omega

theorem cur_root (h : RootBehind net p insertBefore) (hroot : p.cur.isRoot = true) :
    p.cur.table = net.root ∧ p.cur.portsExplored ≤ net.degree := by
  obtain ⟨r, hfind, htable, hports⟩ := h.root
  rw [Place.path, List.find?_cons_of_pos hroot, Option.some.injEq] at hfind
  exact ⟨hfind ▸ htable, hfind ▸ hports⟩

theorem find?_behind (hroot : p.cur.isRoot = false) :
    p.path.find? (·.isRoot) = p.behind.find? (·.isRoot) :=
  List.find?_cons_of_neg (by simp [hroot])

theorem back (h : RootBehind net p insertBefore) (hroot : p.cur.isRoot = false) :
    RootBehind net p.back insertBefore ∧ rootPorts net p.back = rootPorts net p ∧
      distance p.back < distance p := by
  have hne := h.behind_ne hroot
  have hpath := path_back hne
  refine ⟨⟨?_, ?_, fun hbefore => ?_⟩, ?_, ?_⟩
  · rw [hpath, ← find?_behind hroot]
    exact h.root
  · rw [Place.back_all.countP_eq]
    exact h.single
  · have hlast := h.last hbefore
    rw [Place.path, List.getLast?_cons, List.getLast?_eq_some_getLast hne] at hlast
    rw [hpath, List.getLast?_eq_some_getLast hne]
    exact hlast
  · rw [rootPorts, rootPorts, hpath, find?_behind hroot]
  · rw [distance, distance, hpath, Place.path, List.findIdx_cons, hroot]
    exact Nat.lt_succ_self _

/-- A port of another node is explored. -/
theorem explore (h : RootBehind net p insertBefore) (hroot : p.cur.isRoot = false) :
    RootBehind net (p.setCur p.cur.explore) insertBefore ∧
      rootPorts net (p.setCur p.cur.explore) = rootPorts net p ∧
      distance (p.setCur p.cur.explore) = distance p := by
  have hexplore : p.cur.explore.isRoot = false := hroot
  have hne := h.behind_ne hroot
  have hfind : (p.setCur p.cur.explore).path.find? (·.isRoot) = p.path.find? (·.isRoot) := by
    rw [find?_behind hroot]
    exact find?_behind hexplore
  refine ⟨⟨?_, ?_, fun hbefore => ?_⟩, ?_, ?_⟩
  · rw [hfind]
    exact h.root
  · exact h.single
  · have hlast := h.last hbefore
    rw [Place.path, List.getLast?_cons, List.getLast?_eq_some_getLast hne] at hlast
    simp only [Place.path, Place.setCur]
    rw [List.getLast?_cons, List.getLast?_eq_some_getLast hne]
    exact hlast
  · rw [rootPorts, rootPorts, hfind]
  · simp [distance, Place.path, Place.setCur, List.findIdx_cons, hroot, hexplore]

/-- A port of the root is explored. -/
theorem explore_root (h : RootBehind net p insertBefore) (hroot : p.cur.isRoot = true)
    (hports : p.cur.portsExplored < net.degree) :
    RootBehind net (p.setCur p.cur.explore) insertBefore ∧
      rootPorts net (p.setCur p.cur.explore) < rootPorts net p := by
  have hexplore : p.cur.explore.isRoot = true := hroot
  have hdegree := net.degree_lt
  have hadd : p.cur.explore.portsExplored = p.cur.portsExplored + 1 :=
    Nat.mod_eq_of_lt (by omega)
  have hfind : p.path.find? (·.isRoot) = some p.cur := List.find?_cons_of_pos hroot
  have hfind' : (p.setCur p.cur.explore).path.find? (·.isRoot) = some p.cur.explore :=
    List.find?_cons_of_pos hexplore
  refine ⟨⟨⟨_, hfind', (h.cur_root hroot).1, by omega⟩, h.single, fun hbefore v hv => ?_⟩, ?_⟩
  · subst hbefore
    have hnil := h.behind_nil hroot
    obtain rfl : p.cur.explore = v := by simpa [Place.path, Place.setCur, hnil] using hv
    exact hexplore
  · rw [rootPorts, rootPorts, hfind, hfind', Option.map_some, Option.map_some, Option.getD_some,
      Option.getD_some, hadd]
    omega

theorem push (h : RootBehind net p insertBefore) {v : Visit} (hv : v.isRoot = false) :
    RootBehind net (p.push v) insertBefore ∧ rootPorts net (p.push v) = rootPorts net p ∧
      distance (p.push v) = distance p + 1 := by
  have hfind : (p.push v).path.find? (·.isRoot) = p.path.find? (·.isRoot) := find?_behind hv
  refine ⟨⟨?_, ?_, fun hbefore => ?_⟩, ?_, ?_⟩
  · rw [hfind]
    exact h.root
  · have hsingle := h.single
    rw [Place.all] at hsingle
    simpa [Place.all, Place.push, hv] using hsingle
  · exact h.last hbefore
  · rw [rootPorts, rootPorts, hfind]
  · simp [distance, Place.path, Place.push, List.findIdx_cons, hv]

/-- At the root with nothing behind it the direction changes. -/
theorem turn (h : RootBehind net p false) (hroot : p.cur.isRoot = true) :
    RootBehind net p.turn true ∧ rootPorts net p.turn = rootPorts net p ∧
      distance p.turn = distance p := by
  have hfind : p.path.find? (·.isRoot) = some p.cur := List.find?_cons_of_pos hroot
  have hfind' : p.turn.path.find? (·.isRoot) = some p.cur := List.find?_cons_of_pos hroot
  refine ⟨⟨⟨_, hfind', h.cur_root hroot⟩, ?_, fun hbefore => by simp at hbefore⟩, ?_, ?_⟩
  · have hperm : p.turn.all.Perm p.all := List.Perm.cons p.cur List.perm_append_comm
    rw [hperm.countP_eq]
    exact h.single
  · rw [rootPorts, rootPorts, hfind, hfind']
  · simp [distance, Place.path, Place.turn, List.findIdx_cons, hroot]

end RootBehind

end RootBehind

/-! ## The measure -/

/-- The timeouts until a node is given up. -/
def retriesLeft (retry : Nat) : Nat := if retry = 255 then 4 else 3 - retry

def Phase.rank : Phase → Nat
  | .add _ => 4
  | .check => 3
  | .wait _ => 2
  | .timedOut => 1
  | .ending => 1
  | .finished => 0

/-- The node whose table has arrived. -/
def Phase.arriving : Phase → Option Nat
  | .add table => some table.nodeId
  | _ => none

/-- The nodes whose tables have not arrived. -/
def Walk.undiscovered (net : Network) (w : Walk) : Nat :=
  net.nodes.countP fun table =>
    !known w.place.all table.nodeId && w.phase.arriving != some table.nodeId

def Walk.measure (net : Network) (w : Walk) : Nat × Nat × Nat × Nat × Nat :=
  (rootPorts net w.place, w.undiscovered net, distance w.place + w.phase.arriving.toList.length,
    retriesLeft w.retry, w.phase.rank)

def closer : Nat × Nat × Nat × Nat × Nat → Nat × Nat × Nat × Nat × Nat → Prop :=
  Prod.Lex (· < ·) (Prod.Lex (· < ·) (Prod.Lex (· < ·) (Prod.Lex (· < ·) (· < ·))))

theorem closer_wf : WellFounded closer :=
  have hlt : WellFounded (fun a b : Nat => a < b) := Nat.lt_wfRel.wf
  hlt.prod_lex (hlt.prod_lex (hlt.prod_lex (hlt.prod_lex hlt)))

theorem closer_iff {a b : Nat × Nat × Nat × Nat × Nat} : closer a b ↔
    a.1 < b.1 ∨ a.1 = b.1 ∧ (a.2.1 < b.2.1 ∨ a.2.1 = b.2.1 ∧ (a.2.2.1 < b.2.2.1 ∨
      a.2.2.1 = b.2.2.1 ∧ (a.2.2.2.1 < b.2.2.2.1 ∨
        a.2.2.2.1 = b.2.2.2.1 ∧ a.2.2.2.2 < b.2.2.2.2))) := by
  simp only [closer, Prod.lex_def]

section Track
variable {net : Network} {answered : Bool} {w w' : Walk}

theorem undiscovered_congr (hknown : ∀ nodeId, known w'.place.all nodeId = known w.place.all nodeId)
    (hphase : w'.phase.arriving = w.phase.arriving) : w'.undiscovered net = w.undiscovered net := by
  simp only [Walk.undiscovered, hknown, hphase]

/-- In the phase `check` there is nothing to say but where the root is. -/
theorem RootBehind.checks {p : Place Visit} {insertBefore : Bool}
    (h : RootBehind net p insertBefore)
    (retry : Nat) : Tracks net ⟨p, insertBefore, retry, .check⟩ :=
  ⟨h, by simp⟩

/-- Progress of a step: the walk stays on track and comes closer to its end. -/
def Progress (net : Network) (w w' : Walk) : Prop :=
  Tracks net w' ∧ closer (w'.measure net) (w.measure net)

/-- The walk goes back from a node that is not the root. -/
theorem Tracks.step_back (h : Tracks net w) (hphase : w.phase = .check)
    (hroot : w.place.cur.isRoot = false) :
    Progress net w ⟨w.place.back, w.insertBefore, w.retry, .check⟩ := by
  obtain ⟨hback, hports, hdistance⟩ := h.toRootBehind.back hroot
  refine ⟨hback.checks w.retry, closer_iff.mpr (.inr ⟨hports, .inr ⟨?_, .inl ?_⟩⟩)⟩
  · exact undiscovered_congr known_back (by rw [hphase])
  · simpa [Walk.measure, hphase, Phase.arriving] using hdistance

theorem turned_of_not_root (hroot : w.place.cur.isRoot = false) : w.turned = w := by
  simp [Walk.turned, hroot]

theorem Tracks.turned (h : Tracks net w) :
    RootBehind net w.turned.place w.turned.insertBefore ∧
      rootPorts net w.turned.place = rootPorts net w.place ∧
      distance w.turned.place = distance w.place ∧
      (∀ nodeId, known w.turned.place.all nodeId = known w.place.all nodeId) ∧
      w.turned.place.cur = w.place.cur ∧ w.turned.retry = w.retry := by
  rw [Walk.turned]
  split
  · rename_i hturn
    simp only [Bool.and_eq_true, Bool.not_eq_true'] at hturn
    have hbehind := h.toRootBehind
    rw [hturn.1] at hbehind
    obtain ⟨hturned, hports, hdistance⟩ := hbehind.turn hturn.2.1
    exact ⟨hturned, hports, hdistance, known_turn, rfl, rfl⟩
  · exact ⟨h.toRootBehind, rfl, rfl, fun _ => rfl, rfl, rfl⟩

theorem Tracks.step_check (h : Tracks net w) (hstays : w.Stays) (hphase : w.phase = .check) :
    Progress net w (w.step net answered) := by
  rw [Walk.step, hphase]
  simp only
  cases hdone : w.place.cur.done with
  | true =>
    cases hroot : w.place.cur.isRoot with
    | true =>
      refine ⟨⟨h.toRootBehind, by simp⟩, closer_iff.mpr ?_⟩
      have hundiscovered : Walk.undiscovered net { w with phase := .ending } = w.undiscovered net :=
        undiscovered_congr (fun _ => rfl) (by rw [hphase]; rfl)
      simp [Walk.measure, hundiscovered, hphase, Phase.arriving, Phase.rank]
    | false => exact h.step_back hphase hroot
  | false =>
    by_cases hnew : newNode w.place.all w.place.cur = 0
    · have hroot : w.place.cur.isRoot = false := by
        by_contra hroot
        exact hstays.check hphase (by simpa using hroot) hdone hnew
      simp only [Bool.false_eq_true, if_false, hnew, ne_eq, not_true_eq_false,
        turned_of_not_root hroot, hphase]
      exact h.step_back hphase hroot
    · obtain ⟨hbehind, hports, hdistance, hknown, hcur, hretry⟩ := h.turned
      simp only [Bool.false_eq_true, if_false, ne_eq, hnew, not_false_eq_true, if_true]
      refine ⟨⟨hbehind, fun _ hroot => ?_⟩,
        closer_iff.mpr (.inr ⟨hports, .inr ⟨?_, .inr ⟨?_, .inr ⟨?_, ?_⟩⟩⟩⟩)⟩
      · -- the root is not done, so its ports are not all explored
        rw [hcur] at hroot ⊢
        obtain ⟨htable, hle⟩ := h.cur_root hroot
        have hne : w.place.cur.table.neighborList.countP w.place.cur.table.onUpPort ≠
            w.place.cur.portsExplored := by simpa [Visit.done] using hdone
        rw [htable] at hne
        exact Nat.lt_of_le_of_ne hle (Ne.symm hne)
      · exact undiscovered_congr hknown (by rw [hphase]; rfl)
      · simp [Walk.measure, hphase, Phase.arriving, hdistance]
      · simp [Walk.measure, hretry]
      · simp [Walk.measure, hphase, Phase.rank]

theorem retriesLeft_lt {retry : Nat} (h : ¬topologyRetries ≤ (retry + 1) % 256)
    (hlt : retry < 256) :
    retriesLeft ((retry + 1) % 256) < retriesLeft retry := by
  simp only [topologyRetries, retriesLeft] at h ⊢
  split <;> split <;> omega

theorem countP_lt_of_mem {α : Type} {xs : List α} {P Q : α → Bool} (hle : ∀ x ∈ xs, P x → Q x)
    {a : α}
    (ha : a ∈ xs) (hP : P a = false) (hQ : Q a = true) : xs.countP P < xs.countP Q := by
  obtain ⟨pre, post, rfl⟩ := List.append_of_mem ha
  have hpre : pre.countP P ≤ pre.countP Q :=
    List.countP_mono_left fun x hx => hle x (by simp [hx])
  have hpost : post.countP P ≤ post.countP Q :=
    List.countP_mono_left fun x hx => hle x (by simp [hx])
  simp only [List.countP_append, List.countP_cons, hP, hQ, Bool.false_eq_true, if_false, if_true]
  omega

/-- A table arrives. -/
theorem undiscovered_arrived {table : BcmpNeighborTableReply} {insertBefore : Bool} {retry : Nat}
    (hmem : table ∈ net.nodes) (hunknown : known w.place.all table.nodeId = false)
    (hphase : w.phase.arriving = none) :
    Walk.undiscovered net ⟨w.place.setCur w.place.cur.explore, insertBefore, retry, .add table⟩ <
      w.undiscovered net := by
  simp only [Walk.undiscovered, known_explore, hphase]
  refine countP_lt_of_mem (fun t _ ht => ?_) hmem ?_ ?_
  · simp only [Bool.and_eq_true] at ht ⊢
    exact ⟨ht.1, rfl⟩
  · simp [Phase.arriving]
  · simpa using hunknown

/-- The node whose table has arrived is added. -/
theorem undiscovered_added {table : BcmpNeighborTableReply} {insertBefore : Bool} {retry : Nat}
    (hphase : w.phase = .add table) :
    Walk.undiscovered net ⟨w.place.push ⟨1, false, table⟩, insertBefore, retry, .check⟩ =
      w.undiscovered net := by
  simp only [Walk.undiscovered, known_push, hphase, Phase.arriving]
  refine List.countP_congr fun t _ => ?_
  by_cases hid : table.nodeId = t.nodeId
  · simp [hid]
  · simp [hid]

theorem Tracks.step_wait {nodeId : Nat} (h : Tracks net w) (hasks : Asks w)
    (hphase : w.phase = .wait nodeId) : Progress net w (w.step net answered) := by
  have htimedOut : Progress net w { w with phase := .timedOut } := by
    refine ⟨⟨h.toRootBehind, fun _ => h.asking (.inr ⟨nodeId, hphase⟩)⟩,
      closer_iff.mpr (.inr ⟨rfl, .inr ⟨?_, .inr ⟨?_, .inr ⟨rfl, ?_⟩⟩⟩⟩)⟩
    · exact undiscovered_congr (fun _ => rfl) (by rw [hphase]; rfl)
    · simp [Walk.measure, hphase, Phase.arriving]
    · simp [Walk.measure, hphase, Phase.rank]
  simp only [Walk.step, hphase]
  cases htable : net.table nodeId with
  | none => exact htimedOut
  | some table =>
    cases answered with
    | false => exact htimedOut
    | true =>
      have hid : table.nodeId = nodeId := by simpa using List.find?_some htable
      have hmem : table ∈ net.nodes := List.mem_of_find?_eq_some htable
      have hunknown : known w.place.all table.nodeId = false := by
        rw [hid]
        exact hasks.wait nodeId hphase
      cases hroot : w.place.cur.isRoot with
      | true =>
        obtain ⟨hbehind, hlt⟩ :=
          h.toRootBehind.explore_root hroot (h.asking (.inr ⟨nodeId, hphase⟩) hroot)
        exact ⟨⟨hbehind, by simp⟩, closer_iff.mpr (.inl hlt)⟩
      | false =>
        obtain ⟨hbehind, hports, hdistance⟩ := h.toRootBehind.explore hroot
        refine ⟨⟨hbehind, by simp⟩, closer_iff.mpr (.inr ⟨hports, .inl ?_⟩)⟩
        exact undiscovered_arrived hmem hunknown (by rw [hphase]; rfl)

theorem Tracks.step_add {table : BcmpNeighborTableReply} (h : Tracks net w) (hasks : Asks w)
    (hphase : w.phase = .add table) : Progress net w (w.step net answered) := by
  obtain ⟨hpush, hports, hdistance⟩ := h.toRootBehind.push (v := ⟨1, false, table⟩) rfl
  simp only [Walk.step, hphase, hasks.add table hphase, Bool.false_eq_true, if_false]
  refine ⟨hpush.checks w.retry, closer_iff.mpr
    (.inr ⟨hports, .inr ⟨?_, .inr ⟨?_, .inr ⟨rfl, ?_⟩⟩⟩⟩)⟩
  · exact undiscovered_added hphase
  · simp [Walk.measure, hphase, Phase.arriving, hdistance]
  · simp [Walk.measure, hphase, Phase.rank]

theorem Tracks.step_timedOut (h : Tracks net w) (hstays : w.Stays) (hphase : w.phase = .timedOut)
    (hretry : w.retry < 256) : Progress net w (w.step net answered) := by
  simp only [Walk.step, hphase]
  by_cases hgiveUp : topologyRetries ≤ (w.retry + 1) % 256
  · rw [if_pos hgiveUp]
    cases hroot : w.place.cur.isRoot with
    | true =>
      have hnil : w.place.behind = [] := by
        cases hbefore : w.insertBefore with
        | true => exact hstays.timedOut hphase hroot hgiveUp hbefore
        | false =>
          have hbehind := h.toRootBehind
          rw [hbefore] at hbehind
          exact hbehind.behind_nil hroot
      obtain ⟨hbehind, hlt⟩ := h.toRootBehind.explore_root hroot (h.asking (.inl hphase) hroot)
      have hback : (w.place.setCur w.place.cur.explore).back = w.place.setCur w.place.cur.explore :=
        back_of_nil hnil
      rw [hback]
      exact ⟨hbehind.checks _, closer_iff.mpr (.inl hlt)⟩
    | false =>
      obtain ⟨hbehind, hports, hdistance⟩ := h.toRootBehind.explore hroot
      obtain ⟨hback, hports', hdistance'⟩ := hbehind.back hroot
      refine ⟨hback.checks _,
        closer_iff.mpr (.inr ⟨hports'.trans hports, .inr ⟨?_, .inl ?_⟩⟩)⟩
      · exact undiscovered_congr (fun nodeId => (known_back nodeId).trans (known_explore nodeId))
          (by rw [hphase]; rfl)
      · simpa [Walk.measure, hphase, Phase.arriving, ← hdistance] using hdistance'
  · rw [if_neg hgiveUp]
    refine ⟨h.toRootBehind.checks _, closer_iff.mpr (.inr ⟨rfl, .inr ⟨?_, .inr ⟨?_, .inl ?_⟩⟩⟩)⟩
    · exact undiscovered_congr (fun _ => rfl) (by rw [hphase]; rfl)
    · simp [Walk.measure, hphase, Phase.arriving]
    · exact retriesLeft_lt hgiveUp hretry

theorem Tracks.step_ending (h : Tracks net w) (hphase : w.phase = .ending) :
    Progress net w (w.step net answered) := by
  simp only [Walk.step, hphase]
  refine ⟨⟨h.toRootBehind, by simp⟩,
    closer_iff.mpr (.inr ⟨rfl, .inr ⟨?_, .inr ⟨?_, .inr ⟨rfl, ?_⟩⟩⟩⟩)⟩
  · exact undiscovered_congr (fun _ => rfl) (by rw [hphase]; rfl)
  · simp [Walk.measure, hphase, Phase.arriving]
  · simp [Walk.measure, hphase, Phase.rank]

theorem Asks.step (h : Asks w) : Asks (w.step net answered) := by
  have hturned : ∀ nodeId, known w.turned.place.all nodeId = known w.place.all nodeId := by
    rw [Walk.turned]
    split
    · exact known_turn
    · exact fun _ => rfl
  have hturnedPhase : w.turned.phase = w.phase := by
    rw [Walk.turned]
    split <;> rfl
  cases hphase : w.phase <;> simp only [Walk.step, hphase]
  case check =>
    split_ifs with _ _ hnew
    · exact ⟨by simp, by simp⟩
    · exact ⟨by simp, by simp⟩
    · refine ⟨fun nodeId hwait => ?_, by simp⟩
      obtain rfl := Phase.wait.inj hwait
      rw [hturned]
      exact newNode_unknown hnew
    · exact ⟨by simp [hturnedPhase, hphase], by simp [hturnedPhase, hphase]⟩
  case wait nodeId =>
    cases htable : net.table nodeId with
    | none => exact ⟨by simp, by simp⟩
    | some table =>
      cases answered with
      | false => exact ⟨by simp, by simp⟩
      | true =>
        have hid : table.nodeId = nodeId := by simpa using List.find?_some htable
        refine ⟨by simp, fun t ht => ?_⟩
        obtain rfl := Phase.add.inj ht
        rw [known_explore, hid]
        exact h.wait nodeId hphase
  case add table => split_ifs <;> exact ⟨by simp, by simp⟩
  case timedOut => split_ifs <;> exact ⟨by simp, by simp⟩
  case ending => exact ⟨by simp, by simp⟩
  case finished => exact ⟨by simp [hphase], by simp [hphase]⟩

theorem step_retry_lt (hretry : w.retry < 256) : (w.step net answered).retry < 256 := by
  have hturned : w.turned.retry = w.retry := by
    rw [Walk.turned]
    split <;> rfl
  cases hphase : w.phase <;> simp only [Walk.step, hphase]
  case check => split_ifs <;> simp [hretry, hturned]
  case wait nodeId => cases net.table nodeId <;> cases answered <;> simp [hretry]
  case add table => split_ifs <;> exact hretry
  case timedOut => split_ifs <;> exact Nat.mod_lt _ (by decide)
  case ending => exact hretry
  case finished => exact hretry

/-- A walk on track that stays comes closer to its end. -/
theorem Tracks.step (h : Tracks net w) (hasks : Asks w) (hstays : w.Stays) (hretry : w.retry < 256)
    (hover : w.phase ≠ .finished) : Progress net w (w.step net answered) := by
  cases hphase : w.phase with
  | check => exact h.step_check hstays hphase
  | wait nodeId => exact h.step_wait hasks hphase
  | add table => exact h.step_add hasks hphase
  | timedOut => exact h.step_timedOut hstays hphase hretry
  | ending => exact h.step_ending hphase
  | finished => exact absurd hphase hover

/-! ## Lost -/

/-- No way back leads to the root. -/
def Walk.Passed (w : Walk) : Prop := w.insertBefore = true ∧ ∀ v ∈ w.place.path, v.isRoot = false

/-- The task checks the root again and again. -/
structure Walk.Stuck (w : Walk) : Prop where
  phase : w.phase = .check
  root : w.place.cur.isRoot = true
  notDone : w.place.cur.done = false
  nothing : newNode w.place.all w.place.cur = 0
  behind : w.place.behind = []
  turned : w.turned = w

def Walk.Lost (w : Walk) : Prop := (w.Passed ∧ w.phase ≠ .ending ∧ w.phase ≠ .finished) ∨ w.Stuck

theorem passed_back (h : w.Passed) (retry : Nat) (phase : Phase) :
    Walk.Passed ⟨w.place.back, w.insertBefore, retry, phase⟩ := by
  refine ⟨h.1, ?_⟩
  rcases eq_or_ne w.place.behind [] with hnil | hne
  · rw [back_of_nil hnil]
    exact h.2
  · rw [path_back hne]
    exact fun v hv => h.2 v (List.mem_cons_of_mem _ hv)

theorem passed_explore (h : w.Passed) :
    Walk.Passed { w with place := w.place.setCur w.place.cur.explore } := by
  refine ⟨h.1, fun v hv => ?_⟩
  rcases List.mem_cons.mp hv with rfl | hv
  · exact h.2 w.place.cur List.mem_cons_self
  · exact h.2 v (List.mem_cons_of_mem _ hv)

theorem Walk.Stuck.step (h : w.Stuck) : w.step net answered = w := by
  obtain ⟨place, insertBefore, retry, phase⟩ := w
  obtain ⟨rfl, hroot, hdone, hnothing, hbehind, hturned⟩ := h
  simp only [Walk.step, hdone, hnothing, Bool.false_eq_true, if_false, ne_eq, not_true_eq_false]
  rw [hturned, back_of_nil hbehind]

theorem Walk.Lost.step (h : w.Lost) : (w.step net answered).Lost := by
  rcases h with ⟨hpassed, hending, hover⟩ | hstuck
  · left
    have hroot : w.place.cur.isRoot = false := hpassed.2 _ List.mem_cons_self
    cases hphase : w.phase with
    | check =>
      simp only [Walk.step, hphase, turned_of_not_root hroot, hroot, Bool.false_eq_true, if_false]
      split_ifs
      · exact ⟨passed_back hpassed w.retry _, by simp, by simp⟩
      · exact ⟨hpassed, by simp, by simp⟩
      · exact ⟨passed_back hpassed w.retry _, by simp, by simp⟩
    | wait nodeId =>
      simp only [Walk.step, hphase]
      cases net.table nodeId with
      | none => exact ⟨hpassed, by simp, by simp⟩
      | some table =>
        cases answered with
        | false => exact ⟨hpassed, by simp, by simp⟩
        | true => exact ⟨passed_explore hpassed, by simp, by simp⟩
    | add table =>
      simp only [Walk.step, hphase]
      split_ifs
      · exact ⟨hpassed, by simp, by simp⟩
      · refine ⟨⟨hpassed.1, fun v hv => ?_⟩, by simp, by simp⟩
        rcases List.mem_cons.mp hv with rfl | hv
        · rfl
        · exact hpassed.2 v hv
    | timedOut =>
      simp only [Walk.step, hphase]
      split_ifs
      · exact ⟨passed_back (passed_explore hpassed) _ _, by simp, by simp⟩
      · exact ⟨hpassed, by simp, by simp⟩
    | ending => exact absurd hphase hending
    | finished => exact absurd hphase hover
  · rw [hstuck.step]
    exact .inr hstuck

theorem Walk.Lost.not_over (h : w.Lost) : w.phase ≠ .finished := by
  rcases h with ⟨-, -, hover⟩ | hstuck
  · exact hover
  · rw [hstuck.phase]
    simp

/-- What is behind the root and what is ahead of it has no other root. -/
theorem Tracks.others (h : Tracks net w) (hroot : w.place.cur.isRoot = true) :
    ∀ v ∈ w.place.behind ++ w.place.ahead, v.isRoot = false := by
  intro v hv
  have hsingle := h.single
  rw [Place.all, List.countP_cons, if_pos hroot] at hsingle
  have hnone : (w.place.behind ++ w.place.ahead).countP (·.isRoot) = 0 := by omega
  simpa using List.countP_eq_zero.mp hnone v hv

theorem not_stays (h : ¬w.Stays) :
    (w.phase = .check ∧ w.place.cur.isRoot = true ∧ w.place.cur.done = false ∧
        newNode w.place.all w.place.cur = 0) ∨
      (w.phase = .timedOut ∧ w.place.cur.isRoot = true ∧ topologyRetries ≤ (w.retry + 1) % 256 ∧
        w.insertBefore = true ∧ w.place.behind ≠ []) := by
  by_contra hno
  rw [not_or] at hno
  refine h ⟨fun hphase hroot hdone hnew => hno.1 ⟨hphase, hroot, hdone, hnew⟩,
    fun hphase hroot hretry hbefore => ?_⟩
  by_contra hne
  exact hno.2 ⟨hphase, hroot, hretry, hbefore, hne⟩

theorem newNode_congr {visits visits' : List Visit}
    (h : ∀ nodeId, known visits nodeId = known visits' nodeId) (v : Visit) :
    newNode visits v = newNode visits' v := by
  simp only [newNode, h]

theorem turned_turned : w.turned.turned = w.turned := by
  cases hturn : !w.insertBefore && (w.place.cur.isRoot && w.place.cur.portsExplored == 1) with
  | true =>
    have hw : w.turned = { w with place := w.place.turn, insertBefore := true } := by
      rw [Walk.turned, if_pos hturn]
    rw [hw]
    simp [Walk.turned]
  | false =>
    have hw : w.turned = w := by
      rw [Walk.turned, hturn]
      simp
    rw [hw, hw]

theorem turned_phase : w.turned.phase = w.phase := by
  rw [Walk.turned]
  split <;> rfl

theorem turned_behind {v : Visit} (hv : v ∈ w.turned.place.behind) :
    v ∈ w.place.behind ++ w.place.ahead := by
  rw [Walk.turned] at hv
  split at hv
  · exact List.mem_append_right _ hv
  · exact List.mem_append_left _ hv

/-- Something is behind the root only after the direction has changed. -/
theorem Tracks.turned_insertBefore (h : Tracks net w) (hroot : w.place.cur.isRoot = true)
    (hne : w.turned.place.behind ≠ []) : w.turned.insertBefore = true := by
  by_contra hbefore
  have hturned : w.turned = w := by
    rw [Walk.turned] at hbefore ⊢
    split at hbefore
    · simp at hbefore
    · rename_i hturn
      rw [if_neg hturn]
  rw [hturned] at hbefore hne
  have hbehind := h.toRootBehind
  rw [Bool.not_eq_true _ |>.mp hbefore] at hbehind
  exact hne (hbehind.behind_nil hroot)

/-- A walk that has to leave the root does not find it again. -/
theorem Tracks.lost (h : Tracks net w) (hstays : ¬w.Stays) : (w.step net answered).Lost := by
  rcases not_stays hstays with ⟨hphase, hroot, hdone, hnew⟩ | ⟨hphase, hroot, hretry, hbefore, hne⟩
  · obtain ⟨-, -, -, hknown, hcur, -⟩ := h.turned
    have hturnedPhase : w.turned.phase = .check := turned_phase.trans hphase
    have hstep : w.step net answered = { w.turned with place := w.turned.place.back } := by
      simp [Walk.step, hphase, hdone, hnew]
    rw [hstep]
    rcases eq_or_ne w.turned.place.behind [] with hnil | hne
    · right
      rw [back_of_nil hnil]
      refine ⟨hturnedPhase, hcur ▸ hroot, hcur ▸ hdone, ?_, hnil, turned_turned⟩
      rw [hcur, newNode_congr hknown]
      exact hnew
    · left
      refine ⟨⟨h.turned_insertBefore hroot hne, ?_⟩, by simp [hturnedPhase], by simp [hturnedPhase]⟩
      rw [path_back hne]
      exact fun v hv => h.others hroot v (turned_behind hv)
  · left
    have hback : (w.place.setCur w.place.cur.explore).back.path = w.place.behind := path_back hne
    simp only [Walk.step, hphase]
    rw [if_pos hretry]
    refine ⟨⟨hbefore, ?_⟩, by simp, by simp⟩
    rw [hback]
    exact fun v hv => h.others hroot v (List.mem_append_left _ hv)

/-! ## The run -/

theorem step_over (hphase : w.phase = .finished) : w.step net answered = w := by
  rw [Walk.step, hphase]

theorem tracks_start : Tracks net (.start net) := by
  refine ⟨⟨⟨_, rfl, rfl, Nat.zero_le _⟩, rfl, fun _ v hv => ?_⟩, by simp [Walk.start]⟩
  obtain rfl : _ = v := by simpa [Walk.start, Place.path] using hv
  rfl

theorem walkRun_asks (net : Network) (answered : Nat → Bool) (n : Nat) :
    Asks (walkRun net answered n) := by
  induction n with
  | zero => exact ⟨by simp [walkRun, Walk.start], by simp [walkRun, Walk.start]⟩
  | succ n ih => exact ih.step

/-- From a lost walk on no walk is over, and none was over before. -/
theorem Walk.Lost.never_over {answered : Nat → Bool} {m : Nat} (h : (walkRun net answered m).Lost)
    (n : Nat) : (walkRun net answered n).phase ≠ .finished := by
  intro hover
  have hlostFrom : ∀ k, m ≤ k → (walkRun net answered k).Lost :=
    forall_ge_of_step (fun k hk => hk.step) h
  have hoverFrom : ∀ k, n ≤ k → (walkRun net answered k).phase = .finished := by
    intro k hk
    induction k, hk using Nat.le_induction with
    | base => exact hover
    | succ k _ ih =>
      rw [walkRun, step_over ih]
      exact ih
  exact (hlostFrom (max n m) (le_max_right _ _)).not_over (hoverFrom (max n m) (le_max_left _ _))

/-- A walk is over in the end if and only if it always stays. -/
theorem walkRun_over_iff (net : Network) (answered : Nat → Bool) :
    (∃ n, (walkRun net answered n).phase = .finished) ↔ ∀ n, (walkRun net answered n).Stays := by
  have hretry : ∀ n, (walkRun net answered n).retry < 256 := by
    intro n
    induction n with
    | zero => exact Nat.zero_lt_succ _
    | succ n ih => exact step_retry_lt ih
  have hasks := walkRun_asks net answered
  constructor
  · rintro ⟨n, hover⟩
    by_contra hleaves
    obtain ⟨m, hm⟩ := not_forall.mp hleaves
    have hinv : ∀ k, Tracks net (walkRun net answered k) ∨ (walkRun net answered k).Lost := by
      intro k
      induction k with
      | zero => exact .inl tracks_start
      | succ k ih =>
        rcases ih with htracks | hlost
        · by_cases hstays : (walkRun net answered k).Stays
          · by_cases hend : (walkRun net answered k).phase = .finished
            · rw [walkRun, step_over hend]
              exact .inl htracks
            · exact .inl (htracks.step (hasks k) hstays (hretry k) hend).1
          · exact .inr (htracks.lost hstays)
        · exact .inr hlost.step
    have hlost : (walkRun net answered (m + 1)).Lost := by
      rcases hinv m with htracks | hlost
      · exact htracks.lost hm
      · exact hlost.step
    exact hlost.never_over n hover
  · intro hstays
    refine exists_goal_of_decreasing (x := walkRun net answered) (Tracks net) (·.phase = .finished)
      closer_wf (Walk.measure net) (fun n htracks hover => ?_) tracks_start
    exact htracks.step (hasks n) (hstays n) (hretry n) hover

end Track


/-! ## The size of the list -/

section Size
variable {net : Network} {answered : Bool} {w w' : Walk}

/-- The nodes in the list, and the one that is about to be added. -/
def Walk.size (w : Walk) : Nat := w.place.all.length + w.phase.arriving.toList.length

theorem size_le {p : Place Visit} {insertBefore : Bool} {retry : Nat} {phase : Phase}
    (hall : p.all.Perm w.place.all) (harriving : phase.arriving = w.phase.arriving) :
    Walk.size ⟨p, insertBefore, retry, phase⟩ +
        Walk.undiscovered net ⟨p, insertBefore, retry, phase⟩ ≤ w.size + w.undiscovered net := by
  have hundiscovered : Walk.undiscovered net ⟨p, insertBefore, retry, phase⟩ = w.undiscovered net :=
    undiscovered_congr (fun nodeId => hall.any_eq) harriving
  rw [Walk.size, Walk.size, hall.length_eq, harriving, hundiscovered]

theorem turned_all : w.turned.place.all.Perm w.place.all := by
  rw [Walk.turned]
  split
  · exact List.Perm.cons _ List.perm_append_comm
  · exact List.Perm.refl _

/-- A node that joins the list is one of the undiscovered. -/
theorem Asks.size_step (h : Asks w) :
    (w.step net answered).size + (w.step net answered).undiscovered net ≤
      w.size + w.undiscovered net := by
  cases hphase : w.phase <;> simp only [Walk.step, hphase]
  case check =>
    have harriving : w.phase.arriving = none := by rw [hphase]; rfl
    split_ifs
    · exact size_le (List.Perm.refl _) harriving.symm
    · exact size_le Place.back_all harriving.symm
    · exact size_le turned_all harriving.symm
    · exact size_le (Place.back_all.trans turned_all) (by rw [turned_phase])
  case wait nodeId =>
    have harriving : w.phase.arriving = none := by rw [hphase]; rfl
    cases htable : net.table nodeId with
    | none => exact size_le (List.Perm.refl _) harriving.symm
    | some table =>
      cases answered with
      | false => exact size_le (List.Perm.refl _) harriving.symm
      | true =>
        have hid : table.nodeId = nodeId := by simpa using List.find?_some htable
        have hunknown : known w.place.all table.nodeId = false := by
          rw [hid]
          exact h.wait nodeId hphase
        have hlt : Walk.undiscovered net
            ⟨w.place.setCur w.place.cur.explore, w.insertBefore, 0, .add table⟩ <
            w.undiscovered net :=
          undiscovered_arrived (List.mem_of_find?_eq_some htable) hunknown harriving
        have hsize : Walk.size ⟨w.place.setCur w.place.cur.explore, w.insertBefore, 0, .add table⟩ =
            w.size + 1 := by
          simp [Walk.size, hphase, Phase.arriving, Place.all, Place.setCur]
        simp only
        omega
  case add table =>
    rw [if_neg (by simp [h.add table hphase]), undiscovered_added hphase]
    simp [Walk.size, hphase, Phase.arriving, Place.all, Place.push]
  case timedOut =>
    split_ifs
    · have hexplore : (w.place.setCur w.place.cur.explore).all.length = w.place.all.length := by
        simp [Place.all, Place.setCur]
      have hundiscovered : ∀ retry, Walk.undiscovered net
          ⟨(w.place.setCur w.place.cur.explore).back, w.insertBefore, retry, .check⟩ =
            w.undiscovered net := fun retry =>
        undiscovered_congr (fun nodeId => (known_back nodeId).trans (known_explore nodeId))
          (by rw [hphase]; rfl)
      rw [hundiscovered]
      simp [Walk.size, hphase, Phase.arriving, Place.back_all.length_eq, hexplore]
    · exact size_le (List.Perm.refl _) (by rw [hphase]; rfl)
  case ending => exact size_le (List.Perm.refl _) (by rw [hphase]; rfl)
  case finished => exact Nat.le_refl _

/-- A network of at most 255 nodes fits into the list. -/
theorem walkRun_room (net : Network) (hnodes : net.nodes.length < 255) (answered : Nat → Bool)
    {n : Nat} {table : BcmpNeighborTableReply}
    (hphase : (walkRun net answered n).phase = .add table) :
    (walkRun net answered n).place.all.length < 255 := by
  have hsize : ∀ n, (walkRun net answered n).size + (walkRun net answered n).undiscovered net ≤
      1 + net.nodes.length := by
    intro n
    induction n with
    | zero =>
      have hle : (Walk.start net).undiscovered net ≤ net.nodes.length := List.countP_le_length
      have hone : (Walk.start net).size = 1 := rfl
      rw [walkRun, hone]
      omega
    | succ n ih => exact Nat.le_trans (walkRun_asks net answered n).size_step ih
  have hle := hsize n
  have harriving : (walkRun net answered n).size = (walkRun net answered n).place.all.length +
      1 := by
    rw [Walk.size, hphase]
    rfl
  omega

end Size

/-! ## Sessions -/

/-- The state before a step in which the task does not have to leave the root: a neighbor of the
root is still unknown, or nothing is behind the root. -/
structure StaysAtRoot (s : TopoContext) : Prop where
  checkNode : s.evtQueue = [.checkNode] → s.ask false TopologyMem.isRoot = some true →
    s.ask false TopologyMem.checkAllPortsExplored = some false →
    s.ask 0 (·.checkNeighborNodeIds s.fresh) ≠ some 0
  timeout : s.evtQueue = [.timeout] → s.ask false TopologyMem.isRoot = some true →
    topologyRetries ≤ (s.retryCount + 1) % 256 → s.insertBefore = true →
    ∀ net ∈ s.networkTopology, net.index = (net.length : Int) - 1

instance (s : TopoContext) : Decidable (StaysAtRoot s) :=
  decidable_of_iff ((s.evtQueue = [.checkNode] → s.ask false TopologyMem.isRoot = some true →
      s.ask false TopologyMem.checkAllPortsExplored = some false →
      s.ask 0 (·.checkNeighborNodeIds s.fresh) ≠ some 0) ∧
    (s.evtQueue = [.timeout] → s.ask false TopologyMem.isRoot = some true →
      topologyRetries ≤ (s.retryCount + 1) % 256 → s.insertBefore = true →
      ∀ net ∈ s.networkTopology, net.index = (net.length : Int) - 1))
    ⟨fun h => ⟨h.1, h.2⟩, fun h => ⟨h.1, h.2⟩⟩

/-- A new entry can still be counted. -/
def EntryFits (s : TopoContext) : Prop :=
  ∀ entry, s.evtQueue = [.addNode entry] → ∀ net ∈ s.networkTopology, net.length < 255

/-- The event `BcmpTopoEvtEnd` has been handled, and nothing is pending. -/
def SessionEnded (callback : Nat) (calls : List Call) (s : TopoContext) : Prop :=
  s.evtQueue = [] ∧ s.item = none ∧ s.timerRunning = false ∧ s.inProgress = false ∧
    ∃ m, s.calls = calls ++ [⟨callback, some m⟩]

section Session
variable {net : Network} {callback : Nat} {calls : List Call} {s : TopoContext} {w : Walk}

theorem Simulates.fits_iff (h : Simulates callback calls s w) :
    EntryFits s ↔ ∀ table, w.phase = .add table → w.place.all.length < 255 := by
  rcases h with ⟨p, hlive, hpending⟩ | ⟨hover, hended⟩
  · obtain ⟨topology, hnet, hcut⟩ := hlive.showing.cut
    have hlength : topology.length = w.place.all.length := by
      rw [← hlive.place, ← Place.map_all, List.length_map,
        ← (Place.list_perm s.insertBefore).length_eq]
      exact hcut.listed.length
    constructor
    · intro hfits table hphase
      rw [hphase] at hpending
      obtain ⟨a, hqueue, -⟩ := hpending
      rw [← hlength]
      exact hfits a hqueue topology hnet
    · intro hroom entry hqueue t ht
      obtain rfl : topology = t := by simpa [hnet] using ht
      rw [hlength]
      cases hphase : w.phase with
      | add table => exact hroom table hphase
      | finished =>
        rw [hphase] at hpending
        exact hpending.elim
      | check | timedOut | ending | wait =>
        rw [hphase] at hpending
        simp [hpending.1] at hqueue
  · exact iff_of_true (fun entry hqueue => by simp [hended.evtQueue] at hqueue)
      fun table hphase => by simp [hphase] at hover

theorem Simulates.ended_iff (h : Simulates callback calls s w) :
    SessionEnded callback calls s ↔ w.phase = .finished := by
  rcases h with ⟨p, hlive, hpending⟩ | ⟨hover, hended⟩
  · refine iff_of_false (fun hended => ?_) fun hover => ?_
    · have hprogress := hended.2.2.2.1
      rw [hlive.inProgress] at hprogress
      simp at hprogress
    · rw [hover] at hpending
      exact hpending
  · obtain ⟨m, -, hcalls, -⟩ := hended.calls
    exact iff_of_true ⟨hended.evtQueue, hended.item, hended.timerRunning, hended.inProgress, m,
      hcalls⟩
      hover

/-- With `INSERT_BEFORE` set nothing is behind the cursor exactly at the end of the list. -/
theorem Cut.index_last {m : TopologyMem} {p : Place (Nat × Visit)} (h : Cut m true p) :
    m.net.index = (m.net.length : Int) - 1 ↔ p.behind = [] := by
  have hindex := Rep.index h
  have hlength := (Rep.toListed h).length
  rw [hindex, hlength, ← List.length_eq_zero_iff]
  simp only [List.length_append, List.length_cons, List.length_reverse]
  omega

theorem Simulates.stays_iff (h : Simulates callback calls s w) : StaysAtRoot s ↔ w.Stays := by
  rcases h with ⟨p, hlive, hpending⟩ | ⟨hover, hended⟩
  · have hroot := hlive.showing.ask_isRoot
    have hdone := hlive.showing.ask_explored
    have hnew := hlive.showing.ask_newNode
    rw [hlive.place, hlive.cur] at hnew
    rw [hlive.cur] at hroot hdone
    obtain ⟨topology, hnet, hcut⟩ := hlive.showing.cut
    have hbehind : w.place.behind = [] ↔ p.behind = [] := by
      rw [← hlive.place]
      exact List.map_eq_nil_iff
    cases hphase : w.phase with
    | check =>
      rw [hphase] at hpending
      refine ⟨fun hstays => ⟨fun _ hisRoot hnotDone hzero => ?_, by simp [hphase]⟩,
        fun hstays => ⟨fun _ hisRoot hnotDone hzero => ?_, by simp [hpending.1]⟩⟩
      · exact hstays.checkNode hpending.1 (hroot.trans (by rw [hisRoot]))
          (hdone.trans (by rw [hnotDone])) (hnew.trans (by rw [hzero]))
      · rw [hroot, Option.some.injEq] at hisRoot
        rw [hdone, Option.some.injEq] at hnotDone
        rw [hnew, Option.some.injEq] at hzero
        exact hstays.check hphase hisRoot hnotDone hzero
    | timedOut =>
      rw [hphase] at hpending
      have hretry := hlive.retry
      have hbefore := hlive.insertBefore
      refine ⟨fun hstays => ⟨by simp [hphase], fun _ hisRoot hgiveUp hinsert => ?_⟩,
        fun hstays => ⟨by simp [hpending.1], fun _ hisRoot hgiveUp hinsert t ht => ?_⟩⟩
      · rw [hbefore, hinsert] at hcut
        have hindex := hstays.timeout hpending.1 (hroot.trans (by rw [hisRoot]))
          (by rw [hretry]; exact hgiveUp) (hbefore.trans hinsert) topology hnet
        exact hbehind.mpr (hcut.index_last.mp hindex)
      · rw [hroot, Option.some.injEq] at hisRoot
        rw [hretry] at hgiveUp
        rw [hinsert] at hcut
        obtain rfl : topology = t := by simpa [hnet] using ht
        exact hcut.index_last.mpr
          (hbehind.mp (hstays.timedOut hphase hisRoot hgiveUp (hbefore.symm.trans hinsert)))
    | wait nodeId =>
      rw [hphase] at hpending
      exact iff_of_true ⟨by simp [hpending.1], by simp [hpending.1]⟩
        ⟨by simp [hphase], by simp [hphase]⟩
    | add table =>
      rw [hphase] at hpending
      obtain ⟨a, hqueue, -⟩ := hpending
      exact iff_of_true ⟨by simp [hqueue], by simp [hqueue]⟩ ⟨by simp [hphase], by simp [hphase]⟩
    | ending =>
      rw [hphase] at hpending
      exact iff_of_true ⟨by simp [hpending.1], by simp [hpending.1]⟩
        ⟨by simp [hphase], by simp [hphase]⟩
    | finished =>
      rw [hphase] at hpending
      exact hpending.elim
  · exact iff_of_true ⟨by simp [hended.evtQueue], by simp [hended.evtQueue]⟩
      ⟨by simp [hover], by simp [hover]⟩

/-- As long as the entries fit the session simulates the walk, one event behind. -/
theorem topoRun_simulates (callback : Nat) (answered : Nat → Bool) (hidle : Idle s) {n : Nat}
    (hroom : ∀ k < n, ∀ table, (walkRun net answered k).phase = .add table →
      (walkRun net answered k).place.all.length < 255) :
    ∃ s', topoRun net answered (s.bcmpTopologyStart callback) (n + 1) = some s' ∧
      Simulates callback s.calls s' (walkRun net answered n) := by
  induction n with
  | zero => exact drive_start hidle
  | succ n ih =>
    obtain ⟨s', hrun, hsim⟩ := ih fun k hk => hroom k (Nat.lt_succ_of_lt hk)
    obtain ⟨s'', hdrive, hsim'⟩ := drive_simulates hsim (hroom n (Nat.lt_succ_self n))
    refine ⟨s'', ?_, hsim'⟩
    rw [topoRun, hrun]
    exact hdrive

/-- The entries of the walk fit when those of the session do. -/
theorem walkRun_fits (answered : Nat → Bool) (hidle : Idle s)
    (hfits : ∀ n s', topoRun net answered (s.bcmpTopologyStart callback) n = some s' → EntryFits s')
    (n : Nat) : ∀ table, (walkRun net answered n).phase = .add table →
      (walkRun net answered n).place.all.length < 255 := by
  induction n using Nat.strong_induction_on with
  | _ n ih =>
    obtain ⟨s', hrun, hsim⟩ := topoRun_simulates callback answered hidle ih
    exact hsim.fits_iff.mp (hfits (n + 1) s' hrun)

/-- A session ends exactly when its walk does. -/
theorem sessionEnded_iff_over (answered : Nat → Bool) (hidle : Idle s)
    (hroom : ∀ n table, (walkRun net answered n).phase = .add table →
      (walkRun net answered n).place.all.length < 255) :
    (∃ n s', topoRun net answered (s.bcmpTopologyStart callback) n = some s' ∧
      SessionEnded callback s.calls s') ↔ ∃ n, (walkRun net answered n).phase = .finished := by
  have hsimulates := fun n => topoRun_simulates (n := n) callback answered hidle
    fun k _ => hroom k
  constructor
  · rintro ⟨n, s', hrun, hended⟩
    cases n with
    | zero =>
      obtain rfl := Option.some.inj hrun
      simp [SessionEnded, TopoContext.bcmpTopologyStart, TopoContext.bmQueueSend, hidle.evtQueue,
        bcmpTopoEvtQueueLen] at hended
    | succ n =>
      obtain ⟨s'', hrun', hsim⟩ := hsimulates n
      obtain rfl : s' = s'' := Option.some.inj (hrun.symm.trans hrun')
      exact ⟨n, hsim.ended_iff.mp hended⟩
  · rintro ⟨n, hover⟩
    obtain ⟨s', hrun, hsim⟩ := hsimulates n
    exact ⟨n + 1, s', hrun, hsim.ended_iff.mpr hover⟩

/-- A session ends if and only if the task never has to leave the root. -/
theorem discovery_ends_iff (net : Network) (answered : Nat → Bool) (callback : Nat)
    (s : TopoContext) (hidle : Idle s)
    (hfits : ∀ n s', topoRun net answered (s.bcmpTopologyStart callback) n = some s' →
      EntryFits s') :
    (∃ n s', topoRun net answered (s.bcmpTopologyStart callback) n = some s' ∧
        SessionEnded callback s.calls s') ↔
      ∀ n s', topoRun net answered (s.bcmpTopologyStart callback) n = some s' → StaysAtRoot s' := by
  have hroom := walkRun_fits answered hidle hfits
  rw [sessionEnded_iff_over answered hidle hroom, walkRun_over_iff]
  have hsimulates := fun n => topoRun_simulates (n := n) callback answered hidle
    fun k _ => hroom k
  constructor
  · intro hstays n s' hrun
    cases n with
    | zero =>
      obtain rfl := Option.some.inj hrun
      have hqueue : (s.bcmpTopologyStart callback).evtQueue = [.start callback] := by
        simp [TopoContext.bcmpTopologyStart, TopoContext.bmQueueSend, hidle.evtQueue,
          bcmpTopoEvtQueueLen]
      exact ⟨by simp [hqueue], by simp [hqueue]⟩
    | succ n =>
      obtain ⟨s'', hrun', hsim⟩ := hsimulates n
      obtain rfl : s' = s'' := Option.some.inj (hrun.symm.trans hrun')
      exact hsim.stays_iff.mpr (hstays n)
  · intro hstays n
    obtain ⟨s', hrun, hsim⟩ := hsimulates n
    exact hsim.stays_iff.mp (hstays (n + 1) s' hrun)

/-- A network of at most 255 nodes always fits. -/
theorem entryFits_of_nodes (answered : Nat → Bool) (hidle : Idle s)
    (hnodes : net.nodes.length < 255) (n : Nat) (s' : TopoContext)
    (hrun : topoRun net answered (s.bcmpTopologyStart callback) n = some s') : EntryFits s' := by
  cases n with
  | zero =>
    obtain rfl := Option.some.inj hrun
    intro entry hqueue
    simp [TopoContext.bcmpTopologyStart, TopoContext.bmQueueSend, hidle.evtQueue,
      bcmpTopoEvtQueueLen] at hqueue
  | succ n =>
    obtain ⟨s'', hrun', hsim⟩ := topoRun_simulates (n := n) callback answered hidle
      fun k _ table => walkRun_room net hnodes answered
    obtain rfl : s' = s'' := Option.some.inj (hrun.symm.trans hrun')
    exact hsim.fits_iff.mpr fun table => walkRun_room net hnodes answered

/-- Nothing happens in a session without a pending event and without a request. -/
theorem topoRun_over {answered : Nat → Bool} {s' : TopoContext} {N : Nat}
    (hrun : topoRun net answered s N = some s') (hqueue : s'.evtQueue = [])
    (htimer : s'.timerRunning = false) {n : Nat} (hn : N ≤ n) :
    topoRun net answered s n = some s' := by
  induction n, hn using Nat.le_induction with
  | base => exact hrun
  | succ n _ ih =>
    have hdrive : drive net (answered n) s' = some s' := by simp [drive, hqueue, htimer]
    rw [topoRun, ih, Option.bind_some, hdrive]

end Session

/-- The table of a node with neighbors on the ports 1, 2 and so on, all of them up. -/
def tableOf (nodeId : Nat) (neighbors : List Nat) : BcmpNeighborTableReply :=
  ⟨nodeId, neighbors.map fun _ => ⟨true, 0⟩,
    neighbors.zipIdx.map fun (neighbor, i) => ⟨neighbor, UInt8.ofNat (i + 1), 1⟩⟩

/-- On a line of three nodes that all answer, with the root in the middle, the task has seen
everything after eleven steps and has not left the root. -/
theorem discovery_ends_on_line :
    let net : Network := ⟨tableOf 1 [2, 3], [tableOf 2 [1], tableOf 3 [1]], by decide⟩
    ∃ n s', topoRun net (fun _ => true) (TopoContext.init.bcmpTopologyStart 7) n = some s' ∧
      SessionEnded 7 [] s' := by
  intro net
  have hfits : ∀ n s', topoRun net (fun _ => true) (TopoContext.init.bcmpTopologyStart 7) n =
      some s' → EntryFits s' := entryFits_of_nodes _ idle_init (by decide)
  have hstays : ∀ n ≤ 11, ∀ s' ∈ topoRun net (fun _ => true)
      (TopoContext.init.bcmpTopologyStart 7) n, StaysAtRoot s' := by decide +kernel
  obtain ⟨s₁, hs₁, hqueue, htimer⟩ : ∃ s₁, topoRun net (fun _ => true)
      (TopoContext.init.bcmpTopologyStart 7) 11 = some s₁ ∧ s₁.evtQueue = [] ∧
        s₁.timerRunning = false :=
    ⟨(topoRun net (fun _ => true) (TopoContext.init.bcmpTopologyStart 7) 11).get
      (by decide +kernel), by simp, by decide +kernel, by decide +kernel⟩
  refine (discovery_ends_iff net (fun _ => true) 7 .init idle_init hfits).mpr fun n s' hrun => ?_
  rcases Nat.le_total n 11 with hle | hle
  · exact hstays n hle s' hrun
  · -- from there on nothing happens
    obtain rfl := Option.some.inj ((topoRun_over hs₁ hqueue htimer hle).symm.trans hrun)
    exact hstays 11 le_rfl _ hs₁

/-- On the same line with a silent node 3 the task looks at node 2 forever; on a ring of three nodes
that all answer it looks at node 3 forever. -/
theorem discovery_never_ends :
    let line : Network := ⟨tableOf 1 [2, 3], [tableOf 2 [1]], by decide⟩
    let ring : Network := ⟨tableOf 1 [2, 3], [tableOf 2 [1, 3], tableOf 3 [1, 2]], by decide⟩
    (¬∃ n s', topoRun line (fun _ => true) (TopoContext.init.bcmpTopologyStart 7) n = some s' ∧
        SessionEnded 7 [] s') ∧
      ¬∃ n s', topoRun ring (fun _ => true) (TopoContext.init.bcmpTopologyStart 7) n = some s' ∧
        SessionEnded 7 [] s' := by
  intro line ring
  have hline : (walkRun line (fun _ => true) 13).Lost :=
    .inl ⟨⟨by decide +kernel, by decide +kernel⟩, by decide +kernel, by decide +kernel⟩
  have hring : (walkRun ring (fun _ => true) 9).Lost :=
    .inl ⟨⟨by decide +kernel, by decide +kernel⟩, by decide +kernel, by decide +kernel⟩
  constructor
  · rintro hended
    obtain ⟨n, hover⟩ := (sessionEnded_iff_over (fun _ => true) idle_init
      fun n table => walkRun_room line (by decide) _).mp hended
    exact hline.never_over n hover
  · rintro hended
    obtain ⟨n, hover⟩ := (sessionEnded_iff_over (fun _ => true) idle_init
      fun n table => walkRun_room ring (by decide) _).mp hended
    exact hring.never_over n hover

end BmCore.Topology
