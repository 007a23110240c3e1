import BmCore.Integrations.DiscoveryEnds

/-!
# Sessions one after the other

The tasks take their steps in any order. A session is in order as long as it has one event pending,
or none and its timer running. A reply that comes when the timer has expired already, a timer that
expires when nobody waits, and a full queue break this. -/
namespace BmCore.Topology
open Library

/-- The callback of a request to start. -/
def BcmpTopoQueueItem.starting : BcmpTopoQueueItem → Option Nat
  | start callback => some callback
  | _ => none

/-- The entry that an event brings. -/
def BcmpTopoQueueItem.entry : BcmpTopoQueueItem → Option Nat
  | addNode entry => some entry
  | _ => none

namespace TopoContext
variable (s : TopoContext)

/-- The events that the task has not handled. -/
def unhandled : List BcmpTopoQueueItem := s.item.toList ++ s.evtQueue

/-- Those of a session. -/
def pending : List BcmpTopoQueueItem := s.unhandled.filter (·.isSession)

/-- The callbacks that are to be called: those of the requests to start, and that of the session. -/
def owed : List Nat :=
  s.unhandled.filterMap (·.starting) ++ if s.inProgress then s.callback.toList else []

/-- One more event fits into the queue. -/
def HasRoom : Prop := s.evtQueue.length < bcmpTopoEvtQueueLen

instance : Decidable s.HasRoom := inferInstanceAs (Decidable (_ < _))

end TopoContext

/-- Every request to start is answered once, a session has at most one event pending and none after
its end, and every entry is in the list or comes with the pending event. -/
structure InOrder (s : TopoContext) : Prop where
  once : s.started.Perm (s.calls.map (·.callback) ++ s.owed)
  single : s.pending.length ≤ 1
  ended : s.inProgress = false → s.pending = []
  topology : s.pending ≠ [] → s.networkTopology ≠ none
  entries : ∀ a, s.heap a ≠ none → .addNode a ∈ s.pending ∨
    ∃ net es, s.networkTopology = some net ∧ Listed ⟨s.heap, net⟩ es ∧ a ∈ es.map Prod.fst
  alive : s.inProgress = true → s.pending = [] → s.timerRunning = true

/-- A step that keeps the order. A reply stops the timer exactly when the session waits for it, the
timer expires only then, and the events fit into the queue and the entries into the list. -/
def Orderly (s : TopoContext) : TopoMove → Prop
  | .start _ | .receive => True
  | .timer => s.timerRunning = true → s.inProgress = true ∧ s.pending = [] ∧ s.HasRoom
  | .reply reply stopped _ _ =>
    s.targetNodeId = reply.nodeId → stopped = true → s.inProgress = true →
      (s.neighborRequestCb = true ↔ s.pending = []) ∧
        (s.neighborRequestCb = true → s.HasRoom ∧ reply.WellFormed)
  | .handle env =>
    match s.item with
    | none | some .done => True
    | some (.start _) => s.inProgress = false → s.HasRoom ∧ env.own.WellFormed
    | some (.addNode _) => s.HasRoom ∧ ∀ net ∈ s.networkTopology, net.length < 255
    | some .checkNode | some .timeout => s.HasRoom

instance (s : TopoContext) (move : TopoMove) : Decidable (Orderly s move) := by
  unfold Orderly
  split
  · infer_instance
  · infer_instance
  · infer_instance
  · infer_instance
  · split <;> infer_instance

/-- The state after the moves, `none` when one of them reads what is not there. -/
def sessions (moves : List TopoMove) : Option TopoContext := moves.foldlM topoStep .init

/-! ## The events -/

section Events
variable {s t : TopoContext} {ev : Option BcmpTopoQueueItem} {item : BcmpTopoQueueItem}

/-- `t` is `s` with one more event, or with none; the list may be another one. -/
structure Sends (s t : TopoContext) (ev : Option BcmpTopoQueueItem) : Prop where
  evtQueue : t.evtQueue = s.evtQueue ++ ev.toList
  item : t.item = s.item
  started : t.started = s.started
  calls : t.calls = s.calls
  callback : t.callback = s.callback
  inProgress : t.inProgress = s.inProgress
  sentRequest : t.sentRequest = s.sentRequest

theorem send_eq (h : s.HasRoom) : s.bmQueueSend item =
    { s with evtQueue := s.evtQueue ++ [item] } :=
  if_pos h

theorem pending_append (h : t.unhandled = s.unhandled ++ ev.toList)
    (hev : ∀ e ∈ ev, e.isSession = true) :
    t.pending = s.pending ++ ev.toList := by
  have hfilter : ev.toList.filter (·.isSession) = ev.toList :=
    List.filter_eq_self.mpr fun e he => hev e (Option.mem_toList.mp he)
  rw [TopoContext.pending, h, List.filter_append, hfilter]
  rfl

theorem starting_append (h : t.unhandled = s.unhandled ++ ev.toList)
    (hev : ∀ e ∈ ev, e.isSession = true) :
    t.unhandled.filterMap (·.starting) = s.unhandled.filterMap (·.starting) := by
  have hnone : ev.toList.filterMap (·.starting) = [] := by
    rw [List.filterMap_eq_nil_iff]
    intro e he
    have hsession := hev e (Option.mem_toList.mp he)
    cases e with
    | start => simp [BcmpTopoQueueItem.isSession] at hsession
    | checkNode | addNode | timeout | done => rfl
  rw [h, List.filterMap_append, hnone, List.append_nil]

namespace Sends

theorem unhandled (h : Sends s t ev) : t.unhandled = s.unhandled ++ ev.toList := by
  rw [TopoContext.unhandled, h.item, h.evtQueue, ← List.append_assoc]
  rfl

theorem pending (h : Sends s t ev) (hev : ∀ e ∈ ev, e.isSession = true) :
    t.pending = s.pending ++ ev.toList := pending_append h.unhandled hev

theorem owed (h : Sends s t ev) (hev : ∀ e ∈ ev, e.isSession = true) : t.owed = s.owed := by
  rw [TopoContext.owed, starting_append h.unhandled hev, h.inProgress, h.callback]
  rfl

end Sends

end Events

/-! ## The invariant -/

/-- A session with its list; the entries that are not in it are those of `others`. -/
structure Core (s : TopoContext) (p : Place (Nat × Visit)) (others : List Nat) : Prop where
  showing : Shows s p
  inProgress : s.inProgress = true
  sentRequest : s.sentRequest = true
  callback : ∃ callback, s.callback = some callback
  entries : ∀ a, s.heap a ≠ none → a ∈ others ++ p.all.map Prod.fst

/-- What the session waits for. -/
def Expects (s : TopoContext) (p : Place (Nat × Visit)) : Option BcmpTopoQueueItem → Prop
  | none => s.timerRunning = true
  | some (.addNode a) => a ∉ p.all.map Prod.fst ∧
    ∃ table, table.WellFormed ∧ s.heap a = some (mkEntry none none ⟨0, false, table⟩)
  | some (.start _) => False
  | some .checkNode | some .timeout | some .done => True

/-- No session, and nothing is left of the last one. -/
structure Quiet (s : TopoContext) : Prop where
  inProgress : s.inProgress = false
  sentRequest : s.sentRequest = false
  pending : s.pending = []
  networkTopology : s.networkTopology = none
  heap : ∀ a, s.heap a = none

structure Running (s : TopoContext) (p : Place (Nat × Visit)) (ev : Option BcmpTopoQueueItem) :
    Prop where
  core : Core s p (ev.bind (·.entry)).toList
  pending : s.pending = ev.toList
  expects : Expects s p ev

def Answered (s : TopoContext) : Prop := s.started.Perm (s.calls.map (·.callback) ++ s.owed)

structure SessionInv (s : TopoContext) : Prop where
  answered : Answered s
  session : Quiet s ∨ ∃ p ev, Running s p ev

section Invariant
variable {s t : TopoContext} {p p' : Place (Nat × Visit)} {others : List Nat}
  {ev : Option BcmpTopoQueueItem}

theorem SessionInv.inOrder (h : SessionInv s) : InOrder s := by
  rcases h.session with hquiet | ⟨p, ev, hrunning⟩
  · refine ⟨h.answered, by simp [hquiet.pending], fun _ => hquiet.pending,
      fun hne => absurd hquiet.pending hne, fun a ha => absurd (hquiet.heap a) ha,
      fun hprogress => ?_⟩
    simp [hquiet.inProgress] at hprogress
  · obtain ⟨net, hnet, hcut⟩ := hrunning.core.showing.cut
    refine ⟨h.answered, ?_, fun hprogress => ?_, fun _ => by simp [hnet], fun a ha => ?_,
      fun _ hnil => ?_⟩
    · rw [hrunning.pending]
      cases ev <;> simp
    · simp [hrunning.core.inProgress] at hprogress
    · rcases List.mem_append.mp (hrunning.core.entries a ha) with hother | hlist
      · left
        rw [hrunning.pending]
        rw [Option.mem_toList, Option.bind_eq_some_iff] at hother
        obtain ⟨e, rfl, hentry⟩ := hother
        cases e with
        | addNode b =>
          obtain rfl : b = a := Option.some.inj hentry
          simp
        | start | checkNode | timeout | done => simp [BcmpTopoQueueItem.entry] at hentry
      · refine .inr ⟨net, _, hnet, hcut.listed, ?_⟩
        exact ((Place.list_perm _).map Prod.fst).mem_iff.mpr hlist
    · have hexpects := hrunning.expects
      rw [hrunning.pending, Option.toList_eq_nil_iff] at hnil
      rw [hnil] at hexpects
      exact hexpects

/-- The handler has sent the next event of the session. -/
theorem Core.running (hs : Core s p others) (ev : Option BcmpTopoQueueItem) (hanswered : Answered s)
    (hpending : s.pending = []) (hsends : Sends s t ev) (hev : ∀ e ∈ ev, e.isSession = true)
    (hshows : Shows t p')
    (hentries : ∀ a, t.heap a ≠ none → a ∈ (ev.bind (·.entry)).toList ++ p'.all.map Prod.fst)
    (hexpects : Expects t p' ev) : SessionInv t := by
  obtain ⟨callback, hcallback⟩ := hs.callback
  refine ⟨?_, .inr ⟨p', ev, ⟨hshows, hsends.inProgress.trans hs.inProgress,
    hsends.sentRequest.trans hs.sentRequest, ⟨callback, hsends.callback.trans hcallback⟩, hentries⟩,
    ?_,
    hexpects⟩⟩
  · rw [Answered, hsends.started, hsends.calls, hsends.owed hev]
    exact hanswered
  · rw [hsends.pending hev, hpending, List.nil_append]

/-! ## The handlers -/

/-- The entries of a state whose list has the entries of `p`. -/
theorem Core.entries_of (h : Core s p others)
    (hperm : (p'.all.map Prod.fst).Perm (p.all.map Prod.fst))
    (hheap : ∀ a, a ∉ p.all.map Prod.fst → t.heap a = s.heap a) :
    ∀ a, t.heap a ≠ none → a ∈ others ++ p'.all.map Prod.fst := by
  intro a ha
  rw [List.mem_append, hperm.mem_iff, ← List.mem_append]
  by_cases hmem : a ∈ p.all.map Prod.fst
  · exact List.mem_append_right others hmem
  · rw [hheap a hmem] at ha
    exact h.entries a ha

theorem Core.topologyEnd (h : Core s p []) (hanswered : Answered s) (hpending : s.pending = [])
    (hroom : s.HasRoom) : SessionInv s.topologyEnd := by
  have hend : s.topologyEnd = { s with evtQueue := s.evtQueue ++ [.done] } := send_eq hroom
  rw [hend]
  exact h.running (some .done) hanswered hpending ⟨rfl, rfl, rfl, rfl, rfl, rfl, rfl⟩
    (by simp [BcmpTopoQueueItem.isSession])
    (h.showing.congr rfl rfl rfl rfl) h.entries trivial

/-- The context after a handler that looks at the next node. -/
theorem Core.checkNext (h : Core s p []) (hanswered : Answered s) (hpending : s.pending = [])
    (hroom : s.HasRoom) (hsends : Sends s t none) (hshows : Shows t p')
    (hperm : (p'.all.map Prod.fst).Perm (p.all.map Prod.fst))
    (hheap : ∀ a, a ∉ p.all.map Prod.fst → t.heap a = s.heap a) :
    SessionInv (t.bmQueueSend .checkNode) := by
  have hqueue : t.evtQueue = s.evtQueue := by simpa using hsends.evtQueue
  have hroom' : t.HasRoom := by
    rw [TopoContext.HasRoom, hqueue]
    exact hroom
  rw [send_eq hroom']
  refine h.running (some .checkNode) hanswered hpending
    ⟨?_, hsends.item, hsends.started, hsends.calls,
    hsends.callback, hsends.inProgress, hsends.sentRequest⟩ (by simp [BcmpTopoQueueItem.isSession])
    (hshows.congr rfl rfl rfl rfl) (h.entries_of hperm hheap) trivial
  simp [hqueue]

theorem Core.turned (h : Core s p []) :
    Core (Shows.turned s p.cur.2) (Shows.turnedPlace s p) [] := by
  refine ⟨h.showing.shows_turned, h.inProgress, h.sentRequest, h.callback,
    h.entries_of ?_ fun a _ => rfl⟩
  rw [Shows.turnedPlace]
  split
  · exact (List.Perm.cons p.cur List.perm_append_comm).map Prod.fst
  · exact List.Perm.refl _

theorem Core.moveBack (h : Core s p []) (hanswered : Answered s) (hpending : s.pending = [])
    (hroom : s.HasRoom) :
    ∃ t, s.moveBack = some t ∧ SessionInv (t.bmQueueSend .checkNode) := by
  obtain ⟨net, hmove, hback⟩ := h.showing.moveBack
  refine ⟨_, hmove, h.checkNext hanswered hpending hroom
    ⟨by simp, rfl, rfl, rfl, rfl, rfl, rfl⟩ hback
    (Place.back_all.map Prod.fst) fun a _ => rfl⟩

theorem Core.request (h : Core s p []) (hanswered : Answered s) (hpending : s.pending = [])
    (hroom : s.HasRoom) (nodeId : Nat) (env : HandleEnv) :
    SessionInv (if (s.bcmpRequestNeighborTable nodeId env).2 then
      (s.bcmpRequestNeighborTable nodeId env).1
      else (s.bcmpRequestNeighborTable nodeId env).1.topologyEnd) := by
  let t := (s.bcmpRequestNeighborTable nodeId env).1
  have hfields : t.evtQueue = s.evtQueue ∧ t.item = s.item ∧ t.started = s.started ∧
      t.calls = s.calls ∧ t.callback = s.callback ∧ t.inProgress = s.inProgress ∧
      t.sentRequest = s.sentRequest ∧ t.heap = s.heap ∧ t.networkTopology = s.networkTopology ∧
      t.insertBefore = s.insertBefore ∧ t.fresh = s.fresh := by
    simp only [t, TopoContext.bcmpRequestNeighborTable]
    split <;> exact ⟨rfl, rfl, rfl, rfl, rfl, rfl, rfl, rfl, rfl, rfl, rfl⟩
  obtain ⟨hqueue, hitem, hstarted, hcalls, hcallback, hprogress, hsent, hheap, hnet, hbefore,
      hfresh⟩ :=
    hfields
  have hshows : Shows t p := h.showing.congr hnet hheap hbefore hfresh
  have hentries : ∀ a, t.heap a ≠ none → a ∈ p.all.map Prod.fst := by
    rw [hheap]
    exact h.entries
  split
  · rename_i hok
    have htimer : t.timerRunning = true := by
      simp only [t, TopoContext.bcmpRequestNeighborTable] at hok ⊢
      split at hok
      · simp at hok
      · rename_i hcreated
        rw [if_neg hcreated]
        rw [Bool.and_eq_true] at hok
        exact hok.1
    exact h.running none hanswered hpending
      ⟨by simpa using hqueue, hitem, hstarted, hcalls, hcallback, hprogress, hsent⟩ (by simp) hshows
      hentries htimer
  · have hroom' : t.HasRoom := by
      rw [TopoContext.HasRoom, hqueue]
      exact hroom
    change SessionInv t.topologyEnd
    have hend : t.topologyEnd = { t with evtQueue := t.evtQueue ++ [.done] } := send_eq hroom'
    rw [hend]
    exact h.running (some .done) hanswered hpending
      ⟨by simp [hqueue], hitem, hstarted, hcalls, hcallback, hprogress, hsent⟩
      (by simp [BcmpTopoQueueItem.isSession]) (hshows.congr rfl rfl rfl rfl) hentries trivial

theorem Core.checkNode (h : Core s p []) (hanswered : Answered s) (hpending : s.pending = [])
    (hroom : s.HasRoom) (env : HandleEnv) :
    ∃ t, s.processCheckNodeEvent env = some t ∧ SessionInv t := by
  cases hdone : p.cur.2.done with
  | true =>
    cases hroot : p.cur.2.isRoot with
    | true =>
      exact ⟨_, h.showing.check_done_root hdone hroot, h.topologyEnd hanswered hpending hroom⟩
    | false =>
      obtain ⟨net, hcheck, hback⟩ := h.showing.check_done hdone hroot
      exact ⟨_, hcheck, h.checkNext hanswered hpending hroom
        ⟨by simp, rfl, rfl, rfl, rfl, rfl, rfl⟩ hback
        (Place.back_all.map Prod.fst) fun a _ => rfl⟩
  | false =>
    rw [h.showing.check_eq hdone]
    have hturned := h.turned
    split
    · exact ⟨_, rfl, hturned.request hanswered hpending hroom _ env⟩
    · obtain ⟨t, hmove, hinv⟩ := hturned.moveBack hanswered hpending hroom
      exact ⟨_, by rw [hmove]; rfl, hinv⟩

theorem Core.timeout (h : Core s p []) (hanswered : Answered s) (hpending : s.pending = [])
    (hroom : s.HasRoom) : ∃ t, s.handleTimeout = some t ∧ SessionInv t := by
  by_cases hretry : topologyRetries ≤ (Shows.retried s).retryCount
  · obtain ⟨heap, net, htimeout, hother, hshows⟩ := h.showing.handleTimeout hretry
    refine ⟨_, htimeout, h.checkNext hanswered hpending hroom
      ⟨by simp [Shows.retried], rfl, rfl, rfl, rfl, rfl, rfl⟩
      hshows (Place.back_all.map Prod.fst) fun a ha => hother a ?_⟩
    rintro rfl
    exact ha (List.mem_map_of_mem List.mem_cons_self)
  · refine ⟨_, Shows.handleTimeout_retry (Nat.not_le.mp hretry),
      h.checkNext hanswered hpending hroom
      ⟨by simp [Shows.retried], rfl, rfl, rfl, rfl, rfl, rfl⟩ (h.showing.congr rfl rfl rfl rfl)
      (List.Perm.refl _) fun a _ => rfl⟩

/-- The event brings an entry that is not in the list. -/
theorem Core.addNode {a : Nat} (h : Core s p [a]) (hanswered : Answered s)
    (hpending : s.pending = []) (hroom : s.HasRoom) (hexpects : Expects s p (some (.addNode a)))
    (hfits : ∀ net ∈ s.networkTopology, net.length < 255) :
    ∃ t, s.handleAddNode a = some t ∧ SessionInv t := by
  obtain ⟨hnotin, table, hwf, hcell⟩ := hexpects
  cases hknown : known (p.map Prod.snd).all table.nodeId with
  | true =>
    refine ⟨_, h.showing.handleAddNode_known hcell hknown, ?_⟩
    rw [send_eq (by exact hroom)]
    refine h.running (some .checkNode) hanswered hpending ⟨rfl, rfl, rfl, rfl, rfl, rfl, rfl⟩
      (by simp [BcmpTopoQueueItem.isSession]) ((h.showing.freeOther hnotin).congr rfl rfl rfl rfl)
      (fun x hx => ?_) trivial
    have hne : x ≠ a := by
      rintro rfl
      simp at hx
    have hmem := h.entries x (by simpa [hne] using hx)
    simpa [hne, BcmpTopoQueueItem.entry] using hmem
  | false =>
    obtain ⟨net, hnet, hcut⟩ := h.showing.cut
    have hlength : p.all.length < 255 := by
      rw [← (Place.list_perm s.insertBefore).length_eq, ← hcut.listed.length]
      exact hfits net hnet
    have hvalid : Visit.Valid ⟨0, false, table⟩ := ⟨Nat.zero_lt_succ _, hwf⟩
    obtain ⟨heap, net', hadd, hother, hshows⟩ :=
      h.showing.handleAddNode hcell hnotin hlength hvalid hknown
    refine ⟨_, hadd, ?_⟩
    rw [send_eq (by exact hroom)]
    refine h.running (some .checkNode) hanswered hpending ⟨rfl, rfl, rfl, rfl, rfl, rfl, rfl⟩
      (by simp [BcmpTopoQueueItem.isSession]) (hshows.congr rfl rfl rfl rfl)
      (fun x hx => ?_) trivial
    have hmem : x ∈ a :: p.all.map Prod.fst := by
      by_contra hnot
      rw [List.mem_cons, not_or] at hnot
      have hheap : heap x ≠ none := hx
      rw [hother x hnot.2 hnot.1] at hheap
      have hmem := h.entries x hheap
      simp only [List.singleton_append, List.mem_cons] at hmem
      exact hmem.elim hnot.1 hnot.2
    simpa [Place.all, Place.push, BcmpTopoQueueItem.entry] using hmem

theorem Core.done (h : Core s p []) (hanswered : Answered s) (hpending : s.pending = []) :
    ∃ t, s.handleEnd = some t ∧ SessionInv t := by
  obtain ⟨callback, hcallback⟩ := h.callback
  obtain ⟨net, hnet, -⟩ := h.showing.cut
  refine ⟨_, h.showing.handleEnd hcallback hnet, ?_, .inl ⟨rfl, rfl, hpending, rfl, fun a => ?_⟩⟩
  · have howed : s.owed = s.unhandled.filterMap (·.starting) ++ [callback] := by
      simp [TopoContext.owed, h.inProgress, hcallback]
    have hover : (Shows.ended s p (s.calls ++ [⟨callback, some ⟨s.heap, net⟩⟩])).owed =
        s.unhandled.filterMap (·.starting) := by
      simp [TopoContext.owed, Shows.ended, TopoContext.unhandled]
    rw [Answered] at hanswered ⊢
    rw [howed] at hanswered
    rw [hover]
    refine hanswered.trans ?_
    simp only [Shows.ended, List.map_append, List.map_cons, List.map_nil, List.append_assoc]
    exact List.perm_append_comm.append_left _
  · simp only [Shows.ended, without]
    split
    · rfl
    · rename_i hnot
      by_contra hne
      exact hnot (h.entries a hne)

/-- The callback of a request to start is called with a null pointer. -/
def refused (s : TopoContext) (callback : Nat) : TopoContext :=
  { s with calls := s.calls ++ [⟨callback, none⟩] }

/-- A request to start has been received. -/
structure Asked (s : TopoContext) (callback : Nat) : Prop where
  answered : s.started.Perm (s.calls.map (·.callback) ++ callback :: s.owed)
  session : Quiet s ∨ ∃ p ev, Running s p ev

theorem Answered.refused {callback : Nat}
    (h : s.started.Perm (s.calls.map (·.callback) ++ callback :: s.owed)) :
    Answered (refused s callback) := by
  have howed : (Topology.refused s callback).owed = s.owed := rfl
  rw [Answered, howed]
  simpa [Topology.refused] using h

theorem Running.congr (h : Running s p ev) (hunhandled : t.unhandled = s.unhandled)
    (hlist : t.networkTopology = s.networkTopology ∧ t.heap = s.heap ∧
      t.insertBefore = s.insertBefore ∧ t.fresh = s.fresh)
    (hsession : t.inProgress = s.inProgress ∧ t.sentRequest = s.sentRequest ∧
      t.callback = s.callback) (htimer : ev = none → t.timerRunning = s.timerRunning) :
    Running t p ev := by
  obtain ⟨hnet, hheap, hbefore, hfresh⟩ := hlist
  obtain ⟨hprogress, hsent, hcallback⟩ := hsession
  obtain ⟨⟨hshows, hp, hs, hc, hentries⟩, hpending, hexpects⟩ := h
  refine ⟨⟨hshows.congr hnet hheap hbefore hfresh, hprogress.trans hp, hsent.trans hs,
    hcallback ▸ hc, hheap ▸ hentries⟩, ?_, ?_⟩
  · rw [TopoContext.pending, hunhandled]
    exact hpending
  · cases ev with
    | none => exact (htimer rfl).trans hexpects
    | some e =>
      cases e with
      | addNode a => exact ⟨hexpects.1, hheap ▸ hexpects.2⟩
      | start | checkNode | timeout | done => exact hexpects

theorem Quiet.congr (h : Quiet s) (hunhandled : t.unhandled = s.unhandled)
    (hnet : t.networkTopology = s.networkTopology) (hheap : t.heap = s.heap)
    (hprogress : t.inProgress = s.inProgress) (hsent : t.sentRequest = s.sentRequest) :
    Quiet t := by
  refine ⟨hprogress.trans h.inProgress, hsent.trans h.sentRequest, ?_, hnet.trans h.networkTopology,
    hheap ▸ h.heap⟩
  rw [TopoContext.pending, hunhandled]
  exact h.pending

/-- Without the memory for a session the request is refused. -/
theorem processStart_fails (hnet : s.networkTopology = none) {env : HandleEnv}
    (hfails : ¬(env.topologyAlloc = true ∧ env.entryAlloc = true ∧ env.tableAlloc = true)) :
    s.processStartTopologyEvent env = some (s, false) := by
  obtain ⟨own, topologyAlloc, entryAlloc, tableAlloc, timerCreated, timerStarted, sent⟩ := env
  have hs : { s with networkTopology := none } = s := by rw [← hnet]
  have hfree : TopoContext.freeNetworkTopology
    { s with networkTopology := some newNetworkTopology } =
      some s := by
    rw [← hs]
    rfl
  cases topologyAlloc with
  | false => simp [TopoContext.processStartTopologyEvent, hs]
  | true =>
    cases entryAlloc with
    | false => simp [TopoContext.processStartTopologyEvent, hfree]
    | true =>
      cases tableAlloc with
      | false => simp [TopoContext.processStartTopologyEvent, hfree]
      | true => simp at hfails

/-- A session is opened. -/
theorem Asked.opens {callback : Nat} (h : Asked s callback) (hquiet : Quiet s) {env : HandleEnv}
    (hroom : s.HasRoom) (hown : env.own.WellFormed)
    (halloc : env.topologyAlloc = true ∧ env.entryAlloc = true ∧ env.tableAlloc = true) :
    ∃ t, s.handleStart callback env = some t ∧ SessionInv t := by
  have hfresh : ∀ a, s.heap a ≠ none → a < s.fresh := fun a ha => absurd (hquiet.heap a) ha
  obtain ⟨net, hstart, hshows⟩ :=
    Shows.handleStart env callback hquiet.inProgress hfresh hown halloc
  rw [send_eq (by exact hroom)] at hstart
  have hcheck : ∀ e ∈ some BcmpTopoQueueItem.checkNode, e.isSession = true := by
    simp [BcmpTopoQueueItem.isSession]
  refine ⟨_, hstart, ?_, .inr ⟨_, some .checkNode, ⟨hshows.congr rfl rfl rfl rfl, rfl, rfl,
    ⟨callback, rfl⟩, fun a ha => ?_⟩, ?_, trivial⟩⟩
  · have howed : s.owed = s.unhandled.filterMap (·.starting) := by
      simp [TopoContext.owed, hquiet.inProgress]
    have hanswered := h.answered
    rw [howed] at hanswered
    have hopened : ∀ t : TopoContext, t.unhandled = s.unhandled ++ [.checkNode] →
        t.inProgress = true → t.callback = some callback →
        t.owed = s.unhandled.filterMap (·.starting) ++ [callback] := by
      intro t hunhandled hprogress hcallback
      rw [TopoContext.owed, starting_append hunhandled hcheck, hprogress, hcallback]
      rfl
    refine hanswered.trans (List.Perm.append_left _ ?_)
    rw [hopened _ (List.append_assoc ..).symm rfl rfl]
    exact (List.perm_append_singleton callback _).symm
  · have hheap : Function.update s.heap s.fresh (some ⟨none, none, 0, true, env.own⟩) a ≠ none := ha
    rw [Function.update_apply] at hheap
    split at hheap
    · rename_i hfresh
      simp [Shows.start, Place.all, hfresh]
    · exact absurd (hquiet.heap a) hheap
  · rw [pending_append (s := s) (List.append_assoc ..).symm hcheck, hquiet.pending, List.nil_append]

theorem Asked.start {callback : Nat} (h : Asked s callback) (env : HandleEnv)
    (hroom : s.inProgress = false → s.HasRoom ∧ env.own.WellFormed) :
    ∃ t, s.handleStart callback env = some t ∧ SessionInv t := by
  rcases h.session with hquiet | ⟨p, ev, hrunning⟩
  · by_cases halloc : env.topologyAlloc = true ∧ env.entryAlloc = true ∧ env.tableAlloc = true
    · obtain ⟨hroom, hown⟩ := hroom hquiet.inProgress
      exact h.opens hquiet hroom hown halloc
    · refine ⟨refused s callback, ?_, .refused h.answered, .inl (hquiet.congr rfl rfl rfl rfl rfl)⟩
      simp [TopoContext.handleStart, hquiet.inProgress,
        processStart_fails hquiet.networkTopology halloc, refused]
  · refine ⟨refused s callback, ?_, .refused h.answered,
      .inr ⟨p, ev, hrunning.congr rfl ⟨rfl, rfl, rfl, rfl⟩ ⟨rfl, rfl, rfl⟩ fun _ => rfl⟩⟩
    simp [TopoContext.handleStart, hrunning.core.inProgress, refused]

/-! ## The moves -/

/-- The task takes the event of the session to handle it. -/
theorem Running.take {e : BcmpTopoQueueItem} (h : Running s p ev) (hanswered : Answered s)
    (hitem : s.item = some e) (hsession : e.isSession = true) :
    ev = some e ∧ Core { s with item := none } p e.entry.toList ∧
      TopoContext.pending { s with item := none } = [] ∧ Answered { s with item := none } ∧
      Expects { s with item := none } p (some e) := by
  have hunhandled : s.unhandled = e :: TopoContext.unhandled { s with item := none } := by
    simp [TopoContext.unhandled, hitem]
  have hpending : s.pending = e :: TopoContext.pending { s with item := none } := by
    rw [TopoContext.pending, hunhandled, List.filter_cons_of_pos hsession]
    rfl
  rw [h.pending] at hpending
  obtain ⟨rfl, hnil⟩ : ev = some e ∧ TopoContext.pending { s with item := none } = [] := by
    cases ev with
    | none => simp at hpending
    | some e' =>
      rw [Option.toList_some, List.cons.injEq] at hpending
      exact ⟨by rw [hpending.1], hpending.2.symm⟩
  refine ⟨rfl, ⟨h.core.showing.congr rfl rfl rfl rfl, h.core.inProgress, h.core.sentRequest,
    h.core.callback, h.core.entries⟩, hnil, ?_, ?_⟩
  · have howed : s.owed = TopoContext.owed { s with item := none } := by
      have hstarting : e.starting = none := by
        cases e with
        | start => simp [BcmpTopoQueueItem.isSession] at hsession
        | checkNode | addNode | timeout | done => rfl
      rw [TopoContext.owed, hunhandled, List.filterMap_cons_none hstarting]
      rfl
    rw [Answered, ← howed]
    exact hanswered
  · exact h.expects

/-- The task takes a request to start. -/
theorem SessionInv.asked {callback : Nat} (h : SessionInv s)
    (hitem : s.item = some (.start callback)) :
    Asked { s with item := none } callback := by
  have hunhandled : s.unhandled = .start callback :: TopoContext.unhandled
      { s with item := none } := by
    simp [TopoContext.unhandled, hitem]
  have hpending : TopoContext.pending { s with item := none } = s.pending := by
    rw [TopoContext.pending, TopoContext.pending, hunhandled]
    rfl
  refine ⟨?_, ?_⟩
  · have howed : s.owed = callback :: TopoContext.owed { s with item := none } := by
      rw [TopoContext.owed, hunhandled]
      rfl
    rw [← howed]
    exact h.answered
  · rcases h.session with hquiet | ⟨p, ev, hcore, hp, hexpects⟩
    · exact .inl ⟨hquiet.inProgress, hquiet.sentRequest, hpending.trans hquiet.pending,
        hquiet.networkTopology, hquiet.heap⟩
    · refine .inr ⟨p, ev, ⟨hcore.showing.congr rfl rfl rfl rfl, hcore.inProgress, hcore.sentRequest,
        hcore.callback, hcore.entries⟩, hpending.trans hp, hexpects⟩

theorem SessionInv.handle (h : SessionInv s) {env : HandleEnv}
    (horderly : Orderly s (.handle env)) :
    ∃ t, s.handle env = some t ∧ SessionInv t := by
  rw [TopoContext.handle]
  simp only [Orderly] at horderly
  cases hitem : s.item with
  | none => exact ⟨s, rfl, h⟩
  | some e =>
    rw [hitem] at horderly
    rcases e with callback | _ | a | _ | _
    · exact (h.asked hitem).start env horderly
    all_goals
      rcases h.session with hquiet | ⟨p, ev, hrunning⟩
      · have hpending := hquiet.pending
        simp [TopoContext.pending, TopoContext.unhandled, hitem,
          BcmpTopoQueueItem.isSession] at hpending
      obtain ⟨-, hcore, hpending, hanswered, hexpects⟩ := hrunning.take h.answered hitem rfl
    · exact hcore.checkNode hanswered hpending horderly env
    · exact hcore.addNode hanswered hpending horderly.1 hexpects horderly.2
    · exact hcore.timeout hanswered hpending horderly
    · exact hcore.done hanswered hpending

theorem SessionInv.receive (h : SessionInv s) : SessionInv s.receive := by
  rw [TopoContext.receive]
  split
  · rename_i item evtQueue hitem hqueue
    have hunhandled : TopoContext.unhandled { s with item := some item, evtQueue } =
        s.unhandled := by
      simp [TopoContext.unhandled, hitem, hqueue]
    refine ⟨?_, ?_⟩
    · rw [Answered, TopoContext.owed, hunhandled]
      exact h.answered
    · rcases h.session with hquiet | ⟨p, ev, hrunning⟩
      · exact .inl (hquiet.congr hunhandled rfl rfl rfl rfl)
      · exact .inr ⟨p, ev, hrunning.congr hunhandled ⟨rfl, rfl, rfl, rfl⟩
          ⟨rfl, rfl, rfl⟩ fun _ => rfl⟩
  · exact h

theorem SessionInv.start (h : SessionInv s) (callback : Nat) :
    SessionInv (s.bcmpTopologyStart callback) := by
  rw [TopoContext.bcmpTopologyStart]
  split
  · rename_i hroom
    rw [send_eq hroom]
    have hunhandled : TopoContext.unhandled
        { s with evtQueue := s.evtQueue ++ [.start callback], started := s.started ++ [callback] } =
        s.unhandled ++ [.start callback] := (List.append_assoc ..).symm
    have hpending : TopoContext.pending
        { s with evtQueue := s.evtQueue ++ [.start callback], started := s.started ++ [callback] } =
        s.pending := by
      rw [TopoContext.pending, hunhandled, List.filter_append]
      exact List.append_nil _
    refine ⟨?_, ?_⟩
    · rw [Answered, TopoContext.owed, hunhandled, List.filterMap_append]
      have hanswered := h.answered
      rw [Answered, TopoContext.owed] at hanswered
      refine (hanswered.append_right [callback]).trans ?_
      simp only [List.append_assoc]
      refine List.Perm.append_left _ (List.Perm.append_left _ ?_)
      exact List.perm_append_comm
    · rcases h.session with hquiet | ⟨p, ev, hcore, hp, hexpects⟩
      · exact .inl ⟨hquiet.inProgress, hquiet.sentRequest, hpending.trans hquiet.pending,
          hquiet.networkTopology, hquiet.heap⟩
      · exact .inr ⟨p, ev, ⟨hcore.showing.congr rfl rfl rfl rfl, hcore.inProgress,
          hcore.sentRequest,
          hcore.callback, hcore.entries⟩, hpending.trans hp, hexpects⟩
  · exact h

/-- A session without a pending event waits for a reply. -/
theorem SessionInv.waits (h : SessionInv s) (hprogress : s.inProgress = true)
    (hpending : s.pending = []) :
    ∃ p, Core s p [] := by
  rcases h.session with hquiet | ⟨p, ev, hrunning⟩
  · simp [hquiet.inProgress] at hprogress
  · have hev := hrunning.pending
    rw [hpending, eq_comm, Option.toList_eq_nil_iff] at hev
    subst hev
    exact ⟨p, hrunning.core⟩

theorem SessionInv.timer (h : SessionInv s) (horderly : Orderly s .timer) :
    SessionInv s.topologyTimerHandler := by
  rw [TopoContext.topologyTimerHandler]
  split
  · rename_i hrunning
    obtain ⟨hprogress, hpending, hroom⟩ := horderly hrunning
    obtain ⟨p, hcore⟩ := h.waits hprogress hpending
    rw [send_eq (by exact hroom)]
    exact hcore.running (some .timeout) h.answered hpending ⟨rfl, rfl, rfl, rfl, rfl, rfl, rfl⟩
      (by simp [BcmpTopoQueueItem.isSession])
      (hcore.showing.congr rfl rfl rfl rfl) hcore.entries trivial
  · exact h

/-- Flags of the request do not matter to the session. -/
theorem SessionInv.flags (h : SessionInv s) (neighborRequestCb timerRunning : Bool)
    (htimer : s.inProgress = true → s.pending = [] → timerRunning = s.timerRunning) :
    SessionInv { s with neighborRequestCb, timerRunning } := by
  refine ⟨h.answered, ?_⟩
  rcases h.session with hquiet | ⟨p, ev, hrunning⟩
  · exact .inl (hquiet.congr rfl rfl rfl rfl rfl)
  · refine .inr ⟨p, ev, hrunning.congr rfl ⟨rfl, rfl, rfl, rfl⟩ ⟨rfl, rfl, rfl⟩ fun hnone => ?_⟩
    refine htimer hrunning.core.inProgress ?_
    rw [hrunning.pending, hnone]
    rfl

/-- The reply that the session waits for. -/
theorem Core.reply (h : Core s p []) (hanswered : Answered s) (hpending : s.pending = [])
    (hroom : s.HasRoom) {reply : BcmpNeighborTableReply} (hwf : reply.WellFormed)
    (entryAlloc tableAlloc : Bool) :
    ∃ t, s.neighborRequestCallback reply entryAlloc tableAlloc = some t ∧ SessionInv t := by
  by_cases halloc : entryAlloc = true ∧ tableAlloc = true
  · obtain ⟨rfl, rfl⟩ := halloc
    obtain ⟨heap, net, hcallback, hcell, hnotin, hother, hshows⟩ :=
      h.showing.neighborRequestCallback h.sentRequest reply
    refine ⟨_, hcallback, ?_⟩
    rw [send_eq (by exact hroom)]
    refine h.running (some (.addNode s.fresh)) hanswered hpending
      ⟨rfl, rfl, rfl, rfl, rfl, rfl, rfl⟩
      (by simp [BcmpTopoQueueItem.isSession]) (hshows.congr rfl rfl rfl rfl) (fun a ha => ?_)
      ⟨hnotin, reply, hwf, hcell⟩
    have hmem : a = s.fresh ∨ a ∈ p.all.map Prod.fst := by
      by_contra hnot
      rw [not_or] at hnot
      have hcur : a ≠ p.cur.1 := by
        rintro rfl
        exact hnot.2 (List.mem_map_of_mem List.mem_cons_self)
      have hheap : heap a ≠ none := ha
      rw [hother a hnot.1 hcur] at hheap
      exact hnot.2 (h.entries a hheap)
    simpa [Place.all, Place.setCur, BcmpTopoQueueItem.entry] using hmem
  · refine ⟨s.topologyEnd, ?_, h.topologyEnd hanswered hpending hroom⟩
    rw [TopoContext.neighborRequestCallback, if_neg (by simp [h.sentRequest])]
    rw [if_pos]
    cases entryAlloc with
    | false => rfl
    | true => simpa using halloc

theorem SessionInv.reply (h : SessionInv s) {reply : BcmpNeighborTableReply}
    {stopped entryAlloc tableAlloc : Bool}
    (horderly : Orderly s (.reply reply stopped entryAlloc tableAlloc)) :
    ∃ t, s.bcmpProcessNeighborTableReply reply stopped entryAlloc tableAlloc = some t ∧
      SessionInv t := by
  by_cases htarget : s.targetNodeId = reply.nodeId
  · cases stopped with
    | false =>
      rw [TopoContext.bcmpProcessNeighborTableReply, if_neg (not_not.mpr htarget)]
      simp only [Bool.false_eq_true, if_false]
      split
      · exact ⟨_, rfl, h.flags false s.timerRunning fun _ _ => rfl⟩
      · exact ⟨_, rfl, h⟩
    | true =>
      have horderly := horderly htarget rfl
      cases hcb : s.neighborRequestCb with
      | false =>
        -- nobody waits for the timer that the reply stops
        refine ⟨Shows.timerStopped s, ?_, h.flags s.neighborRequestCb false
          fun hprogress hpending => ?_⟩
        · simp [TopoContext.bcmpProcessNeighborTableReply, htarget, hcb, Shows.timerStopped]
        · simp [(horderly hprogress).1.mpr hpending] at hcb
      | true =>
        rw [Shows.processReply_eq htarget hcb]
        rcases h.session with hquiet | ⟨p, ev, hrunning⟩
        · refine ⟨Shows.callbackDone (Shows.timerStopped s), ?_,
            h.flags false false fun hprogress => ?_⟩
          · simp [TopoContext.neighborRequestCallback, Shows.timerStopped, hquiet.sentRequest]
          · simp [hquiet.inProgress] at hprogress
        · obtain ⟨hwaits, hroom⟩ := horderly hrunning.core.inProgress
          obtain ⟨p, hcore⟩ := h.waits hrunning.core.inProgress (hwaits.mp hcb)
          have hstopped : Core (Shows.timerStopped s) p [] :=
            ⟨hcore.showing.congr rfl rfl rfl rfl, hcore.inProgress, hcore.sentRequest,
            hcore.callback,
              hcore.entries⟩
          obtain ⟨t, hcallback, ht⟩ := hstopped.reply h.answered (hwaits.mp hcb) (hroom hcb).1
            (hroom hcb).2 entryAlloc tableAlloc
          exact ⟨Shows.callbackDone t, by rw [hcallback]; rfl,
            ht.flags false t.timerRunning fun _ _ => rfl⟩
  · exact ⟨s, if_pos htarget, h⟩

/-- Every orderly move keeps the order. -/
theorem SessionInv.step (h : SessionInv s) {move : TopoMove} (horderly : Orderly s move) :
    ∃ t, topoStep s move = some t ∧ SessionInv t := by
  cases move with
  | start callback => exact ⟨_, rfl, h.start callback⟩
  | receive => exact ⟨_, rfl, h.receive⟩
  | handle env => exact h.handle horderly
  | reply reply stopped entryAlloc tableAlloc => exact h.reply horderly
  | timer => exact ⟨_, rfl, h.timer horderly⟩

theorem sessionInv_init : SessionInv .init :=
  ⟨List.Perm.refl _, .inl ⟨rfl, rfl, rfl, rfl, fun _ => rfl⟩⟩

end Invariant

/-! ## Runs -/

/-- The next state of a run, if there is one. -/
def nextState (s : Option TopoContext) (move : TopoMove) : Option TopoContext :=
  s.bind (topoStep · move)

/-- Every move is orderly in the state before it. -/
def OrderlyRun (moves : List TopoMove) : Prop :=
  Along nextState (fun s move => ∀ t ∈ s, Orderly t move) (some .init) moves

instance (moves : List TopoMove) : Decidable (OrderlyRun moves) :=
  inferInstanceAs (Decidable (Along ..))

theorem sessions_eq (moves : List TopoMove) :
    sessions moves = moves.foldl nextState (some .init) := by
  rw [sessions]
  have hfold : ∀ s : TopoContext, moves.foldlM topoStep s = moves.foldl nextState (some s) := by
    induction moves with
    | nil => intro s; rfl
    | cons move moves ih =>
      intro s
      rw [List.foldlM_cons, List.foldl_cons, nextState, Option.bind_some, Option.bind_eq_bind]
      cases hstep : topoStep s move with
      | none =>
        have hnone : moves.foldl nextState none = none := by
          clear ih
          induction moves with
          | nil => rfl
          | cons move moves ih => exact ih
        rw [hnone]
        rfl
      | some t => exact ih t
  exact hfold .init

/-- In a run of orderly moves the sessions are in order. -/
theorem sessions_inOrder {moves : List TopoMove} (h : OrderlyRun moves) :
    ∃ s, sessions moves = some s ∧ InOrder s := by
  rw [sessions_eq]
  have hstep : ∀ (o : Option TopoContext) (move : TopoMove), (∃ s, o = some s ∧ SessionInv s) →
      (∀ s ∈ o, Orderly s move) → ∃ t, nextState o move = some t ∧ SessionInv t := by
    rintro _ move ⟨s, rfl, hs⟩ horderly
    exact hs.step (horderly s rfl)
  obtain ⟨s, hrun, hs⟩ := foldl_invariant hstep ⟨_, rfl, sessionInv_init⟩ h
  exact ⟨s, hrun, hs.inOrder⟩

/-- A session with one neighbor that answers; a second request to start comes in between. -/
theorem sessions_inOrder_with_reply :
    let moves : List TopoMove := [.start 7, .receive, .handle { own := tableOf 1 [2] }, .receive,
      .handle { own := tableOf 1 [2] }, .start 8, .reply (tableOf 2 [1]) true true true, .receive,
      .handle { own := tableOf 1 [2] }, .receive, .handle { own := tableOf 1 [2] }]
    OrderlyRun moves ∧ ∃ s, sessions moves = some s ∧ InOrder s := by
  intro moves
  have horderly : OrderlyRun moves := by decide +kernel
  exact ⟨horderly, sessions_inOrder horderly⟩

/-- The timer expires before the reply comes, and both events are queued. Each of them leads to a
`BcmpTopoEvtEnd`, and the second one calls the callback again, with a null pointer. -/
theorem sessions_out_of_order :
    let step : List TopoMove := [.receive, .handle { own := tableOf 1 [2] }]
    let moves : List TopoMove := [.start 7] ++ step ++ step ++
      [.timer, .reply (tableOf 2 [1]) true true true]
    let toEnd := moves ++ (List.replicate 6 step).flatten
    (∃ s, sessions moves = some s ∧ s.pending.length = 2) ∧
      (∃ s, sessions (toEnd ++ [.receive]) = some s ∧ s.item = some .done ∧ s.inProgress = false ∧
        s.networkTopology.isNone ∧ s.pending ≠ []) ∧
      ∃ s, sessions (toEnd ++ step) = some s ∧ s.started = [7] ∧
        s.calls.map (·.callback) = [7, 7] :=
  ⟨⟨_, rfl, by decide +kernel⟩, ⟨_, rfl, by decide +kernel⟩, ⟨_, rfl, by decide +kernel⟩⟩

end BmCore.Topology
