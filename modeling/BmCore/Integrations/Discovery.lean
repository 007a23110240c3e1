import BmCore.Integrations.TopologyEvents

/-!
# A session as a walk

One session with a network whose tables do not change: every request is answered by its node or
times out. The list, the flags and the pending event make a walk over the nodes, and each event of
the task is a step of the walk. -/
namespace BmCore.Topology

/-- The own table and those of the other nodes. -/
structure Network where
  root : BcmpNeighborTableReply
  nodes : List BcmpNeighborTableReply
  wellFormed : ∀ table ∈ root :: nodes, table.WellFormed

def Network.table (net : Network) (nodeId : Nat) : Option BcmpNeighborTableReply :=
  net.nodes.find? (·.nodeId == nodeId)

/-- The next thing to happen: the task handles its event, or the request is answered, or it times
out. -/
def drive (net : Network) (answered : Bool) (s : TopoContext) : Option TopoContext :=
  match s.evtQueue with
  | _ :: _ => s.receive.handle { own := net.root }
  | [] =>
    if !s.timerRunning then some s
    else match net.table s.targetNodeId, answered with
      | some reply, true => s.bcmpProcessNeighborTableReply reply true true true
      | _, _ => some s.topologyTimerHandler

/-- The states of a session; `answered n` decides about a request that waits in the `n`-th state. -/
def topoRun (net : Network) (answered : Nat → Bool) (s : TopoContext) : Nat → Option TopoContext
  | 0 => some s
  | n + 1 => (topoRun net answered s n).bind (drive net (answered n))

/-- No session is running. -/
structure Idle (s : TopoContext) : Prop where
  evtQueue : s.evtQueue = []
  item : s.item = none
  inProgress : s.inProgress = false
  insertBefore : s.insertBefore = false
  retryCount : s.retryCount = 0
  timerRunning : s.timerRunning = false
  fresh : ∀ a, s.heap a ≠ none → a < s.fresh

theorem idle_init : Idle .init := by
  constructor <;> simp [TopoContext.init]

/-! ## The walk -/

inductive Phase where
  | check
  | wait (nodeId : Nat)
  | add (table : BcmpNeighborTableReply)
  | timedOut
  | ending
  | finished
  deriving DecidableEq

structure Walk where
  place : Place Visit
  insertBefore : Bool
  retry : Nat
  phase : Phase

namespace Walk
variable (w : Walk)

/-- The direction changes at the root when one port has been explored. -/
def turned : Walk :=
  if !w.insertBefore && (w.place.cur.isRoot && w.place.cur.portsExplored == 1) then
    { w with place := w.place.turn, insertBefore := true }
  else w

def step (net : Network) (answered : Bool) : Walk :=
  match w.phase with
  | .check =>
    if w.place.cur.done then
      if w.place.cur.isRoot then { w with phase := .ending } else { w with place := w.place.back }
    else if newNode w.place.all w.place.cur ≠ 0 then
      { w.turned with phase := .wait (newNode w.place.all w.place.cur) }
    else { w.turned with place := w.turned.place.back }
  | .wait nodeId =>
    match net.table nodeId, answered with
    | some table, true =>
      { w with place := w.place.setCur w.place.cur.explore, retry := 0, phase := .add table }
    | _, _ => { w with phase := .timedOut }
  | .add table =>
    if known w.place.all table.nodeId then { w with phase := .check }
    else { w with place := w.place.push ⟨1, false, table⟩, phase := .check }
  | .timedOut =>
    let retry := (w.retry + 1) % 256
    if topologyRetries ≤ retry then
      { w with place := (w.place.setCur w.place.cur.explore).back, retry, phase := .check }
    else { w with retry, phase := .check }
  | .ending => { w with phase := .finished }
  | .finished => w

end Walk

def Walk.start (net : Network) : Walk := ⟨⟨[], ⟨0, true, net.root⟩, []⟩, false, 0, .check⟩

def walkRun (net : Network) (answered : Nat → Bool) : Nat → Walk
  | 0 => .start net
  | n + 1 => (walkRun net answered n).step net (answered (n + 1))

/-! ## The session simulates the walk -/

section Simulation
variable {net : Network} {answered : Bool} {callback : Nat} {calls : List Call} {s : TopoContext}
  {w : Walk} {p : Place (Nat × Visit)}

/-- The list and the flags are those of the walk. -/
structure Live (callback : Nat) (calls : List Call) (s : TopoContext) (w : Walk)
    (p : Place (Nat × Visit)) : Prop where
  showing : Shows s p
  place : p.map Prod.snd = w.place
  insertBefore : s.insertBefore = w.insertBefore
  retry : s.retryCount = w.retry
  item : s.item = none
  inProgress : s.inProgress = true
  sentRequest : s.sentRequest = true
  callback : s.callback = some callback
  calls : s.calls = calls

/-- What is pending is what the phase of the walk says. -/
def Pending (s : TopoContext) (p : Place (Nat × Visit)) : Phase → Prop
  | .check => s.evtQueue = [.checkNode] ∧ s.timerRunning = false
  | .wait nodeId =>
    s.evtQueue = [] ∧ s.timerRunning = true ∧ s.targetNodeId = nodeId ∧ s.neighborRequestCb = true
  | .add table => ∃ a, s.evtQueue = [.addNode a] ∧ s.timerRunning = false ∧ table.WellFormed ∧
    s.heap a = some (mkEntry none none ⟨0, false, table⟩) ∧ a ∉ p.all.map Prod.fst
  | .timedOut => s.evtQueue = [.timeout] ∧ s.timerRunning = false
  | .ending => s.evtQueue = [.done] ∧ s.timerRunning = false
  | .finished => False

/-- The session has called its callback with the list of the walk. -/
structure Ended (callback : Nat) (calls : List Call) (s : TopoContext) (w : Walk) : Prop where
  evtQueue : s.evtQueue = []
  item : s.item = none
  inProgress : s.inProgress = false
  timerRunning : s.timerRunning = false
  calls : ∃ m p, s.calls = calls ++ [⟨callback, some m⟩] ∧ Cut m w.insertBefore p ∧
    p.map Prod.snd = w.place

def Simulates (callback : Nat) (calls : List Call) (s : TopoContext) (w : Walk) : Prop :=
  (∃ p, Live callback calls s w p ∧ Pending s p w.phase) ∨
    w.phase = .finished ∧ Ended callback calls s w

/-- The task has taken the only event. -/
def taken (s : TopoContext) : TopoContext := { s with evtQueue := [], item := none }

theorem shows_taken (h : Live callback calls s w p) : Shows (taken s) p :=
  h.showing.congr rfl rfl rfl rfl

theorem drive_event {ev : BcmpTopoQueueItem} (hitem : s.item = none) (hqueue : s.evtQueue = [ev]) :
    drive net answered s =
      match ev with
      | .start callback => (taken s).handleStart callback { own := net.root }
      | .addNode entry => (taken s).handleAddNode entry
      | .checkNode => (taken s).processCheckNodeEvent { own := net.root }
      | .done => (taken s).handleEnd
      | .timeout => (taken s).handleTimeout := by
  simp only [drive, hqueue, TopoContext.receive, hitem, TopoContext.handle]
  cases ev <;> rfl

theorem send_taken (hqueue : s.evtQueue = []) (item : BcmpTopoQueueItem) :
    s.bmQueueSend item = { s with evtQueue := [item] } := by
  simp [TopoContext.bmQueueSend, hqueue, bcmpTopoEvtQueueLen]

theorem Live.next (h : Live callback calls s w p) {s' : TopoContext} {w' : Walk}
    {p' : Place (Nat × Visit)} (hshows : Shows s' p') (hplace : p'.map Prod.snd = w'.place)
    (hbefore : s'.insertBefore = w'.insertBefore) (hretry : s'.retryCount = w'.retry)
    (hitem : s'.item = none) (hprogress : s'.inProgress = s.inProgress)
    (hsent : s'.sentRequest = s.sentRequest) (hcallback : s'.callback = s.callback)
    (hcalls : s'.calls = s.calls) : Live callback calls s' w' p' :=
  ⟨hshows, hplace, hbefore, hretry, hitem, hprogress.trans h.inProgress, hsent.trans h.sentRequest,
    hcallback.trans h.callback, hcalls.trans h.calls⟩

theorem Live.cur (h : Live callback calls s w p) : p.cur.2 = w.place.cur := by
  rw [← h.place]
  rfl

theorem Live.turned (h : Live callback calls s w p) :
    (Shows.turned (taken s) p.cur.2).insertBefore = w.turned.insertBefore ∧
      (Shows.turnedPlace (taken s) p).map Prod.snd = w.turned.place ∧
      w.turned.retry = w.retry ∧ w.turned.phase = w.phase := by
  have hbefore : (taken s).insertBefore = w.insertBefore := h.insertBefore
  simp only [Shows.turned, Shows.turnedPlace, Walk.turned, hbefore, h.cur]
  cases hcase : w.insertBefore with
  | true => simp [hcase, h.place]
  | false =>
    cases hroot : w.place.cur.isRoot && w.place.cur.portsExplored == 1 with
    | true => simp [← h.place]
    | false => simp [hcase, h.place]

theorem drive_check (h : Live callback calls s w p) (hphase : w.phase = .check)
    (hpending : Pending s p .check) :
    ∃ s', drive net answered s = some s' ∧ Simulates callback calls s' (w.step net answered) := by
  obtain ⟨hqueue, htimer⟩ := hpending
  rw [drive_event h.item hqueue]
  have hshows := shows_taken h
  have hall : (p.map Prod.snd).all = w.place.all := by rw [h.place]
  simp only [Walk.step, hphase]
  cases hdone : w.place.cur.done with
  | true =>
    rw [← h.cur] at hdone
    cases hroot : w.place.cur.isRoot with
    | true =>
      rw [← h.cur] at hroot
      refine ⟨_, hshows.check_done_root hdone hroot, .inl ⟨p, ?_, ?_⟩⟩
      · rw [TopoContext.topologyEnd, send_taken rfl]
        exact h.next (h.showing.congr rfl rfl rfl rfl) h.place h.insertBefore h.retry rfl rfl
          rfl rfl
          rfl
      · rw [TopoContext.topologyEnd, send_taken rfl]
        exact ⟨rfl, htimer⟩
    | false =>
      rw [← h.cur] at hroot
      obtain ⟨topology, hcheck, hback⟩ := hshows.check_done hdone hroot
      refine ⟨_, hcheck, .inl ⟨p.back, ?_, ?_⟩⟩
      · rw [send_taken rfl]
        refine h.next (hback.congr rfl rfl rfl rfl) ?_ h.insertBefore h.retry rfl rfl rfl rfl rfl
        rw [Place.map_back, h.place]
        rfl
      · rw [send_taken rfl]
        exact ⟨rfl, htimer⟩
  | false =>
    rw [← h.cur] at hdone
    obtain ⟨hbefore, hplace, hretry, hturnedPhase⟩ := h.turned
    have hcheck : (taken s).processCheckNodeEvent { own := net.root } = _ := hshows.check_eq hdone
    have hturned := hshows.shows_turned
    rw [hall, h.cur] at hcheck
    simp only [Bool.false_eq_true, if_false]
    by_cases hnew : newNode w.place.all w.place.cur = 0
    · obtain ⟨topology, hmove, hback⟩ := hturned.moveBack
      rw [if_neg (not_not.mpr hnew), ← h.cur, hmove, Option.map_some] at hcheck
      rw [if_neg (not_not.mpr hnew)]
      refine ⟨_, hcheck, .inl ⟨(Shows.turnedPlace (taken s) p).back, ?_, ?_⟩⟩
      · rw [send_taken rfl]
        refine h.next (hback.congr rfl rfl rfl rfl) ?_ hbefore ?_ rfl rfl rfl rfl rfl
        · rw [Place.map_back, hplace]
        · exact h.retry.trans hretry.symm
      · rw [send_taken rfl, hturnedPhase, hphase]
        exact ⟨rfl, htimer⟩
    · rw [if_pos hnew] at hcheck
      rw [if_pos hnew]
      refine ⟨_, hcheck, .inl ⟨Shows.turnedPlace (taken s) p, ?_, rfl, rfl, rfl, rfl⟩⟩
      rw [h.cur] at hbefore hturned
      exact h.next (hturned.congr rfl rfl rfl rfl) hplace hbefore (h.retry.trans hretry.symm)
        rfl rfl rfl rfl rfl

theorem drive_wait {nodeId : Nat} (h : Live callback calls s w p) (hphase : w.phase = .wait nodeId)
    (hpending : Pending s p (.wait nodeId)) :
    ∃ s', drive net answered s = some s' ∧ Simulates callback calls s' (w.step net answered) := by
  obtain ⟨hqueue, htimer, htarget, hcb⟩ := hpending
  have htimedOut : ∃ s', some s.topologyTimerHandler = some s' ∧
      Simulates callback calls s' { w with phase := .timedOut } := by
    have hexpired : s.topologyTimerHandler =
        { s with timerRunning := false, evtQueue := [.timeout] } := by
      simp [TopoContext.topologyTimerHandler, htimer, TopoContext.bmQueueSend, hqueue,
        bcmpTopoEvtQueueLen]
    rw [hexpired]
    refine ⟨_, rfl, .inl ⟨p, ?_, rfl, rfl⟩⟩
    exact h.next (h.showing.congr rfl rfl rfl rfl) h.place h.insertBefore h.retry h.item rfl rfl
      rfl rfl
  simp only [drive, hqueue, htimer, Bool.not_true, Bool.false_eq_true, if_false, htarget, Walk.step,
    hphase]
  cases htable : net.table nodeId with
  | none => exact htimedOut
  | some table =>
    cases answered with
    | false => exact htimedOut
    | true =>
      have hid : table.nodeId = nodeId := by
        have hfound := List.find?_some htable
        simpa using hfound
      have hmem : table ∈ net.nodes := List.mem_of_find?_eq_some htable
      have hs : Shows (Shows.timerStopped s) p := h.showing.congr rfl rfl rfl rfl
      obtain ⟨heap, topology, hcallback, hcell, hnotin, hother, hshows⟩ :=
        hs.neighborRequestCallback h.sentRequest table
      have hreply : s.bcmpProcessNeighborTableReply table true true true =
          some (Shows.callbackDone
          { (Shows.replied (Shows.timerStopped s)).withList heap topology with
            evtQueue := [.addNode s.fresh] }) := by
        rw [Shows.processReply_eq (htarget.trans hid.symm) hcb, hcallback,
          send_taken (by exact hqueue)]
        rfl
      refine ⟨_, hreply, .inl ⟨p.setCur (p.cur.1, p.cur.2.explore), ?_, s.fresh, rfl, rfl,
        net.wellFormed table (List.mem_cons_of_mem _ hmem), hcell, ?_⟩⟩
      · refine h.next (hshows.congr rfl rfl rfl rfl) ?_ h.insertBefore rfl h.item rfl rfl rfl rfl
        rw [Place.map_setCur, h.place, h.cur]
      · have hfresh : s.fresh ∉ p.all.map Prod.fst := hnotin
        simpa [Place.all, Place.setCur] using hfresh

theorem drive_add {table : BcmpNeighborTableReply} (h : Live callback calls s w p)
    (hphase : w.phase = .add table) (hpending : Pending s p (.add table))
    (hroom : w.place.all.length < 255) :
    ∃ s', drive net answered s = some s' ∧ Simulates callback calls s' (w.step net answered) := by
  obtain ⟨a, hqueue, htimer, hwf, hcell, hnotin⟩ := hpending
  rw [drive_event h.item hqueue]
  have hshows := shows_taken h
  simp only [Walk.step, hphase]
  cases hknown : known w.place.all table.nodeId with
  | true =>
    rw [← h.place] at hknown
    have hcellT : (taken s).heap a = some (mkEntry none none ⟨0, false, table⟩) := hcell
    refine ⟨_, hshows.handleAddNode_known hcellT hknown, .inl ⟨p, ?_, ?_⟩⟩
    · rw [send_taken rfl]
      exact h.next ((hshows.freeOther hnotin).congr rfl rfl rfl rfl) h.place h.insertBefore
        h.retry rfl
        rfl rfl rfl rfl
    · rw [send_taken rfl]
      exact ⟨rfl, htimer⟩
  | false =>
    rw [← h.place] at hknown
    have hlength : p.all.length < 255 := by
      rw [← h.place, ← Place.map_all, List.length_map] at hroom
      exact hroom
    have hvalid : Visit.Valid ⟨0, false, table⟩ := ⟨Nat.zero_lt_succ _, hwf⟩
    obtain ⟨heap, topology, hadd, -, hpush⟩ :=
      hshows.handleAddNode hcell hnotin hlength hvalid hknown
    refine ⟨_, hadd, .inl ⟨p.push (a, Visit.explore ⟨0, false, table⟩), ?_, ?_⟩⟩
    · rw [send_taken rfl]
      refine h.next (hpush.congr rfl rfl rfl rfl) ?_ h.insertBefore h.retry rfl rfl rfl rfl rfl
      rw [Place.map_push, h.place]
      rfl
    · rw [send_taken rfl]
      exact ⟨rfl, htimer⟩

theorem drive_timedOut (h : Live callback calls s w p) (hphase : w.phase = .timedOut)
    (hpending : Pending s p .timedOut) :
    ∃ s', drive net answered s = some s' ∧ Simulates callback calls s' (w.step net answered) := by
  obtain ⟨hqueue, htimer⟩ := hpending
  rw [drive_event h.item hqueue]
  have hshows := shows_taken h
  have hretry : (Shows.retried (taken s)).retryCount = (w.retry + 1) % 256 := by
    rw [← h.retry]
    rfl
  simp only [Walk.step, hphase]
  by_cases hgiveUp : topologyRetries ≤ (w.retry + 1) % 256
  · obtain ⟨heap, topology, htimeout, -, hback⟩ := hshows.handleTimeout (hretry ▸ hgiveUp)
    rw [if_pos hgiveUp]
    refine ⟨_, htimeout, .inl ⟨(p.setCur (p.cur.1, p.cur.2.explore)).back, ?_, ?_⟩⟩
    · rw [send_taken rfl]
      refine h.next (hback.congr rfl rfl rfl rfl) ?_ h.insertBefore hretry rfl rfl rfl rfl rfl
      rw [Place.map_back, Place.map_setCur, h.place, h.cur]
    · rw [send_taken rfl]
      exact ⟨rfl, htimer⟩
  · rw [if_neg hgiveUp]
    refine ⟨_, Shows.handleTimeout_retry (hretry ▸ Nat.not_le.mp hgiveUp), .inl ⟨p, ?_, ?_⟩⟩
    · rw [send_taken rfl]
      exact h.next (hshows.congr rfl rfl rfl rfl) h.place h.insertBefore hretry rfl rfl rfl rfl rfl
    · rw [send_taken rfl]
      exact ⟨rfl, htimer⟩

theorem drive_ending (h : Live callback calls s w p) (hphase : w.phase = .ending)
    (hpending : Pending s p .ending) :
    ∃ s', drive net answered s = some s' ∧ Simulates callback calls s' (w.step net answered) := by
  obtain ⟨hqueue, htimer⟩ := hpending
  rw [drive_event h.item hqueue]
  simp only [Walk.step, hphase]
  obtain ⟨topology, hnet, hcut⟩ := h.showing.cut
  have hend := (shows_taken h).handleEnd h.callback hnet
  refine ⟨_, hend, .inr ⟨rfl, rfl, rfl, rfl, htimer, ⟨s.heap, topology⟩, p, ?_, ?_, h.place⟩⟩
  · rw [← h.calls]
    rfl
  · rw [← h.insertBefore]
    exact hcut

theorem drive_over (h : Ended callback calls s w) (hphase : w.phase = .finished) :
    ∃ s', drive net answered s = some s' ∧ Simulates callback calls s' (w.step net answered) := by
  have hstep : w.step net answered = w := by
    rw [Walk.step, hphase]
  rw [hstep]
  refine ⟨s, ?_, .inr ⟨hphase, h⟩⟩
  simp [drive, h.evtQueue, h.timerRunning]

theorem drive_simulates (h : Simulates callback calls s w)
    (hroom : ∀ table, w.phase = .add table → w.place.all.length < 255) :
    ∃ s', drive net answered s = some s' ∧ Simulates callback calls s' (w.step net answered) := by
  rcases h with ⟨p, hlive, hpending⟩ | ⟨hphase, hended⟩
  · cases hphase : w.phase with
    | check => exact drive_check hlive hphase (hphase ▸ hpending)
    | wait nodeId => exact drive_wait hlive hphase (hphase ▸ hpending)
    | add table => exact drive_add hlive hphase (hphase ▸ hpending) (hroom table hphase)
    | timedOut => exact drive_timedOut hlive hphase (hphase ▸ hpending)
    | ending => exact drive_ending hlive hphase (hphase ▸ hpending)
    | finished =>
      rw [hphase] at hpending
      exact hpending.elim
  · exact drive_over hended hphase

/-- The session begins as the walk does. -/
theorem drive_start (hidle : Idle s) :
    ∃ s', drive net answered (s.bcmpTopologyStart callback) = some s' ∧
      Simulates callback s.calls s' (.start net) := by
  have hstart : s.bcmpTopologyStart callback =
      { s with evtQueue := [.start callback], started := s.started ++ [callback] } := by
    simp [TopoContext.bcmpTopologyStart, TopoContext.bmQueueSend, hidle.evtQueue,
      bcmpTopoEvtQueueLen]
  let s₁ : TopoContext := { s with evtQueue := [.start callback], started :=
    s.started ++ [callback] }
  have hown : net.root.WellFormed := net.wellFormed _ List.mem_cons_self
  have hitem : s₁.item = none := hidle.item
  have hfresh : ∀ a, (taken s₁).heap a ≠ none → a < (taken s₁).fresh := hidle.fresh
  have hidle₁ : (taken s₁).inProgress = false := hidle.inProgress
  obtain ⟨topology, hhandle, hshows⟩ :=
    Shows.handleStart { own := net.root } callback hidle₁ hfresh hown ⟨rfl, rfl, rfl⟩
  rw [send_taken rfl] at hhandle
  rw [hstart, drive_event hitem rfl]
  exact ⟨_, hhandle, .inl ⟨Shows.start s.fresh net.root, ⟨hshows.congr rfl rfl rfl rfl, rfl,
    hidle.insertBefore, hidle.retryCount, rfl, rfl, rfl, rfl, rfl⟩, rfl, hidle.timerRunning⟩⟩

end Simulation

end BmCore.Topology
