import BmCore.Common.CbQueue
import BmCore.Library.Cbor
import BmCore.Middleware.ServiceRequest

/-!
# Power info

`middleware/power_info_service.c`. A request leaves its callback in a queue and makes a service
request, whose own callback takes the first callback out of the queue, whichever request it was left
by. A callback gets the reply to its own request as long as the service requests are linked in the
order of the queue and complete in that order. A service request that is refused leaves its callback
behind in the queue.
-/
namespace BmCore.Middleware
open Library BmCbQueue

/-- `power_info_service` -/
def powerInfoService : ServiceName where
  bytes := [0x62, 0x75, 0x73, 0x5F, 0x70, 0x6F, 0x77, 0x65, 0x72, 0x5F, 0x63, 0x6F, 0x6E, 0x74,
    0x72, 0x6F, 0x6C, 0x6C, 0x65, 0x72, 0x2F, 0x74, 0x69, 0x6D, 0x69, 0x6E, 0x67]
  nulFree := by decide

/-- `BmPowerInfoReplyCb`, or NULL, with the call of `power_info_service_request` it is passed to. -/
structure BmPowerInfoReplyCb where
  request : Nat
  fn : Option Nat
  deriving DecidableEq

/-- What happens, told by the number of a call of `power_info_service_request`. -/
inductive PowerInfoEvent (D : Type) where
  | returned (request : Nat) (err : BmErr)
  /-- A reply arrives for the service request of a call. -/
  | answered (request : Nat) (replyData : List UInt8) (replyLen : UInt32)
  /-- The callback that was passed to a call is invoked. -/
  | invoked (request : Nat) (d : D)
  deriving DecidableEq

/-- The service requests of a node and the queue of `power_info_service.c`, which is lost once it
has touched memory that is not its own. A service request has the number of the call that makes it,
by which its node is told. -/
structure PowerInfo (D : Type) where
  ctx : BmServiceRequestContext
  serviceQueue : Option (BmCbQueue BmPowerInfoReplyCb)
  calls : Nat
  /-- The calls between `queue_cb_enqueue` and the link of a node. -/
  requesting : List Nat
  /-- The calls between the link of a node and their return. -/
  sending : List Nat
  log : List (PowerInfoEvent D)

inductive PowerInfoOp where
  /-- `power_info_service_request` is called and enqueues its callback. -/
  | enqueue (fn : Option Nat) (item : Option Nat)
  /-- A call runs on in `bm_service_request` up to the link of its node. -/
  | link (request : Nat) (timeoutS : UInt32) (faults : RequestFaults) (now : UInt32)
  /-- A call subscribes to the topic of the reply, sends the request and returns. -/
  | finish (request : Nat) (subscribed sent : Bool)
  /-- Somebody else calls `bm_service_request`. -/
  | other (args : RequestArgs) (faults : RequestFaults) (now : UInt32)
  /-- A message arrives on the topic of a reply. -/
  | reply (lock : Bool) (header : BmServiceReplyDataHeader)
  | tick (lock : Bool) (clock : Nat → UInt32)

/-- The pointer to `power_info_reply_cb`; the pointers of others are counted from 1 on. -/
def powerInfoReplyPtr : Nat := 0

def BmServiceRequestNode.isPowerInfo (node : BmServiceRequestNode) : Bool :=
  node.replyCb == some powerInfoReplyPtr

section Functions
variable {D : Type} (decode : List UInt8 → UInt32 → Option D) (ret : Nat → D → BmErr)

/-- What `power_info_reply_decode` makes of a reply, if one has come. -/
def replyInfo (reply : Option (List UInt8 × UInt32)) : Option D :=
  reply.bind fun (replyData, replyLen) => decode replyData replyLen

/-- `power_info_reply_cb` with the data of a reply, or without `ack`: the callback that is invoked,
with its argument. `ret` is what the functions return. -/
def powerInfoReplyCb (q : BmCbQueue BmPowerInfoReplyCb) (reply : Option (List UInt8 × UInt32)) :
    Option (Bool × Option (BmPowerInfoReplyCb × D) × BmCbQueue BmPowerInfoReplyCb) := do
  let d := replyInfo decode reply
  let (err, cb, q) ← queueCbDequeue (fun cb => cb.fn.bind fun fn => d.map (ret fn)) q d.isSome
  some (err = .ok, cb.bind fun cb => d.map (cb, ·), q)

/-- The callback of a node is called, with the data of a reply or for its timeout. -/
def nodeReplied (reply : Option (List UInt8 × UInt32)) (s : PowerInfo D)
    (node : BmServiceRequestNode) : PowerInfo D :=
  if node.isPowerInfo then
    let log := s.log ++
      (reply.map fun (replyData, replyLen) => .answered node.call replyData replyLen).toList
    match s.serviceQueue.bind (powerInfoReplyCb decode ret · reply) with
    | none => { s with serviceQueue := none, log }
    | some (_, invoked, q) =>
      { s with serviceQueue := some q,
               log := log ++ (invoked.map fun (cb, d) => .invoked cb.request d).toList }
  else s

variable (ticks : Ticks) (self : UInt64)

def powerInfoStep (s : PowerInfo D) : PowerInfoOp → PowerInfo D
  | .enqueue fn item =>
    match s.serviceQueue.bind (queueCbEnqueue · ⟨s.calls, fn⟩ item) with
    | none => { s with serviceQueue := none, calls := s.calls + 1 }
    | some (.ok, q) =>
      { s with serviceQueue := some q, calls := s.calls + 1,
               requesting := s.requesting ++ [s.calls] }
    | some (err, q) =>
      { s with serviceQueue := some q, calls := s.calls + 1,
               log := s.log ++ [.returned s.calls err] }
  | .link request timeoutS faults now =>
    if request ∉ s.requesting then s
    else
      let args := ⟨powerInfoService, [], some powerInfoReplyPtr, timeoutS⟩
      match linkRequest ticks faults s.ctx request args now with
      -- the callback stays in the queue
      | (ctx, none) => { s with ctx, requesting := s.requesting.erase request,
                                log := s.log ++ [.returned request .ebadmsg] }
      | (ctx, some _) => { s with ctx, requesting := s.requesting.erase request,
                                  sending := request :: s.sending }
  | .finish request subscribed sent =>
    if request ∉ s.sending then s
    else
      { s with sending := s.sending.erase request,
               log := s.log ++ [.returned request (if subscribed && sent then .ok else .ebadmsg)] }
  | .other args faults now =>
    let args := { args with replyCb := args.replyCb.map (· + 1) }
    { s with ctx := (linkRequest ticks faults s.ctx s.calls args now).1, calls := s.calls + 1 }
  | .reply lock header =>
    let (list, node) := serviceRequestCb self lock s.ctx.serviceRequestList header
    node.toList.foldl (nodeReplied decode ret (some (header.data, header.dataSize)))
      { s with ctx := { s.ctx with serviceRequestList := list } }
  | .tick lock clock =>
    let (list, expired) := serviceRequestTimerExpiryCb ticks lock clock s.ctx.serviceRequestList
    expired.foldl (nodeReplied decode ret none)
      { s with ctx := { s.ctx with serviceRequestList := list } }

end Functions

def noPowerInfo {D : Type} (requestCount : UInt32) : PowerInfo D :=
  ⟨⟨[], requestCount⟩, some .empty, 0, [], [], []⟩

section Properties
variable {D : Type}

/-- How often the callback of a call has been invoked. -/
def invocations (log : List (PowerInfoEvent D)) (request : Nat) : Nat :=
  log.countP fun
    | .invoked request' _ => request' == request
    | _ => false

/-- Every callback is invoked at most once, with the data of the reply to its own request, and never
if its request has returned an error. -/
structure Paired (decode : List UInt8 → UInt32 → Option D) (log : List (PowerInfoEvent D)) :
    Prop where
  once : ∀ request, invocations log request ≤ 1
  own : ∀ request d, .invoked request d ∈ log → ∃ replyData replyLen,
    .answered request replyData replyLen ∈ log ∧ decode replyData replyLen = some d
  refused : ∀ request err, .returned request err ∈ log → err ≠ .ok → ∀ d, .invoked request d ∉ log

/-- A reply has arrived. -/
def answeredIn (log : List (PowerInfoEvent D)) (request : Nat) : Bool :=
  log.any fun
    | .answered request' _ _ => request' == request
    | _ => false

/-- A call has returned an error. -/
def failedIn (log : List (PowerInfoEvent D)) (request : Nat) : Bool :=
  log.any fun
    | .returned request' err => request' == request && err != .ok
    | _ => false

/-- The nodes of power info requests that are left are the last ones. -/
def oldestFirst (list left : List BmServiceRequestNode) : Bool :=
  (left.filter (·.isPowerInfo)).isSuffixOf (list.filter (·.isPowerInfo))

/-- A service request is made for the first callback in the queue that has none yet, and is not
refused; the service requests of power info complete in the order of their nodes, no reply comes to
a call that has returned an error, and no call fails behind its reply. Besides, items are allocated
in unused memory, and the identifiers of the queue do not come full circle. -/
def InTurn (ticks : Ticks) (self : UInt64) (s : PowerInfo D) : PowerInfoOp → Bool
  | .enqueue _ item => s.serviceQueue.all fun q => item.all fun node =>
    (q.cbList.heap.lookup node).isNone && q.addId + 1 != q.getId
  | .link request _ faults _ => request ∉ s.requesting ||
    s.requesting.head? == some request && faults.node && faults.service && faults.lock
  | .finish request subscribed sent => request ∉ s.sending || subscribed && sent ||
    !answeredIn s.log request
  | .other _ _ _ => true
  | .reply lock header =>
    let (left, node) := serviceRequestCb self lock s.ctx.serviceRequestList header
    oldestFirst s.ctx.serviceRequestList left &&
      node.all fun node => !node.isPowerInfo || !failedIn s.log node.call
  | .tick lock clock => oldestFirst s.ctx.serviceRequestList
    (serviceRequestTimerExpiryCb ticks lock clock s.ctx.serviceRequestList).1

/-- The calls whose callbacks are in the queue, in the order of the nodes. -/
def PowerInfo.waiting (s : PowerInfo D) : List Nat :=
  (s.ctx.serviceRequestList.filter (·.isPowerInfo)).map (·.call) ++ s.requesting

/-- The queue holds the callbacks of the calls that wait, in their order, behind those of the calls
`done`, whose nodes have left the list. -/
structure Matched (decode : List UInt8 → UInt32 → Option D) (done : List Nat) (s : PowerInfo D) :
    Prop where
  queue : ∃ q cbs, s.serviceQueue = some q ∧ Queued q cbs ∧ cbs.length < 2 ^ 32 ∧
    cbs.map (·.request) = done ++ s.waiting
  nodup : (done ++ (s.ctx.serviceRequestList.map (·.call) ++ s.requesting)).Nodup
  calls : ∀ request ∈ done ++ (s.ctx.serviceRequestList.map (·.call) ++ s.requesting),
    request < s.calls
  invoked : ∀ request d, .invoked request d ∈ s.log →
    request < s.calls ∧ request ∉ done ++ s.waiting
  paired : Paired decode s.log

end Properties

/-! ## The log -/

section Log
variable {D : Type} {decode : List UInt8 → UInt32 → Option D} {log : List (PowerInfoEvent D)}
  {request : Nat}

theorem invocations_append (log log' : List (PowerInfoEvent D)) (request : Nat) :
    invocations (log ++ log') request = invocations log request + invocations log' request :=
  List.countP_append

theorem invocations_eq_zero (h : ∀ d, .invoked request d ∉ log) : invocations log request = 0 := by
  rw [invocations, List.countP_eq_zero]
  intro event hevent
  cases event <;> grind

theorem answeredIn_of_mem {replyData : List UInt8} {replyLen : UInt32}
    (h : .answered request replyData replyLen ∈ log) : answeredIn log request = true :=
  List.any_eq_true.mpr ⟨_, h, by simp⟩

theorem failedIn_of_mem {err : BmErr} (h : .returned request err ∈ log) (herr : err ≠ .ok) :
    failedIn log request = true :=
  List.any_eq_true.mpr ⟨_, h, by simpa using herr⟩

/-- A call returns an error only if its callback has not been invoked. -/
theorem Paired.returned (h : Paired decode log) {err : BmErr}
    (herr : err ≠ .ok → ∀ d, .invoked request d ∉ log) :
    Paired decode (log ++ [.returned request err]) := by
  refine ⟨fun request' => ?_, fun request' d hd => ?_, fun request' err' hret herr' d hd => ?_⟩
  · have hone := h.once request'
    rw [invocations_append]
    simpa [invocations] using hone
  · obtain ⟨replyData, replyLen, hanswered, hdecode⟩ := h.own request' d (by simpa using hd)
    exact ⟨replyData, replyLen, List.mem_append_left _ hanswered, hdecode⟩
  · have hold : .invoked request' d ∈ log := by simpa using hd
    rcases List.mem_append.mp hret with hret | hret
    · exact h.refused request' err' hret herr' d hold
    · obtain ⟨rfl, rfl⟩ := PowerInfoEvent.returned.inj (List.mem_singleton.mp hret)
      exact herr herr' d hold

theorem Paired.answered (h : Paired decode log) (replyData : List UInt8) (replyLen : UInt32) :
    Paired decode (log ++ [.answered request replyData replyLen]) := by
  refine ⟨fun request' => ?_, fun request' d hd => ?_, fun request' err hret herr d hd => ?_⟩
  · have hone := h.once request'
    rw [invocations_append]
    simpa [invocations] using hone
  · obtain ⟨data, len, hanswered, hdecode⟩ := h.own request' d (by simpa using hd)
    exact ⟨data, len, List.mem_append_left _ hanswered, hdecode⟩
  · exact h.refused request' err (by simpa using hret) herr d (by simpa using hd)

/-- A callback is invoked for the first time, with the reply to its own request. -/
theorem Paired.invoke (h : Paired decode log) {d : D} {replyData : List UInt8} {replyLen : UInt32}
    (hfirst : ∀ d, .invoked request d ∉ log)
    (hanswered : .answered request replyData replyLen ∈ log)
    (hdecode : decode replyData replyLen = some d) (hok : failedIn log request = false) :
    Paired decode (log ++ [.invoked request d]) := by
  refine ⟨fun request' => ?_, fun request' d' hd => ?_, fun request' err hret herr d' hd => ?_⟩
  · rw [invocations_append]
    by_cases hsame : request = request'
    · subst hsame
      rw [invocations_eq_zero hfirst]
      simp [invocations]
    · simpa [invocations, hsame] using h.once request'
  · rcases List.mem_append.mp hd with hd | hd
    · obtain ⟨data, len, hold, hdata⟩ := h.own request' d' hd
      exact ⟨data, len, List.mem_append_left _ hold, hdata⟩
    · obtain ⟨rfl, rfl⟩ := PowerInfoEvent.invoked.inj (List.mem_singleton.mp hd)
      exact ⟨replyData, replyLen, List.mem_append_left _ hanswered, hdecode⟩
  · have hold : .returned request' err ∈ log := by simpa using hret
    rcases List.mem_append.mp hd with hd | hd
    · exact h.refused request' err hold herr d' hd
    · obtain ⟨rfl, -⟩ := PowerInfoEvent.invoked.inj (List.mem_singleton.mp hd)
      exact absurd (failedIn_of_mem hold herr) (by simp [hok])

end Log

/-! ## Steps -/

section Steps
variable {D : Type} {decode : List UInt8 → UInt32 → Option D} {ret : Nat → D → BmErr}
  {ticks : Ticks} {self : UInt64} {s : PowerInfo D} {done : List Nat}

/-- The first callback of the queue is dequeued, and invoked only with a reply. -/
theorem powerInfoReplyCb_queued (decode : List UInt8 → UInt32 → Option D) (ret : Nat → D → BmErr)
    {q : BmCbQueue BmPowerInfoReplyCb} {cb : BmPowerInfoReplyCb} {cbs : List BmPowerInfoReplyCb}
    (h : Queued q (cb :: cbs)) (hlen : (cb :: cbs).length < 2 ^ 32)
    (reply : Option (List UInt8 × UInt32)) :
    ∃ handled invoked q', powerInfoReplyCb decode ret q reply = some (handled, invoked, q') ∧
      Queued q' cbs ∧ ∀ cb' d, invoked = some (cb', d) → cb' = cb ∧
        replyInfo decode reply = some d := by
  unfold powerInfoReplyCb
  generalize replyInfo decode reply = d
  obtain ⟨q', hdequeue, hq'⟩ := h.dequeue hlen
    (fun cb => cb.fn.bind fun fn => d.map (ret fn)) d.isSome
  refine ⟨_, _, q', by simp only [hdequeue, Option.bind_eq_bind, Option.bind_some]; rfl, hq', ?_⟩
  intro cb' d' hinvoked
  simp only [Option.bind_eq_some_iff, Option.map_eq_some_iff] at hinvoked
  obtain ⟨cb'', ⟨err, -, rfl⟩, d'', hd, heq⟩ := hinvoked
  obtain ⟨rfl, rfl⟩ := Prod.mk.inj heq
  exact ⟨rfl, hd⟩

theorem waiting_sublist (s : PowerInfo D) :
    s.waiting.Sublist (s.ctx.serviceRequestList.map (·.call) ++ s.requesting) :=
  (List.filter_sublist.map _).append_right _

/-- A node that has left the list takes the first callback, which is its own where it has a
reply. -/
theorem Matched.nodeReplied {request : Nat} (h : Matched decode (request :: done) s)
    {reply : Option (List UInt8 × UInt32)} {node : BmServiceRequestNode} (hpower : node.isPowerInfo)
    (hown : reply.isSome → node.call = request ∧ failedIn s.log request = false) :
    Matched decode done (nodeReplied decode ret reply s node) := by
  obtain ⟨q, cbs, hqueue, hq, hlen, hcbs⟩ := h.queue
  obtain ⟨cb, cbs, rfl, hcb, hrest⟩ := List.map_eq_cons_iff.mp hcbs
  obtain ⟨handled, invoked, q', hreply, hq', hinvoked⟩ :=
    powerInfoReplyCb_queued decode ret hq hlen reply
  have hlen' : cbs.length < 2 ^ 32 := Nat.lt_of_succ_lt hlen
  have hfresh : request ∉ done ++ s.waiting := fun hmem =>
    (List.nodup_cons.mp h.nodup).1
    (((List.Sublist.refl done).append (waiting_sublist s)).subset hmem)
  have hfirst : ∀ d, .invoked request d ∉ s.log := fun d hd => (h.invoked request d hd).2 (by simp)
  let replied : List (PowerInfoEvent D) :=
    (reply.map fun (data, len) => .answered node.call data len).toList
  have hstep : Middleware.nodeReplied decode ret reply s node = { s with
      serviceQueue := some q'
      log := s.log ++ replied ++ (invoked.map fun (cb, d) => .invoked cb.request d).toList } := by
    rw [Middleware.nodeReplied, if_pos hpower, hqueue]
    simp only [Option.bind_some, hreply, replied]
  have hreplied : Paired decode (s.log ++ replied) := by
    cases reply with
    | none => simpa [replied] using h.paired
    | some reply => exact h.paired.answered reply.1 reply.2
  have hnew : ∀ request' d, .invoked request' d ∈ s.log ++ replied →
      .invoked request' d ∈ s.log := by
    intro request' d hd
    cases reply <;> simpa [replied] using hd
  rw [hstep]
  refine ⟨⟨q', cbs, rfl, hq', hlen', hrest⟩, (List.nodup_cons.mp h.nodup).2,
    fun r hr => h.calls r (List.mem_cons_of_mem _ hr), fun r d hd => ?_, ?_⟩
  · rcases List.mem_append.mp hd with hd | hd
    · obtain ⟨hlt, hnot⟩ := h.invoked r d (hnew r d hd)
      exact ⟨hlt, fun hmem => hnot (List.mem_cons_of_mem _ hmem)⟩
    · obtain ⟨cb', hmem, rfl⟩ : ∃ cb', invoked = some (cb', d) ∧ cb'.request = r := by
        simpa using hd
      obtain ⟨rfl, -⟩ := hinvoked cb' d hmem
      rw [hcb]
      exact ⟨h.calls request (by simp), hfresh⟩
  · cases hcase : invoked with
    | none => simpa using hreplied
    | some called =>
      obtain ⟨cb', d⟩ := called
      obtain ⟨rfl, hd⟩ := hinvoked cb' d hcase
      obtain ⟨⟨data, len⟩, rfl, hdecode⟩ := Option.bind_eq_some_iff.mp hd
      obtain ⟨hcall, hok⟩ := hown rfl
      refine hreplied.invoke (fun d hd => ?_) ?_ hdecode ?_
      · rw [hcb] at hd
        exact hfirst d (hnew _ _ hd)
      · simp [replied, hcb, hcall]
      · rw [hcb]
        simpa [failedIn, replied] using hok

/-- A run of the nodes whose time has come. -/
theorem Matched.expired (h : Matched decode done s) {nodes : List BmServiceRequestNode}
    (hlen : done.length = (nodes.filter (·.isPowerInfo)).length) :
    Matched decode [] (nodes.foldl (Middleware.nodeReplied decode ret none) s) := by
  induction nodes generalizing done s with
  | nil =>
    obtain rfl : done = [] := List.eq_nil_of_length_eq_zero hlen
    exact h
  | cons node nodes ih =>
    rw [List.foldl_cons]
    by_cases hpower : node.isPowerInfo
    · obtain ⟨request, done, rfl⟩ : ∃ request done', done = request :: done' := by
        apply List.exists_cons_of_length_pos
        simp [hlen, hpower]
      exact ih (h.nodeReplied hpower (by simp)) (by simpa [hpower] using hlen)
    · have hsame : Middleware.nodeReplied decode ret none s node = s := if_neg hpower
      rw [hsame]
      exact ih h (by simpa [hpower] using hlen)

/-- The nodes that leave the list are the first ones of power info, in some order. -/
theorem Matched.leave (h : Matched decode [] s) {left gone : List BmServiceRequestNode}
    (hleft : left.Sublist s.ctx.serviceRequestList) (hnodup : gone.Nodup)
    (hgone : ∀ n, n ∈ gone ↔ n ∈ s.ctx.serviceRequestList ∧ n ∉ left)
    (hfirst : oldestFirst s.ctx.serviceRequestList left) :
    ∃ done, done.Perm ((gone.filter (·.isPowerInfo)).map (·.call)) ∧
      Matched decode done { s with ctx := { s.ctx with serviceRequestList := left } } := by
  have hlist : (s.ctx.serviceRequestList.map (·.call) ++ s.requesting).Nodup := h.nodup
  have hnodes : s.ctx.serviceRequestList.Nodup := (List.nodup_append.mp hlist).1.of_map
  have hperm : (gone ++ left).Perm s.ctx.serviceRequestList := by
    refine (List.perm_ext_iff_of_nodup ?_ hnodes).mpr fun n => ?_
    · refine List.nodup_append.mpr ⟨hnodup, hnodes.sublist hleft, ?_⟩
      grind
    · have := hleft.subset (a := n)
      grind
  obtain ⟨first, hsplit⟩ := List.isSuffixOf_iff_suffix.mp hfirst
  have hfirst : first.Perm (gone.filter (·.isPowerInfo)) := by
    have hfilter := hperm.filter (·.isPowerInfo)
    rw [List.filter_append, ← hsplit] at hfilter
    exact ((List.perm_append_right_iff _).mp hfilter).symm
  have hwaiting : first.map (·.call) ++ PowerInfo.waiting
      { s with ctx := { s.ctx with serviceRequestList := left } } = s.waiting := by
    rw [PowerInfo.waiting, PowerInfo.waiting, ← hsplit, List.map_append, List.append_assoc]
  have hall : ((gone ++ left).map (·.call) ++ s.requesting).Perm
      (s.ctx.serviceRequestList.map (·.call) ++ s.requesting) := (hperm.map _).append_right _
  have hkept : (first.map (·.call) ++ (left.map (·.call) ++ s.requesting)).Subperm
      (s.ctx.serviceRequestList.map (·.call) ++ s.requesting) := by
    refine List.Subperm.trans ?_ hall.subperm
    rw [List.map_append, List.append_assoc, List.subperm_append_right]
    exact (hfirst.map _).subperm.trans (List.filter_sublist.map _).subperm
  refine ⟨first.map (·.call), hfirst.map _, ?_, ?_, ?_, ?_, h.paired⟩
  · obtain ⟨q, cbs, hqueue, hq, hlen, hcbs⟩ := h.queue
    exact ⟨q, cbs, hqueue, hq, hlen, by rw [hcbs, hwaiting]; rfl⟩
  · obtain ⟨calls, hcalls, hsub⟩ := hkept
    exact hcalls.nodup_iff.mp (hlist.sublist hsub)
  · exact fun request hmem => h.calls request (hkept.subset hmem)
  · intro request d hd
    rw [hwaiting]
    exact h.invoked request d hd

theorem Matched.enqueue (h : Matched decode [] s) {fn item : Option Nat}
    (hturn : InTurn ticks self s (.enqueue fn item)) :
    Matched decode [] (powerInfoStep decode ret ticks self s (.enqueue fn item)) := by
  obtain ⟨q, cbs, hqueue, hq, hlen, hcbs⟩ := h.queue
  have hlater : ∀ request ∈ s.ctx.serviceRequestList.map (·.call) ++ s.requesting,
      request < s.calls + 1 := fun request hmem => Nat.lt_succ_of_lt (h.calls request hmem)
  cases item with
  | none =>
    have hstep : powerInfoStep decode ret ticks self s (.enqueue fn none) = { s with
        serviceQueue := some q
        calls := s.calls + 1
        log := s.log ++ [.returned s.calls .enomem] } := by
      simp only [powerInfoStep, hqueue, Option.bind_some, queueCbEnqueue]
    rw [hstep]
    refine ⟨⟨q, cbs, rfl, hq, hlen, hcbs⟩, h.nodup, hlater, fun request d hd => ?_,
      h.paired.returned fun _ d hd => ?_⟩
    · obtain ⟨hlt, hnot⟩ := h.invoked request d (by simpa using hd)
      exact ⟨Nat.lt_succ_of_lt hlt, hnot⟩
    · exact absurd (h.invoked s.calls d hd).1 (Nat.lt_irrefl _)
  | some node =>
    simp only [InTurn, hqueue, Option.all_some, Bool.and_eq_true, Option.isNone_iff_eq_none,
      AList.lookup_eq_none, bne_iff_ne] at hturn
    obtain ⟨q', henqueue, hq'⟩ := hq.enqueue ⟨s.calls, fn⟩ hturn.1
    have hstep : powerInfoStep decode ret ticks self s (.enqueue fn (some node)) = { s with
        serviceQueue := some q'
        calls := s.calls + 1
        requesting := s.requesting ++ [s.calls] } := by
      simp only [powerInfoStep, hqueue, Option.bind_some, henqueue]
    rw [hstep]
    refine ⟨⟨q', _, rfl, hq', ?_, ?_⟩, ?_, fun request hmem => ?_, fun request d hd => ?_, h.paired⟩
    · simpa using hq.room hlen hturn.2
    · simp [PowerInfo.waiting, hcbs]
    · rw [List.nil_append, ← List.append_assoc]
      refine List.nodup_append.mpr ⟨h.nodup, by simp, ?_⟩
      intro request hmem new hnew
      rw [List.mem_singleton.mp hnew]
      exact Nat.ne_of_lt (h.calls request hmem)
    · rw [List.nil_append, ← List.append_assoc, List.mem_append, List.mem_singleton] at hmem
      rcases hmem with hmem | rfl
      · exact hlater request hmem
      · exact Nat.lt_succ_self _
    · obtain ⟨hlt, hnot⟩ := h.invoked request d hd
      refine ⟨Nat.lt_succ_of_lt hlt, ?_⟩
      have hne : request ≠ s.calls := Nat.ne_of_lt hlt
      simpa [PowerInfo.waiting, hne] using hnot

theorem Matched.link (h : Matched decode [] s) {request : Nat} {timeoutS now : UInt32}
    {faults : RequestFaults} (hturn : InTurn ticks self s (.link request timeoutS faults now)) :
    Matched decode [] (powerInfoStep decode ret ticks self s
      (.link request timeoutS faults now)) := by
  by_cases hmem : request ∈ s.requesting
  · simp only [InTurn, hmem, not_true_eq_false, decide_false, Bool.false_or, Bool.and_eq_true,
      beq_iff_eq] at hturn
    obtain ⟨⟨⟨hhead, hnode⟩, hservice⟩, hlock⟩ := hturn
    obtain ⟨rest, hrequesting⟩ := List.head?_eq_some_iff.mp hhead
    let args : RequestArgs := ⟨powerInfoService, [], some powerInfoReplyPtr, timeoutS⟩
    obtain ⟨node, hsome⟩ := Option.isSome_iff_exists.mp
      ((linkRequest_isSome ticks faults s.ctx request args now).mpr
        ⟨Nat.zero_le _, hnode, hservice, hlock⟩)
    have hpower : node.isPowerInfo := beq_iff_eq.mpr (linkRequest_replyCb hsome)
    rcases linkRequest_cases ticks faults s.ctx request args now with
      ⟨ctx, heq, -⟩ | ⟨node', hcall, -, -, -, heq⟩
    · simp [heq] at hsome
    obtain rfl : node' = node := by simpa [heq] using hsome
    have hstep : powerInfoStep decode ret ticks self s (.link request timeoutS faults now) =
      { s with
        ctx := ⟨s.ctx.serviceRequestList ++ [node'], s.ctx.requestCount + 1⟩
        requesting := rest
        sending := request :: s.sending } := by
      simp only [powerInfoStep, hmem, not_true_eq_false, if_false, args, heq]
      simp [hrequesting]
    rw [hstep]
    have hcalls : (s.ctx.serviceRequestList ++ [node']).map (·.call) ++ rest =
        s.ctx.serviceRequestList.map (·.call) ++ s.requesting := by simp [hrequesting, hcall]
    have hwaiting : PowerInfo.waiting { s with
        ctx := ⟨s.ctx.serviceRequestList ++ [node'], s.ctx.requestCount + 1⟩
        requesting := rest
        sending := request :: s.sending } = s.waiting := by
      simp [PowerInfo.waiting, hpower, hcall, hrequesting]
    refine ⟨?_, ?_, ?_, ?_, h.paired⟩
    · rw [hwaiting]
      exact h.queue
    · rw [hcalls]
      exact h.nodup
    · rw [hcalls]
      exact h.calls
    · rw [hwaiting]
      exact h.invoked
  · simp only [powerInfoStep, hmem, not_false_eq_true, if_true]
    exact h

theorem Matched.finish (h : Matched decode [] s) {request : Nat} {subscribed sent : Bool}
    (hturn : InTurn ticks self s (.finish request subscribed sent)) :
    Matched decode [] (powerInfoStep decode ret ticks self s
      (.finish request subscribed sent)) := by
  by_cases hmem : request ∈ s.sending
  · simp only [powerInfoStep, hmem, not_true_eq_false, if_false]
    refine ⟨h.queue, h.nodup, h.calls, fun request' d hd =>
      h.invoked request' d (by simpa using hd),
      h.paired.returned fun herr d hd => ?_⟩
    -- its callback would have been invoked for a reply
    obtain ⟨data, len, hanswered, -⟩ := h.paired.own request d hd
    have hreplied := answeredIn_of_mem hanswered
    simp only [InTurn, hmem, hreplied] at hturn
    exact herr (by simpa using hturn)
  · simp only [powerInfoStep, hmem, not_false_eq_true, if_true]
    exact h

theorem Matched.other (h : Matched decode [] s) (args : RequestArgs) (faults : RequestFaults)
    (now : UInt32) :
    Matched decode [] (powerInfoStep decode ret ticks self s (.other args faults now)) := by
  dsimp only [powerInfoStep]
  have hlater : ∀ request ∈ s.ctx.serviceRequestList.map (·.call) ++ s.requesting,
      request < s.calls + 1 := fun request hmem => Nat.lt_succ_of_lt (h.calls request hmem)
  have hinvoked : ∀ request d, .invoked request d ∈ s.log → request < s.calls + 1 ∧
      request ∉ s.waiting := fun request d hd =>
    ⟨Nat.lt_succ_of_lt (h.invoked request d hd).1, (h.invoked request d hd).2⟩
  generalize hargs : { args with replyCb := args.replyCb.map (· + 1) } = args'
  rcases linkRequest_cases ticks faults s.ctx s.calls args' now with
    ⟨ctx, heq, hlist, -⟩ | ⟨node, hcall, -, -, -, heq⟩
  · rw [heq]
    refine ⟨?_, ?_, ?_, ?_, h.paired⟩
    · simpa [PowerInfo.waiting, hlist] using h.queue
    · simpa [hlist] using h.nodup
    · simpa only [hlist, List.nil_append] using hlater
    · simpa [PowerInfo.waiting, hlist] using hinvoked
  · rw [heq]
    have hpower : node.isPowerInfo = false := by
      have hcb := linkRequest_replyCb (congrArg Prod.snd heq)
      rw [BmServiceRequestNode.isPowerInfo, hcb, ← hargs]
      cases args.replyCb <;> simp [powerInfoReplyPtr]
    refine ⟨?_, ?_, ?_, ?_, h.paired⟩
    · simpa [PowerInfo.waiting, hpower] using h.queue
    · have hnew : s.calls ∉ s.ctx.serviceRequestList.map (·.call) ++ s.requesting :=
        fun hmem => absurd (h.calls s.calls hmem) (Nat.lt_irrefl _)
      have hcons : (s.calls :: (s.ctx.serviceRequestList.map (·.call) ++ s.requesting)).Nodup :=
        List.nodup_cons.mpr ⟨hnew, h.nodup⟩
      refine (List.Perm.nodup_iff ?_).mpr hcons
      simp [hcall, List.perm_middle]
    · intro request hmem
      have hold := hlater request
      have hself := Nat.lt_succ_self s.calls
      grind
    · simpa [PowerInfo.waiting, hpower] using hinvoked

theorem Matched.nodup_list (h : Matched decode [] s) :
    (s.ctx.serviceRequestList.map (·.call)).Nodup := by
  have hall : (s.ctx.serviceRequestList.map (·.call) ++ s.requesting).Nodup := h.nodup
  exact (List.nodup_append.mp hall).1

theorem Matched.reply (h : Matched decode [] s) {lock : Bool} {header : BmServiceReplyDataHeader}
    (hturn : InTurn ticks self s (.reply lock header)) :
    Matched decode [] (powerInfoStep decode ret ticks self s (.reply lock header)) := by
  obtain ⟨hsub, hnodup, hgone⟩ := serviceRequestCb_spec self lock header h.nodup_list
  simp only [InTurn, Bool.and_eq_true] at hturn
  obtain ⟨hfirst, hlive⟩ := hturn
  obtain ⟨done, hdone, hleft⟩ := h.leave hsub hnodup hgone hfirst
  dsimp only [powerInfoStep]
  cases hnode : (serviceRequestCb self lock s.ctx.serviceRequestList header).2 with
  | none =>
    obtain rfl : done = [] := by simpa [hnode] using hdone
    exact hleft
  | some node =>
    simp only [hnode, Option.all_some, Option.toList_some] at hlive hdone
    rw [Option.toList_some, List.foldl_cons, List.foldl_nil]
    by_cases hpower : node.isPowerInfo
    · obtain rfl : done = [node.call] := by simpa [hpower] using hdone
      exact hleft.nodeReplied hpower fun _ => ⟨rfl, by simpa [hpower] using hlive⟩
    · obtain rfl : done = [] := by simpa [hpower] using hdone
      rw [Middleware.nodeReplied, if_neg hpower]
      exact hleft

theorem Matched.tick (h : Matched decode [] s) {lock : Bool} {clock : Nat → UInt32}
    (hturn : InTurn ticks self s (.tick lock clock)) :
    Matched decode [] (powerInfoStep decode ret ticks self s (.tick lock clock)) := by
  obtain ⟨hsub, hnodup, hgone⟩ := serviceRequestTimerExpiryCb_spec ticks lock clock h.nodup_list
  obtain ⟨done, hdone, hleft⟩ := h.leave hsub hnodup hgone hturn
  have hlen := hdone.length_eq
  rw [List.length_map] at hlen
  exact hleft.expired hlen

theorem Matched.step (h : Matched decode [] s) {op : PowerInfoOp} (hturn : InTurn ticks self s op) :
    Matched decode [] (powerInfoStep decode ret ticks self s op) := by
  cases op with
  | enqueue fn item => exact h.enqueue hturn
  | link request timeoutS faults now => exact h.link hturn
  | finish request subscribed sent => exact h.finish hturn
  | other args faults now => exact h.other args faults now
  | reply lock header => exact h.reply hturn
  | tick lock clock => exact h.tick hturn

theorem matched_noPowerInfo (decode : List UInt8 → UInt32 → Option D) (requestCount : UInt32) :
    Matched decode [] (noPowerInfo requestCount) := by
  refine ⟨⟨.empty, [], rfl, queued_empty, by simp, rfl⟩, List.nodup_nil, ?_, ?_, ?_, ?_, ?_⟩ <;>
    simp [noPowerInfo, invocations]

end Steps

/-- In every run in which the service requests are made in the order of the queue and complete in
that order, none is refused, none fails behind its reply, and no reply comes to a call that has
returned an error, every callback is invoked at most once, with the data of the reply to its own
request, and never if its call has returned an error. -/
theorem power_info_paired {D : Type} (decode : List UInt8 → UInt32 → Option D)
    (ret : Nat → D → BmErr)
    (ticks : Ticks) (self : UInt64) (requestCount : UInt32) (ops : List PowerInfoOp)
    (h : Along (powerInfoStep decode ret ticks self) (fun s op => InTurn ticks self s op)
      (noPowerInfo requestCount) ops) :
    Paired decode (ops.foldl (powerInfoStep decode ret ticks self)
      (noPowerInfo requestCount)).log := by
  have hmatched : Matched decode []
      (ops.foldl (powerInfoStep decode ret ticks self) (noPowerInfo requestCount)) :=
    foldl_invariant (fun _ _ hs hturn => hs.step hturn) (matched_noPowerInfo decode requestCount) h
  exact hmatched.paired

/-! ## A reply in the layout of `power_info_service_init` -/

/-- `PowerInfoReplyData` -/
structure PowerInfoReplyData where
  totalOnS : UInt32
  remainingOnS : UInt32
  upcomingOffS : UInt32
  deriving DecidableEq

/-- `total_on_s`, `remaining_on_s` and `upcoming_off_s` -/
def powerInfoKeys : List (List UInt8) :=
  [[0x74, 0x6F, 0x74, 0x61, 0x6C, 0x5F, 0x6F, 0x6E, 0x5F, 0x73],
    [0x72, 0x65, 0x6D, 0x61, 0x69, 0x6E, 0x69, 0x6E, 0x67, 0x5F, 0x6F, 0x6E, 0x5F, 0x73],
    [0x75, 0x70, 0x63, 0x6F, 0x6D, 0x69, 0x6E, 0x67, 0x5F, 0x6F, 0x66, 0x66, 0x5F, 0x73]]

def encodePowerInfo (d : PowerInfoReplyData) : List UInt8 :=
  Cbor.encodeHead 5 3 ++ (powerInfoKeys.zip [d.totalOnS, d.remainingOnS, d.upcomingOffS]).flatMap
    fun (key, value) => Cbor.encodeHead 3 key.length ++ key ++ Cbor.encodeHead 0 value.toNat

/-- The values behind the keys of a map. -/
def decodeFields : List (List UInt8) → List UInt8 → Option (List UInt32)
  | [], _ => some []
  | key :: keys, b => do
    let b ← b.dropPrefix? (Cbor.encodeHead 3 key.length ++ key)
    let head ← Cbor.head? b
    let value ← if head.major = 0 then head.arg else none
    let values ← decodeFields keys (b.drop head.size)
    some (.ofNat value :: values)

def decodePowerInfo (replyData : List UInt8) (replyLen : UInt32) : Option PowerInfoReplyData := do
  let b ← (replyData.take replyLen.toNat).dropPrefix? (Cbor.encodeHead 5 3)
  match ← decodeFields powerInfoKeys b with
  | [totalOnS, remainingOnS, upcomingOffS] => some ⟨totalOnS, remainingOnS, upcomingOffS⟩
  | _ => none

def powerInfoA : PowerInfoReplyData := ⟨310, 121, 1500⟩

/-- The reply with the values `powerInfoA` to the service request of an identifier. -/
def replyA (id : UInt32) : PowerInfoOp :=
  let data := encodePowerInfo powerInfoA
  .reply true ⟨7, id, .ofNat data.length, data⟩

/-- A call that gets as far as its return. -/
def wholeRequest (request item : Nat) : List PowerInfoOp :=
  [.enqueue (some 1) (some item), .link request 1 ⟨true, true, true⟩ 0, .finish request true true]

/-- One request is answered, the other one is not. -/
def inTurnRun : List PowerInfoOp :=
  wholeRequest 0 1 ++ wholeRequest 1 2 ++ [replyA 0, .tick true fun _ => 1000]

theorem inTurnRun_paired :
    let s := inTurnRun.foldl (powerInfoStep decodePowerInfo
      (fun _ _ => .ok) posixTicks 7) (noPowerInfo 0)
    Paired decodePowerInfo s.log ∧ invocations s.log 0 = 1 ∧ s.waiting = [] :=
  ⟨power_info_paired decodePowerInfo (fun _ _ => .ok) posixTicks 7 0 inTurnRun (by decide +kernel),
    by decide +kernel, by decide +kernel⟩

/-- The node of the first call cannot be allocated, and the second one is answered. -/
def refusedRun : List PowerInfoOp :=
  [.enqueue (some 1) (some 1), .link 0 1 ⟨false, true, true⟩ 0] ++ wholeRequest 1 2 ++ [replyA 0]

/-- The second call is answered before the first one. -/
def overtakenRun : List PowerInfoOp := wholeRequest 0 1 ++ wholeRequest 1 2 ++ [replyA 1]

/-- The callback of a call that has returned an error is invoked, and one is invoked with the reply
to another request. -/
theorem power_info_shifted :
    let log ops := (ops.foldl (powerInfoStep decodePowerInfo (fun _ _ => .ok) posixTicks 7)
      (noPowerInfo 0)).log
    ¬Paired decodePowerInfo (log refusedRun) ∧ ¬Paired decodePowerInfo (log overtakenRun) := by
  intro log
  have hrefused : .returned 0 .ebadmsg ∈ log refusedRun ∧
      .invoked 0 powerInfoA ∈ log refusedRun := by
    decide +kernel
  have hovertaken : .invoked 0 powerInfoA ∈ log overtakenRun ∧
      answeredIn (log overtakenRun) 0 = false := by
    decide +kernel
  refine ⟨fun h => ?_, fun h => ?_⟩
  · exact h.refused 0 .ebadmsg hrefused.1 (by simp) powerInfoA hrefused.2
  · obtain ⟨data, len, hanswered, -⟩ := h.own 0 powerInfoA hovertaken.1
    simp [answeredIn_of_mem hanswered] at hovertaken

end BmCore.Middleware
