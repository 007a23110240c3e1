import BmCore.Common.LinkedList
import BmCore.Library.Runs
import Mathlib.Data.List.Induction

/-!
# Replies by node

`bcmp/info.c` and `bcmp/resource_discovery.c` keep a list each of the requests that wait for a
reply, with their callbacks. The items of the list are found by 32 bits of the node id. Beside them
stands what the lists are for: a reply of a node answers the oldest request to that node. -/
namespace BmCore.Bcmp
open Library LL

/-! ## The code -/

inductive RequestModule where
  | info | resource
  deriving DecidableEq, Repr

/-- `INFO_REQUEST_LIST` and `RESOURCE_REQUEST_LIST`, with the callbacks that have been invoked and
the node ids of the replies they were given. -/
structure Routing (C : Type) where
  info : LL (Option C) := .empty
  resource : LL (Option C) := .empty
  calls : List (RequestModule × C × UInt64) := []

inductive RoutingAction (C : Type) where
  | requestInfo (targetNodeId : UInt64) (cb : Option C) (item : Option Nat) (tx : BmErr)
  | infoReply (nodeId : UInt64)
  | sendRequest (targetNodeId : UInt64) (cb : Option C) (item : Option Nat) (tx : BmErr)
  | resourceReply (nodeId srcNodeId : UInt64)

section Code
variable {C : Type}

/-- `ll_get_item`, the call of the callback, and `ll_remove`. -/
def takeReply (ll : LL (Option C)) (nodeId : UInt64) : Option (List C × LL (Option C)) := do
  let found ← ll.getItem nodeId.toUInt32
  let (ll, _) ← ll.remove nodeId.toUInt32
  some (found.join.toList, ll)

namespace Routing

/-- `bcmp_request_info`; `item` is where `ll_create_item` puts the item, `tx` what `bcmp_tx`
returns. -/
def bcmpRequestInfo (targetNodeId : UInt64) (cb : Option C) (item : Option Nat) (tx : BmErr)
    (s : Routing C) : Option (BmErr × Routing C) :=
  match item with
  | none => some (.enomem, s)
  | some node => do
    let info ← s.info.itemAdd node targetNodeId.toUInt32 cb
    if tx = .ok then some (tx, { s with info := info })
    else do
      let (info, _) ← info.remove targetNodeId.toUInt32
      some (tx, { s with info := info })

/-- `bcmp_process_info_reply`, as far as the list goes. -/
def bcmpProcessInfoReply (nodeId : UInt64) (s : Routing C) : Option (Routing C) := do
  let (cbs, info) ← takeReply s.info nodeId
  some { s with info := info, calls := s.calls ++ cbs.map (.info, ·, nodeId) }

/-- `bcmp_resource_discovery_send_request` -/
def bcmpResourceDiscoverySendRequest (targetNodeId : UInt64) (cb : Option C) (item : Option Nat)
    (tx : BmErr) (s : Routing C) : Option (BmErr × Routing C) :=
  if tx = .ok then
    match item with
    | none => some (.enomem, s)
    | some node => do
      let resource ← s.resource.itemAdd node targetNodeId.toUInt32 cb
      some (.ok, { s with resource := resource })
  else some (tx, s)

/-- `bcmp_process_resource_discovery_reply`, as far as the list goes. -/
def bcmpProcessResourceDiscoveryReply (nodeId srcNodeId : UInt64) (s : Routing C) :
    Option (Routing C) :=
  if nodeId = srcNodeId then do
    let (cbs, resource) ← takeReply s.resource srcNodeId
    some { s with resource := resource, calls := s.calls ++ cbs.map (.resource, ·, nodeId) }
  else some s

def exec (s : Routing C) : RoutingAction C → Option (Routing C)
  | .requestInfo targetNodeId cb item tx => (s.bcmpRequestInfo targetNodeId cb item tx).map Prod.snd
  | .infoReply nodeId => s.bcmpProcessInfoReply nodeId
  | .sendRequest targetNodeId cb item tx =>
    (s.bcmpResourceDiscoverySendRequest targetNodeId cb item tx).map Prod.snd
  | .resourceReply nodeId srcNodeId => s.bcmpProcessResourceDiscoveryReply nodeId srcNodeId

def list (s : Routing C) : RequestModule → LL (Option C)
  | .info => s.info
  | .resource => s.resource

end Routing

end Code

/-! ## What it is for -/

/-- The requests that wait, by their full node ids, those made so far, and the callbacks invoked. -/
structure Asked (C : Type) where
  waiting : RequestModule → List (UInt64 × Option C)
  requested : List (RequestModule × UInt64 × Option C)
  calls : List (RequestModule × C × UInt64)

namespace Asked
variable {C : Type}

def init : Asked C := ⟨fun _ => [], [], []⟩

/-- The waiting requests of a module are changed. -/
def setWaiting (a : Asked C) (m : RequestModule) (waiting : List (UInt64 × Option C)) : Asked C :=
  { a with waiting := fun m' => if m' = m then waiting else a.waiting m' }

/-- A request that has an item and is sent waits. -/
def request (a : Asked C) (m : RequestModule) (targetNodeId : UInt64) (cb : Option C) (ok : Bool) :
    Asked C :=
  if ok then
    { a.setWaiting m (a.waiting m ++ [(targetNodeId, cb)]) with
      requested := a.requested ++ [(m, targetNodeId, cb)] }
  else a

/-- A reply answers the oldest request to its node. -/
def reply (a : Asked C) (m : RequestModule) (nodeId : UInt64) : Asked C :=
  let cbs := (((a.waiting m).find? (·.1 == nodeId)).bind Prod.snd).toList
  { a.setWaiting m ((a.waiting m).eraseP (·.1 == nodeId)) with
    calls := a.calls ++ cbs.map (m, ·, nodeId) }

def exec (a : Asked C) : RoutingAction C → Asked C
  | .requestInfo targetNodeId cb item tx => a.request .info targetNodeId cb
    (item.isSome && tx == .ok)
  | .infoReply nodeId => a.reply .info nodeId
  | .sendRequest targetNodeId cb item tx => a.request .resource targetNodeId cb
    (item.isSome && tx == .ok)
  | .resourceReply nodeId srcNodeId => if nodeId = srcNodeId then a.reply .resource nodeId else a

@[simp] theorem setWaiting_same (a : Asked C) (m : RequestModule)
    (waiting : List (UInt64 × Option C)) :
    (a.setWaiting m waiting).waiting m = waiting := by simp [setWaiting]

theorem setWaiting_other (a : Asked C) {m m' : RequestModule} (h : m' ≠ m)
    (waiting : List (UInt64 × Option C)) : (a.setWaiting m waiting).waiting m' = a.waiting m' := by
  simp [setWaiting, h]

end Asked

/-! ## One list -/

section List
variable {C : Type} {ll : LL (Option C)} {waiting : List (UInt64 × Option C)}

/-- What the code keeps of a waiting request. -/
def truncated (p : UInt64 × Option C) : UInt32 × Option C := (p.1.toUInt32, p.2)

/-- The list holds the waiting requests. -/
def Represents (ll : LL (Option C)) (waiting : List (UInt64 × Option C)) : Prop :=
  ∃ es, Linked ll es ∧ es.map payload = waiting.map truncated

/-- The oldest request with the same 32 bits is one to the node itself. -/
def Unmistaken (waiting : List (UInt64 × Option C)) (nodeId : UInt64) : Prop :=
  ∀ p, waiting.find? (·.1.toUInt32 == nodeId.toUInt32) = some p → p.1 = nodeId

theorem represents_empty : Represents (LL.empty : LL (Option C)) [] := ⟨[], Linked.empty, rfl⟩

theorem Represents.entries (h : Represents ll waiting) :
    ll.entries.map payload = waiting.map truncated := by
  obtain ⟨es, hlinked, hmap⟩ := h
  rw [hlinked.entries_eq, hmap]

theorem Represents.add (h : Represents ll waiting) {node : Nat} (hnode : node ∉ ll.heap)
    (targetNodeId : UInt64) (cb : Option C) : ∃ ll',
    ll.itemAdd node targetNodeId.toUInt32 cb = some ll' ∧
      Represents ll' (waiting ++ [(targetNodeId, cb)]) := by
  obtain ⟨es, hlinked, hmap⟩ := h
  obtain ⟨ll', es', hadd, hlinked', hview, -⟩ :=
    itemAdd_linked hlinked hnode targetNodeId.toUInt32 cb
  refine ⟨ll', hadd, _, hlinked', ?_⟩
  rw [List.map_append, map_payload_of_view hview, hmap, List.map_append]
  rfl

/-- The items and the waiting requests are split at the same place. -/
theorem Represents.split {pre post : List (Entry (Option C))} {e : Entry (Option C)}
    (h : (pre ++ e :: post).map payload = waiting.map truncated) : ∃ ps p qs,
    waiting = ps ++ p :: qs ∧
      pre.map payload = ps.map truncated ∧ payload e = truncated p ∧
      post.map payload = qs.map truncated := by
  rw [List.map_append, List.map_cons, eq_comm, List.map_eq_append_iff] at h
  obtain ⟨ps, rest, rfl, hps, hrest⟩ := h
  obtain ⟨p, qs, rfl, hp, hqs⟩ := List.map_eq_cons_iff.mp hrest
  exact ⟨ps, p, qs, rfl, hps.symm, hp.symm, hqs.symm⟩

/-- Requests whose items have other identifiers are to other nodes. -/
theorem ids_ne {es : List (Entry (Option C))} (h : es.map payload = waiting.map truncated)
    {id : UInt32}
    (hid : ∀ e ∈ es, e.2.id ≠ id) : ∀ p ∈ waiting, p.1.toUInt32 ≠ id := by
  intro p hp heq
  have hmem : truncated p ∈ es.map payload := h ▸ List.mem_map_of_mem hp
  obtain ⟨e, he, hpe⟩ := List.mem_map.mp hmem
  exact hid e he ((congrArg Prod.fst hpe).trans heq)

/-- An item that has just been added is removed again, if no other has its identifier. -/
theorem Represents.undo (h : Represents ll waiting) {node : Nat} (hnode : node ∉ ll.heap)
    {targetNodeId : UInt64} (cb : Option C)
    (hother : ∀ p ∈ waiting, p.1.toUInt32 ≠ targetNodeId.toUInt32) :
    ∃ ll' ll'', ll.itemAdd node targetNodeId.toUInt32 cb = some ll' ∧
      ll'.remove targetNodeId.toUInt32 = some (ll'', .ok) ∧ Represents ll'' waiting := by
  obtain ⟨es, hlinked, hmap⟩ := h
  obtain ⟨ll', es', hadd, hlinked', hview, -⟩ :=
    itemAdd_linked hlinked hnode targetNodeId.toUInt32 cb
  have hmap' : es'.map payload = waiting.map truncated := (map_payload_of_view hview).trans hmap
  have hid : ∀ e ∈ es', e.2.id ≠ targetNodeId.toUInt32 := by
    intro e he heq
    have hmem : payload e ∈ waiting.map truncated := hmap' ▸ List.mem_map_of_mem he
    obtain ⟨p, hp, hpe⟩ := List.mem_map.mp hmem
    exact hother p hp ((congrArg Prod.fst hpe).trans heq)
  obtain ⟨ll'', hremove, -, hrest⟩ := remove_found hlinked' hid rfl
  -- the new item points back to the one that was last
  have hback : ll'.backPointerOk targetNodeId.toUInt32 = true := by
    have hlast : lastAddr none es' = lastAddr none es := lastAddr_congr (map_fst_of_view hview)
    have hwalk := walk_found hlinked'.walkable hid rfl
    have hcell := hlinked'.lookup (e := (node, ⟨none, lastAddr none es, cb, targetNodeId.toUInt32⟩))
      (by simp)
    unfold backPointerOk
    rw [hwalk, hlast]
    cases hprev : lastAddr none es with
    | none => rfl
    | some previous => simp [hcell, hprev]
  obtain ⟨es'', hlinked'', hview''⟩ := hrest hback
  refine ⟨ll', ll'', hadd, hremove, es'', hlinked'', ?_⟩
  rw [map_payload_of_view hview'', List.append_nil, hmap']

/-- A reply answers the oldest request to its node, if this is the oldest with the same 32 bits. -/
theorem Represents.reply (h : Represents ll waiting) {nodeId : UInt64}
    (hfirst : Unmistaken waiting nodeId)
    (hback : ll.backPointerOk nodeId.toUInt32 = true) :
    ∃ ll', takeReply ll nodeId =
        some (((waiting.find? (·.1 == nodeId)).bind Prod.snd).toList, ll') ∧
      Represents ll' (waiting.eraseP (·.1 == nodeId)) := by
  obtain ⟨es, hlinked, hmap⟩ := h
  have hne : ∀ ps : List (UInt64 × Option C), (∀ p ∈ ps, p.1.toUInt32 ≠ nodeId.toUInt32) →
      ∀ p ∈ ps, ¬(p.1 == nodeId) = true := by
    intro ps hps p hp heq
    exact hps p hp (congrArg UInt64.toUInt32 (beq_iff_eq.mp heq))
  rcases split_at_id es nodeId.toUInt32 with hnone | ⟨pre, e, post, rfl, hpre, he⟩
  · have hwaiting := hne waiting (ids_ne hmap hnone)
    have hfind : waiting.find? (·.1 == nodeId) = none := List.find?_eq_none.mpr hwaiting
    refine ⟨ll, ?_, ?_⟩
    · rw [takeReply, getItem_absent hlinked.walkable hnone, hfind]
      simp [remove_absent hlinked.walkable hnone]
    · rw [List.eraseP_of_forall_not hwaiting]
      exact ⟨es, hlinked, hmap⟩
  · obtain ⟨ps, p, qs, rfl, hps, hp, hqs⟩ := Represents.split hmap
    have hlow : ∀ q ∈ ps, q.1.toUInt32 ≠ nodeId.toUInt32 := ids_ne hps hpre
    have hid : p.1.toUInt32 = nodeId.toUInt32 := (congrArg Prod.fst hp).symm.trans he
    have hself : p.1 = nodeId := by
      refine hfirst p ?_
      rw [List.find?_append, List.find?_eq_none.mpr (fun q hq => by simpa using hlow q hq)]
      simp [hid]
    have hfind : (ps ++ p :: qs).find? (·.1 == nodeId) = some p := by
      rw [List.find?_append, List.find?_eq_none.mpr (hne ps hlow)]
      simp [hself]
    have herase : (ps ++ p :: qs).eraseP (·.1 == nodeId) = ps ++ qs := by
      rw [List.eraseP_append_right _ (hne ps hlow), List.eraseP_cons_of_pos (by simp [hself])]
    obtain ⟨ll', hremove, -, hrest⟩ := remove_found hlinked hpre he
    obtain ⟨es', hlinked', hview⟩ := hrest hback
    refine ⟨ll', ?_, es', hlinked', ?_⟩
    · rw [takeReply, getItem_found hlinked.walkable hpre he, hfind]
      have hdata : e.2.data = p.2 := congrArg Prod.snd hp
      simp [hremove, hdata]
    · rw [map_payload_of_view hview, herase, List.map_append, List.map_append, hps, hqs]

end List

/-! ## Counting -/

namespace Asked
variable {C : Type} [DecidableEq C]

/-- Every request with a callback waits, or its callback has been invoked with a reply of its
node. -/
def Counted (a : Asked C) : Prop := ∀ m cb nodeId,
  a.calls.count (m, cb, nodeId) + (a.waiting m).count (nodeId, some cb) =
    a.requested.count (m, nodeId, some cb)

variable {a : Asked C}

theorem counted_init : Counted (init : Asked C) := by
  intro m cb nodeId
  simp [init]

theorem Counted.request (h : a.Counted) (m : RequestModule) (targetNodeId : UInt64) (cb : Option C)
    (ok : Bool) :
    (a.request m targetNodeId cb ok).Counted := by
  unfold Asked.request
  split
  · intro m' cb' nodeId
    have hbefore := h m' cb' nodeId
    simp only [List.count_append]
    by_cases hm : m' = m
    · subst hm
      rw [setWaiting_same, List.count_append]
      have hnew : List.count (nodeId, some cb') [(targetNodeId, cb)] =
          List.count (m', nodeId, some cb') [(m', targetNodeId, cb)] := by
        simp [List.count_cons]
      change a.calls.count _ + _ = _
      omega
    · have hnew : List.count (m', nodeId, some cb') [(m, targetNodeId, cb)] = 0 := by
        rw [List.count_eq_zero, List.mem_singleton, Prod.mk.injEq]
        exact fun heq => hm heq.1
      rw [setWaiting_other a hm, hnew]
      exact hbefore
  · exact h

/-- The request that a reply answers leaves, and its callback is invoked. -/
theorem count_answered (waiting : List (UInt64 × Option C)) (nodeId x : UInt64) (cb : C) :
    List.count (cb, x) (((waiting.find? (·.1 == nodeId)).bind Prod.snd).toList.map (·, nodeId)) +
        (waiting.eraseP (·.1 == nodeId)).count (x, some cb) = waiting.count (x, some cb) := by
  induction waiting with
  | nil => simp
  | cons p waiting ih =>
    by_cases hp : p.1 = nodeId
    · obtain ⟨target, cb'⟩ := p
      obtain rfl : target = nodeId := hp
      simp only [List.find?_cons_of_pos (p := (fun q : UInt64 × Option C => q.1 == target))
        (a := (target, cb'))
        (by simp), List.eraseP_cons_of_pos (p := (fun q : UInt64 × Option C => q.1 == target))
        (a := (target, cb')) (by simp), Option.bind_some, List.count_cons]
      cases cb' with
      | none => simp
      | some cb' =>
        have hsame : ((cb', target) == (cb, x)) = ((target, some cb') == (x, some cb)) := by
          rw [Bool.eq_iff_iff]
          simp [and_comm]
        simp [List.count_cons, hsame, Nat.add_comm]
    · rw [List.find?_cons_of_neg (by simpa using hp), List.eraseP_cons_of_neg (by simpa using hp),
        List.count_cons, List.count_cons, ← ih]
      omega

theorem Counted.reply (h : a.Counted) (m : RequestModule) (nodeId : UInt64) :
    (a.reply m nodeId).Counted := by
  intro m' cb x
  have hbefore := h m' cb x
  have hanswered := count_answered (a.waiting m) nodeId x cb
  simp only [Asked.reply, List.count_append]
  by_cases hm : m' = m
  · subst hm
    rw [setWaiting_same]
    have hcalls : ∀ cbs : List C, List.count (m', cb, x) (cbs.map (m', ·, nodeId)) =
        List.count (cb, x) (cbs.map (·, nodeId)) := by
      intro cbs
      induction cbs with
      | nil => rfl
      | cons c cbs ih => simp [List.count_cons, ih]
    rw [hcalls]
    change _ = a.requested.count _
    omega
  · rw [setWaiting_other a hm]
    have hcalls : ∀ cbs : List C, List.count (m', cb, x) (cbs.map (m, ·, nodeId)) = 0 := by
      intro cbs
      rw [List.count_eq_zero, List.mem_map]
      rintro ⟨c, -, heq⟩
      exact hm (Prod.mk.inj heq).1.symm
    rw [hcalls]
    exact hbefore

theorem Counted.exec (h : a.Counted) (action : RoutingAction C) : (a.exec action).Counted := by
  cases action with
  | requestInfo targetNodeId cb item tx => exact h.request .info targetNodeId cb _
  | infoReply nodeId => exact h.reply .info nodeId
  | sendRequest targetNodeId cb item tx => exact h.request .resource targetNodeId cb _
  | resourceReply nodeId srcNodeId =>
    simp only [Asked.exec]
    split
    · exact h.reply .resource nodeId
    · exact h

end Asked

/-! ## Runs -/

/-- The code beside what it is for; no code once it has touched what it has freed. -/
structure RoutingRun (C : Type) where
  code : Option (Routing C)
  asked : Asked C

namespace RoutingRun
variable {C : Type}

def init : RoutingRun C := ⟨some {}, .init⟩

def step (r : RoutingRun C) (action : RoutingAction C) : RoutingRun C :=
  ⟨r.code.bind (·.exec action), r.asked.exec action⟩

/-- The 32 bits tell the nodes apart: a reply meets first a request to its own node, if it meets
one, and no request waits with the 32 bits of one that cannot be sent. Besides, items are allocated
in unused memory, and no item that was last but not first leaves with a stale back pointer. -/
def ToldApart (r : RoutingRun C) (action : RoutingAction C) : Prop :=
  ∀ s, r.code = some s → match action with
    | .requestInfo targetNodeId _ item tx => (∀ node ∈ item, node ∉ s.info.heap) ∧
      (item.isSome → tx ≠ .ok → ∀ p ∈ r.asked.waiting .info, p.1.toUInt32 ≠ targetNodeId.toUInt32)
    | .infoReply nodeId =>
      Unmistaken (r.asked.waiting .info) nodeId ∧ s.info.backPointerOk nodeId.toUInt32 = true
    | .sendRequest _ _ item _ => ∀ node ∈ item, node ∉ s.resource.heap
    | .resourceReply nodeId srcNodeId => nodeId = srcNodeId →
      Unmistaken (r.asked.waiting .resource) nodeId ∧
      s.resource.backPointerOk nodeId.toUInt32 = true

/-- The lists hold the requests that wait, and the callbacks invoked are the right ones. -/
structure Inv (r : RoutingRun C) : Prop where
  represents : ∃ s, r.code = some s ∧ s.calls = r.asked.calls ∧
    ∀ m, Represents (s.list m) (r.asked.waiting m)

variable {r : RoutingRun C} {action : RoutingAction C}

theorem inv_init : (init : RoutingRun C).Inv := by
  refine ⟨{}, rfl, rfl, fun m => ?_⟩
  cases m <;> exact represents_empty

/-- A module's list is changed, and with it what waits. -/
theorem represents_info {s : Routing C} {a : Asked C} {info : LL (Option C)}
    {waiting : List (UInt64 × Option C)} (h : ∀ m, Represents (s.list m) (a.waiting m))
    (hinfo : Represents info waiting) (calls : List (RequestModule × C × UInt64))
    (m : RequestModule) :
    Represents (Routing.list { s with info := info, calls := calls } m)
      ((a.setWaiting .info waiting).waiting m) := by
  cases m with
  | info => exact hinfo
  | resource => exact h .resource

theorem represents_resource {s : Routing C} {a : Asked C} {resource : LL (Option C)}
    {waiting : List (UInt64 × Option C)} (h : ∀ m, Represents (s.list m) (a.waiting m))
    (hresource : Represents resource waiting) (calls : List (RequestModule × C × UInt64))
    (m : RequestModule) :
    Represents (Routing.list { s with resource := resource, calls := calls } m)
      ((a.setWaiting .resource waiting).waiting m) := by
  cases m with
  | info => exact h .info
  | resource => exact hresource

theorem Inv.requestInfo (h : r.Inv) {targetNodeId : UInt64} {cb : Option C} {item : Option Nat}
    {tx : BmErr}
    (haction : r.ToldApart (.requestInfo targetNodeId cb item tx)) :
    (r.step (.requestInfo targetNodeId cb item tx)).Inv := by
  obtain ⟨s, hcode, hcalls, hlists⟩ := h.represents
  obtain ⟨hfresh, hother⟩ := haction s hcode
  have hinfo : Represents s.info (r.asked.waiting .info) := hlists .info
  cases item with
  | none => exact ⟨s, by simp [step, hcode, Routing.exec, Routing.bcmpRequestInfo], hcalls, hlists⟩
  | some node =>
    have hnode : node ∉ s.info.heap := hfresh node rfl
    by_cases htx : tx = .ok
    · subst htx
      obtain ⟨info, hadd, hrep⟩ := hinfo.add hnode targetNodeId cb
      refine ⟨{ s with info := info }, ?_, hcalls, represents_info hlists hrep s.calls⟩
      simp [step, hcode, Routing.exec, Routing.bcmpRequestInfo, hadd]
    · -- the new item is taken out again
      obtain ⟨info, info', hadd, hremove, hrep⟩ := hinfo.undo hnode cb (hother rfl htx)
      have hasked : r.asked.exec (.requestInfo targetNodeId cb (some node) tx) = r.asked := by
        simp [Asked.exec, Asked.request, htx]
      rw [step, hasked]
      refine ⟨{ s with info := info' }, ?_, hcalls, fun m => ?_⟩
      · simp [hcode, Routing.exec, Routing.bcmpRequestInfo, hadd, htx, hremove]
      · cases m with
        | info => exact hrep
        | resource => exact hlists .resource

theorem Inv.infoReply (h : r.Inv) {nodeId : UInt64} (haction : r.ToldApart (.infoReply nodeId)) :
    (r.step (.infoReply nodeId)).Inv := by
  obtain ⟨s, hcode, hcalls, hlists⟩ := h.represents
  obtain ⟨hfirst, hback⟩ := haction s hcode
  have hinfo : Represents s.info (r.asked.waiting .info) := hlists .info
  obtain ⟨info, htake, hrep⟩ := hinfo.reply hfirst hback
  let calls := s.calls ++
    ((((r.asked.waiting .info).find? (·.1 == nodeId)).bind Prod.snd).toList.map (.info, ·, nodeId))
  refine ⟨{ s with info := info, calls := calls }, ?_, ?_, represents_info hlists hrep calls⟩
  · simp only [step, hcode, Routing.exec, Routing.bcmpProcessInfoReply, htake, Option.bind_eq_bind,
      Option.bind_some, calls]
  · simp only [step, Asked.exec, Asked.reply, hcalls, calls]

theorem Inv.sendRequest (h : r.Inv) {targetNodeId : UInt64} {cb : Option C} {item : Option Nat}
    {tx : BmErr}
    (haction : r.ToldApart (.sendRequest targetNodeId cb item tx)) :
    (r.step (.sendRequest targetNodeId cb item tx)).Inv := by
  obtain ⟨s, hcode, hcalls, hlists⟩ := h.represents
  have hfresh := haction s hcode
  have hresource : Represents s.resource (r.asked.waiting .resource) := hlists .resource
  by_cases htx : tx = .ok
  · subst htx
    cases item with
    | none =>
      exact ⟨s, by simp [step, hcode, Routing.exec, Routing.bcmpResourceDiscoverySendRequest],
        hcalls, hlists⟩
    | some node =>
      obtain ⟨resource, hadd, hrep⟩ := hresource.add (hfresh node rfl) targetNodeId cb
      refine ⟨{ s with resource := resource }, ?_, hcalls, represents_resource hlists hrep s.calls⟩
      simp [step, hcode, Routing.exec, Routing.bcmpResourceDiscoverySendRequest, hadd]
  · have hasked : r.asked.exec (.sendRequest targetNodeId cb item tx) = r.asked := by
      simp [Asked.exec, Asked.request, htx]
    rw [step, hasked]
    refine ⟨s, ?_, hcalls, hlists⟩
    simp [hcode, Routing.exec, Routing.bcmpResourceDiscoverySendRequest, htx]

theorem Inv.resourceReply (h : r.Inv) {nodeId srcNodeId : UInt64}
    (haction : r.ToldApart (.resourceReply nodeId srcNodeId)) :
    (r.step (.resourceReply nodeId srcNodeId)).Inv := by
  obtain ⟨s, hcode, hcalls, hlists⟩ := h.represents
  have hresource : Represents s.resource (r.asked.waiting .resource) := hlists .resource
  by_cases hsrc : nodeId = srcNodeId
  · subst hsrc
    obtain ⟨hfirst, hback⟩ := haction s hcode rfl
    obtain ⟨resource, htake, hrep⟩ := hresource.reply hfirst hback
    let calls := s.calls ++
      ((((r.asked.waiting .resource).find? (·.1 == nodeId)).bind Prod.snd).toList.map
      (.resource, ·, nodeId))
    have hasked : r.asked.exec (.resourceReply nodeId nodeId) = r.asked.reply .resource nodeId := by
      simp [Asked.exec]
    rw [step, hasked]
    refine ⟨{ s with resource := resource, calls := calls }, ?_, ?_,
      represents_resource hlists hrep calls⟩
    · simp only [hcode, Routing.exec, Routing.bcmpProcessResourceDiscoveryReply, htake,
        Option.bind_eq_bind,
        Option.bind_some, if_true, calls]
    · simp only [Asked.reply, hcalls, calls]
  · have hasked : r.asked.exec (.resourceReply nodeId srcNodeId) = r.asked := by
      simp [Asked.exec, hsrc]
    rw [step, hasked]
    refine ⟨s, ?_, hcalls, hlists⟩
    simp [hcode, Routing.exec, Routing.bcmpProcessResourceDiscoveryReply, hsrc]

theorem Inv.step (h : r.Inv) (haction : r.ToldApart action) : (r.step action).Inv := by
  cases action with
  | requestInfo targetNodeId cb item tx => exact h.requestInfo haction
  | infoReply nodeId => exact h.infoReply haction
  | sendRequest targetNodeId cb item tx => exact h.sendRequest haction
  | resourceReply nodeId srcNodeId => exact h.resourceReply haction

variable [DecidableEq C]

theorem counted (actions : List (RoutingAction C)) :
    (actions.foldl RoutingRun.step init).asked.Counted := by
  induction actions using List.reverseRecOn with
  | nil => exact Asked.counted_init
  | append_singleton actions action ih =>
    rw [List.foldl_append]
    exact ih.exec action

/-- A reply of a node to a module. -/
def replyTo : RequestModule → UInt64 → RoutingAction C
  | .info, nodeId => .infoReply nodeId
  | .resource, nodeId => .resourceReply nodeId nodeId

/-- In every run in which the 32 bits tell the nodes apart, every callback is invoked with replies
of the node it was registered for, as many times as requests to that node have been answered: the
others still wait. A reply of a node that nobody waits for removes nothing. -/
theorem replies_routed (actions : List (RoutingAction C))
    (h : Along RoutingRun.step ToldApart init actions) :
    ∃ s, (actions.foldl RoutingRun.step init).code = some s ∧
      (∀ m cb nodeId, (m, cb, nodeId) ∈ s.calls →
        (m, nodeId, some cb) ∈ (actions.foldl RoutingRun.step init).asked.requested) ∧
      (∀ m cb nodeId, s.calls.count (m, cb, nodeId) +
          ((actions.foldl RoutingRun.step init).asked.waiting m).count (nodeId, some cb) =
        (actions.foldl RoutingRun.step init).asked.requested.count (m, nodeId, some cb)) ∧
      (∀ m, (s.list m).entries.map payload =
        ((actions.foldl RoutingRun.step init).asked.waiting m).map truncated) ∧
      ∀ m nodeId, (∀ p ∈ (actions.foldl RoutingRun.step init).asked.waiting m, p.1 ≠ nodeId) →
        (actions.foldl RoutingRun.step init).ToldApart (replyTo m nodeId) →
        ∃ s', s.exec (replyTo m nodeId) = some s' ∧
          (s'.list m).entries.map payload = (s.list m).entries.map payload := by
  have hinv : (actions.foldl RoutingRun.step init).Inv :=
    foldl_invariant (fun _ _ hinv haction => hinv.step haction) inv_init h
  have hcounted := counted actions
  generalize actions.foldl RoutingRun.step init = r at hinv hcounted ⊢
  obtain ⟨s, hcode, hcalls, hlists⟩ := hinv.represents
  refine ⟨s, hcode, fun m cb nodeId hmem => ?_, fun m cb nodeId => hcalls ▸ hcounted m cb nodeId,
    fun m => (hlists m).entries, fun m nodeId hnobody hapart => ?_⟩
  · have hpos : 0 < s.calls.count (m, cb, nodeId) := List.count_pos_iff.mpr hmem
    have hcount := hcounted m cb nodeId
    rw [← hcalls] at hcount
    exact List.count_pos_iff.mp (by omega)
  · obtain ⟨s', hcode', -, hlists'⟩ := (hinv.step hapart).represents
    have hexec : s.exec (replyTo m nodeId) = some s' := by
      simpa [RoutingRun.step, hcode] using hcode'
    refine ⟨s', hexec, ?_⟩
    rw [(hlists' m).entries, (hlists m).entries]
    have hsame : (r.step (replyTo m nodeId)).asked.waiting m =
        (r.asked.waiting m).eraseP (·.1 == nodeId) := by
      cases m <;> simp [RoutingRun.step, replyTo, Asked.exec, Asked.reply, Asked.setWaiting]
    rw [hsame, List.eraseP_of_forall_not fun p hp => by simpa using hnobody p hp]

/-- A request that its node answers. -/
def answeredRequest : List (RoutingAction Nat) :=
  [.requestInfo 0x100000007 (some 1) (some 0) .ok, .infoReply 0x100000007]

theorem replies_routed_answered : ∃ s, (answeredRequest.foldl step init).code = some s ∧
    ∀ m cb nodeId, (m, cb, nodeId) ∈ s.calls →
      (m, nodeId, some cb) ∈ (answeredRequest.foldl step init).asked.requested := by
  obtain ⟨s, hcode, hcalls, -⟩ := replies_routed answeredRequest (by
    refine ⟨?_, ?_, trivial⟩
    · intro s hs
      obtain rfl : s = {} := (Option.some.inj hs).symm
      exact ⟨fun _ _ => AList.notMem_empty _, fun _ htx => absurd rfl htx⟩
    · intro s hs
      refine ⟨fun p hp => ?_, ?_⟩
      · obtain rfl : p = (0x100000007, some 1) := by
          simpa [RoutingRun.step, Asked.exec, Asked.request, Asked.setWaiting, init, Asked.init,
            eq_comm] using hp
        rfl
      · have hback : (step init (.requestInfo 0x100000007 (some 1) (some 0) .ok)).code.all
            (fun s => s.info.backPointerOk (0x100000007 : UInt64).toUInt32) = true := by
            decide +kernel
        simpa [hs] using hback)
  exact ⟨s, hcode, hcalls⟩

/-- A request to one node, and a reply of another with the same 32 bits. -/
def twins : List (RoutingAction Nat) :=
  [.requestInfo 0x100000007 (some 1) (some 0) .ok, .infoReply 0x200000007]

/-- The callback is invoked with the reply of a node that nobody asked, and the request does not
wait any longer. -/
theorem twins_confused : ∃ s, (twins.foldl step init).code = some s ∧
    s.calls = [(.info, 1, 0x200000007)] ∧ s.info.entries.map payload = [] ∧
    (twins.foldl step init).asked.requested = [(.info, 0x100000007, some 1)] := by
  refine ⟨(twins.foldl step init).code.get (by decide +kernel), by simp, ?_, ?_, ?_⟩
  · decide +kernel
  · decide +kernel
  · decide +kernel

end RoutingRun

end BmCore.Bcmp
