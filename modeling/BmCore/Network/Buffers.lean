import BmCore.Library.RefCount

/-!
# Buffers of the Linux stack

`network/bm_linux.c` with its callers in `l2.c`, `bcmp.c` and `middleware.c`: who holds a
`LinuxBuf`, and who releases it. The bytes of the frames are left out. A call is cut where another
task may run between the transmission of its buffer and the release of its own reference, so the
buffers of calls that have not returned are holders, as are the queues and the applications.

`bm_l2_tx` releases the reference of the event when the event queue is full, and so do
`bm_ip_tx_perform` and `bm_udp_tx_perform` when they get the error. The buffer is freed while its
caller still holds it.
-/
namespace BmCore.Network
open Library

/-- An event of the L2 task with its buffer. -/
inductive BufEvent where
  | tx (buf : Nat)
  | rx (buf : Nat)
  deriving DecidableEq

def BufEvent.buf : BufEvent → Nat
  | tx buf => buf
  | rx buf => buf

/-- The buffers, the queues of the L2, BCMP and middleware tasks, the buffers of calls that have not
returned, and those of applications. -/
structure Stack where
  cells : Cells
  evtQueue : List BufEvent
  bcmpQueue : List Nat
  netQueue : List Nat
  running : List Nat
  held : List Nat

/-- What `bm_l2_submit` makes of a frame. -/
inductive SubmitCase where
  /-- The frame is not accepted. -/
  | bad
  /-- A BCMP message, and if it can be queued. -/
  | bcmp (queued : Bool)
  /-- A datagram: if there is memory for its payload, a listener, and room in the queue. -/
  | udp (alloc listener queued : Bool)

/-- The part of a call up to the release of its own reference, and the step that releases it. The
flags tell which allocations and queue operations succeed. -/
inductive BufOp where
  | bcmpTx (alloc serialized queued : Bool)
  /-- A round of the loop of `bcmp_ll_forward`. -/
  | bcmpLlForward (alloc queued : Bool)
  | bmUdpTxPerform (buf : Nat) (alloc queued : Bool)
  | bmMiddlewareNetTx (buf : Nat) (found fits alloc queued : Bool)
  /-- The end of one of the calls above: `bm_ip_tx_cleanup` or the last `bm_l2_free`. -/
  | cleanup (buf : Nat)
  | bmL2Rx (alloc queued : Bool)
  /-- The L2 task takes the next event; the flags are those of a received frame. -/
  | bmL2Thread (forward fwdAlloc fwdQueued shouldSubmit : Bool) (submit : SubmitCase)
  | bcmpThread
  | middlewareNetTask
  | bmUdpNew (alloc : Bool)
  | bmUdpCleanup (buf : Nat)

namespace Stack
variable (s : Stack) (buf : Nat)

/-- Everybody who holds a buffer, once for each reference. -/
def holders : List Nat := s.evtQueue.map (·.buf) ++ s.bcmpQueue ++ s.netQueue ++ s.running ++ s.held

/-- `bm_l2_get_payload`, with an access to the bytes. -/
def touch : Stack := { s with cells := s.cells.touch buf }

/-- `bm_l2_tx_prep` -/
def bmL2TxPrep : Stack := { s with cells := s.cells.retain buf }

/-- `bm_l2_free` -/
def bmL2Free : Stack := { s with cells := s.cells.release buf }

/-- `bm_l2_new` in a call that has not returned. -/
def bmL2New : Stack := { s with cells := s.cells.alloc, running := s.cells.count :: s.running }

/-- `bm_l2_tx` -/
def bmL2Tx (queued : Bool) : Stack × Bool :=
  if queued then ({ s with evtQueue := s.evtQueue ++ [.tx buf] }, true)
  else (s.bmL2Free buf, false)

/-- `bm_l2_link_output` -/
def bmL2LinkOutput (queued : Bool) : Stack × Bool :=
  ((s.touch buf).bmL2TxPrep buf).bmL2Tx buf queued

/-- `bm_ip_tx_perform` and the end of `bm_udp_tx_perform`: a buffer that could not be queued is
freed. -/
def bmIpTxPerform (queued : Bool) : Stack :=
  let (s, ok) := (s.touch buf).bmL2LinkOutput buf queued
  if ok then s else s.bmL2Free buf

/-- `bcmp_tx` up to `bm_ip_tx_cleanup`. -/
def bcmpTx (alloc serialized queued : Bool) : Stack :=
  if !alloc then s
  else
    let s' := s.bmL2New.touch s.cells.count
    if serialized then s'.bmIpTxPerform s.cells.count queued else s'

/-- `bm_udp_tx_perform` up to its last `bm_l2_free`. -/
def bmUdpTxPerform (alloc queued : Bool) : Stack :=
  if !alloc then s else (s.bmL2New.touch buf).bmIpTxPerform s.cells.count queued

/-- `bm_middleware_rx` with the payload of a datagram, which is not in `running` any more. -/
def bmMiddlewareRx (queued : Bool) : Stack :=
  if queued then { s with netQueue := s.netQueue ++ [buf] } else s.bmL2Free buf

/-- `bm_l2_submit` -/
def bmL2Submit : SubmitCase → Stack × Bool
  | .bad => (s.touch buf, false)
  | .bcmp queued =>
    if queued then ({ s.touch buf with bcmpQueue := s.bcmpQueue ++ [buf] }, true)
    else (s.touch buf, false)
  | .udp alloc listener queued =>
    let s := s.touch buf
    if !alloc then (s, false)
    else
      let udpBuf := s.cells.count
      let s := { s with cells := (s.cells.alloc.touch buf).touch udpBuf }
      let s := if listener then s.bmMiddlewareRx udpBuf queued else s.bmL2Free udpBuf
      (s.bmL2Free buf, true)

/-- The part of `bm_l2_process_rx_evt` that forwards a copy. -/
def forwardCopy (fwdAlloc fwdQueued : Bool) : Stack :=
  if !fwdAlloc then s
  else
    let fwdBuf := s.cells.count
    let s := { s with cells := (s.cells.alloc.touch buf).touch fwdBuf }
    (s.bmL2Tx fwdBuf fwdQueued).1

/-- `bm_l2_process_rx_evt` -/
def bmL2ProcessRxEvt (forward fwdAlloc fwdQueued shouldSubmit : Bool) (submit : SubmitCase) :
    Stack :=
  let s := s.touch buf
  let s := if forward then s.forwardCopy buf fwdAlloc fwdQueued else s
  if shouldSubmit then
    let (s, ok) := s.bmL2Submit buf submit
    if ok then s else s.bmL2Free buf
  else s.bmL2Free buf

/-- `bm_l2_process_tx_evt` -/
def bmL2ProcessTxEvt : Stack := (s.touch buf).bmL2Free buf

end Stack

def bufStep (s : Stack) : BufOp → Stack
  | .bcmpTx alloc serialized queued => s.bcmpTx alloc serialized queued
  | .bcmpLlForward alloc queued => s.bcmpTx alloc true queued
  | .bmUdpTxPerform buf alloc queued =>
    if buf ∈ s.held then s.bmUdpTxPerform buf alloc queued else s
  | .bmMiddlewareNetTx buf found fits alloc queued =>
    if buf ∈ s.held ∧ found ∧ fits then s.bmUdpTxPerform buf alloc queued else s
  | .cleanup buf =>
    if buf ∈ s.running then { s.bmL2Free buf with running := s.running.erase buf } else s
  | .bmL2Rx alloc queued =>
    if !alloc then s
    else
      let s' := { s with cells := s.cells.alloc.touch s.cells.count }
      if queued then { s' with evtQueue := s.evtQueue ++ [.rx s.cells.count] }
      else s'.bmL2Free s.cells.count
  | .bmL2Thread forward fwdAlloc fwdQueued shouldSubmit submit =>
    match s.evtQueue with
    | [] => s
    | .tx buf :: evtQueue => { s with evtQueue }.bmL2ProcessTxEvt buf
    | .rx buf :: evtQueue =>
      { s with evtQueue }.bmL2ProcessRxEvt buf forward fwdAlloc fwdQueued shouldSubmit submit
  | .bcmpThread =>
    match s.bcmpQueue with
    | [] => s
    | buf :: bcmpQueue => ({ s with bcmpQueue }.touch buf).bmL2Free buf
  | .middlewareNetTask =>
    match s.netQueue with
    | [] => s
    | buf :: netQueue => ({ s with netQueue }.touch buf).bmL2Free buf
  | .bmUdpNew alloc =>
    if !alloc then s else { s with cells := s.cells.alloc, held := s.cells.count :: s.held }
  | .bmUdpCleanup buf =>
    if buf ∈ s.held then { s.bmL2Free buf with held := s.held.erase buf } else s

/-- The event queue has room for a transmission of the node. -/
def HasRoom : BufOp → Prop
  | .bcmpTx alloc serialized queued => alloc = true → serialized = true → queued = true
  | .bcmpLlForward alloc queued => alloc = true → queued = true
  | .bmUdpTxPerform _ alloc queued => alloc = true → queued = true
  | .bmMiddlewareNetTx _ found fits alloc queued =>
    found = true → fits = true → alloc = true → queued = true
  | _ => True

/-- The references are those of the stack and of the call that is running. -/
def Stack.Owned (s : Stack) (mine : List Nat) : Prop := Balanced s.cells (mine ++ s.holders)

namespace Stack.Owned
variable {s : Stack} {mine : List Nat} {buf : Nat}

theorem touch (h : s.Owned mine) (hbuf : buf ∈ mine ++ s.holders) : s.touch buf = s := by
  have hcells : s.cells.touch buf = s.cells := Balanced.touch h hbuf
  rw [Stack.touch, hcells]

theorem free (h : s.Owned (buf :: mine)) : (s.bmL2Free buf).Owned mine := by
  have hrelease := Balanced.release h (List.mem_cons_self : buf ∈ buf :: (mine ++ s.holders))
  rwa [List.cons_append, List.erase_cons_head] at hrelease

theorem prep (h : s.Owned mine) (hbuf : buf ∈ mine ++ s.holders) :
    (s.bmL2TxPrep buf).Owned (buf :: mine) := Balanced.retain h hbuf

theorem alloc (h : s.Owned mine) : { s with cells := s.cells.alloc }.Owned
    (s.cells.count :: mine) :=
  Balanced.alloc h

/-- A reference changes hands. -/
theorem pass (h : s.Owned mine) {s' : Stack} {mine' : List Nat} (hcells : s'.cells = s.cells)
    (hcount : ∀ b, (mine ++ s.holders).count b = (mine' ++ s'.holders).count b) :
    s'.Owned mine' := by
  rw [Owned, hcells]
  exact Balanced.perm h (List.perm_iff_count.mpr hcount)

theorem new (h : s.Owned mine) : s.bmL2New.Owned mine := by
  refine h.alloc.pass rfl fun b => ?_
  simp only [bmL2New, holders, List.count_append, List.count_cons]
  omega

/-- `bm_l2_tx` takes the reference, whether or not there is room in the queue. -/
theorem bmL2Tx (h : s.Owned (buf :: mine)) (queued : Bool) :
    (s.bmL2Tx buf queued).1.Owned mine := by
  cases queued with
  | false => exact h.free
  | true =>
    refine h.pass rfl fun b => ?_
    simp only [Stack.bmL2Tx, if_true, holders, List.map_append, List.map_cons, List.map_nil,
      BufEvent.buf, List.count_append, List.count_cons, List.count_nil]
    omega

theorem bmIpTxPerform (h : s.Owned mine) (hbuf : buf ∈ mine ++ s.holders) :
    (s.bmIpTxPerform buf true).Owned mine := by
  simp only [Stack.bmIpTxPerform, Stack.bmL2LinkOutput, h.touch hbuf]
  exact (h.prep hbuf).bmL2Tx true

theorem running (buf_mem : buf ∈ s.running) : buf ∈ mine ++ s.holders := by
  simp [holders, buf_mem]

theorem bcmpTx (h : s.Owned []) {alloc serialized queued : Bool}
    (hroom : alloc = true → serialized = true → queued = true) :
    (s.bcmpTx alloc serialized queued).Owned [] := by
  cases alloc with
  | false => exact h
  | true =>
    have hmem : s.cells.count ∈ [] ++ s.bmL2New.holders := running (List.mem_cons_self)
    simp only [Stack.bcmpTx, Bool.not_true, Bool.false_eq_true, if_false, h.new.touch hmem]
    cases serialized with
    | false => exact h.new
    | true =>
      rw [hroom rfl rfl]
      exact h.new.bmIpTxPerform hmem

theorem bmUdpTxPerform (h : s.Owned []) (hbuf : buf ∈ s.held) {alloc queued : Bool}
    (hroom : alloc = true → queued = true) : (s.bmUdpTxPerform buf alloc queued).Owned [] := by
  cases alloc with
  | false => exact h
  | true =>
    have hheld : buf ∈ [] ++ s.bmL2New.holders := by simp [bmL2New, holders, hbuf]
    simp only [Stack.bmUdpTxPerform, Bool.not_true, Bool.false_eq_true, if_false, h.new.touch hheld,
      hroom rfl]
    exact h.new.bmIpTxPerform (running List.mem_cons_self)

/-- A received frame that is forwarded. -/
theorem forwardCopy (h : s.Owned (buf :: mine)) (fwdAlloc fwdQueued : Bool) :
    (s.forwardCopy buf fwdAlloc fwdQueued).Owned (buf :: mine) := by
  cases fwdAlloc with
  | false => exact h
  | true =>
    have halloc := h.alloc
    have hbuf : s.cells.alloc.touch buf = s.cells.alloc := Balanced.touch halloc (by simp)
    have hnew : s.cells.alloc.touch s.cells.count = s.cells.alloc := Balanced.touch halloc (by simp)
    simp only [Stack.forwardCopy, Bool.not_true, Bool.false_eq_true, if_false, hbuf, hnew]
    exact halloc.bmL2Tx fwdQueued

theorem bmMiddlewareRx (h : s.Owned (buf :: mine)) (queued : Bool) :
    (s.bmMiddlewareRx buf queued).Owned mine := by
  cases queued with
  | false => exact h.free
  | true =>
    refine h.pass rfl fun b => ?_
    simp only [Stack.bmMiddlewareRx, if_true, holders, List.count_append, List.count_cons,
      List.count_nil]
    omega

/-- `bm_l2_submit` takes the frame when it succeeds. -/
theorem bmL2Submit (h : s.Owned (buf :: mine)) (submit : SubmitCase) :
    (s.bmL2Submit buf submit).1.Owned
      (if (s.bmL2Submit buf submit).2 then mine else buf :: mine) := by
  have htouch : s.touch buf = s := h.touch (by simp)
  cases submit with
  | bad => simpa [Stack.bmL2Submit, htouch] using h
  | bcmp queued =>
    cases queued with
    | false => simpa [Stack.bmL2Submit, htouch] using h
    | true =>
      refine h.pass (by simp [Stack.bmL2Submit, htouch]) fun b => ?_
      simp only [Stack.bmL2Submit, htouch, if_true, holders, List.count_append, List.count_cons,
        List.count_nil]
      omega
  | udp alloc listener queued =>
    cases alloc with
    | false => simpa [Stack.bmL2Submit, htouch] using h
    | true =>
      have halloc := h.alloc
      have hbuf : s.cells.alloc.touch buf = s.cells.alloc := Balanced.touch halloc (by simp)
      have hnew : s.cells.alloc.touch s.cells.count = s.cells.alloc :=
        Balanced.touch halloc (by simp)
      simp only [Stack.bmL2Submit, Bool.not_true, Bool.false_eq_true, if_false, if_true,
        htouch, hbuf,
        hnew]
      cases listener with
      | false => exact halloc.free.free
      | true => exact (halloc.bmMiddlewareRx queued).free

theorem bmL2ProcessRxEvt (h : s.Owned [buf]) (forward fwdAlloc fwdQueued shouldSubmit : Bool)
    (submit : SubmitCase) :
    (s.bmL2ProcessRxEvt buf forward fwdAlloc fwdQueued shouldSubmit submit).Owned [] := by
  have hforward : (if forward then s.forwardCopy buf fwdAlloc fwdQueued else s).Owned [buf] := by
    split
    · exact h.forwardCopy fwdAlloc fwdQueued
    · exact h
  have htouch : s.touch buf = s := h.touch (by simp)
  simp only [Stack.bmL2ProcessRxEvt, htouch]
  generalize (if forward then s.forwardCopy buf fwdAlloc fwdQueued else s) = s' at hforward ⊢
  cases shouldSubmit with
  | false => exact hforward.free
  | true =>
    have hsubmit := hforward.bmL2Submit submit
    simp only [if_true]
    split
    · rename_i hok
      rwa [if_pos hok] at hsubmit
    · rename_i hok
      rw [if_neg hok] at hsubmit
      exact hsubmit.free

/-- A task takes the buffer of its item. -/
theorem takeFree (h : s.Owned [buf]) : ((s.touch buf).bmL2Free buf).Owned [] := by
  rw [h.touch (by simp)]
  exact h.free

theorem bmL2Rx (h : s.Owned []) (alloc queued : Bool) :
    (bufStep s (.bmL2Rx alloc queued)).Owned [] := by
  cases alloc with
  | false => exact h
  | true =>
    have halloc := h.alloc
    have hnew : s.cells.alloc.touch s.cells.count = s.cells.alloc := Balanced.touch halloc (by simp)
    simp only [bufStep, Bool.not_true, Bool.false_eq_true, if_false, hnew]
    cases queued with
    | false => exact halloc.free
    | true =>
      refine halloc.pass rfl fun b => ?_
      simp only [if_true, holders, List.map_append, List.map_cons, List.map_nil, BufEvent.buf,
        List.count_append, List.count_cons, List.count_nil]
      omega

end Stack.Owned

theorem count_erase_add {l : List Nat} {a : Nat} (h : a ∈ l) (b : Nat) :
    l.count b = (l.erase a).count b + if a = b then 1 else 0 := by
  have hcount := (List.perm_cons_erase h).count_eq b
  simpa [List.count_cons] using hcount

theorem bufStep_owned {s : Stack} {op : BufOp} (h : s.Owned []) (hroom : HasRoom op) :
    (bufStep s op).Owned [] := by
  cases op with
  | bcmpTx alloc serialized queued => exact h.bcmpTx hroom
  | bcmpLlForward alloc queued => exact h.bcmpTx fun halloc _ => hroom halloc
  | bmUdpTxPerform buf alloc queued =>
    simp only [bufStep]
    split
    · rename_i hheld
      exact h.bmUdpTxPerform hheld hroom
    · exact h
  | bmMiddlewareNetTx buf found fits alloc queued =>
    simp only [bufStep]
    split
    · rename_i hcall
      exact h.bmUdpTxPerform hcall.1 (hroom hcall.2.1 hcall.2.2)
    · exact h
  | cleanup buf =>
    simp only [bufStep]
    split
    · rename_i hrunning
      have htake : { s with running := s.running.erase buf }.Owned [buf] := by
        refine h.pass rfl fun b => ?_
        simp only [Stack.holders, List.count_append, List.count_cons, List.count_nil,
          count_erase_add hrunning b, beq_iff_eq]
        omega
      exact htake.free
    · exact h
  | bmL2Rx alloc queued => exact h.bmL2Rx alloc queued
  | bmL2Thread forward fwdAlloc fwdQueued shouldSubmit submit =>
    simp only [bufStep]
    split
    · exact h
    · rename_i buf evtQueue hqueue
      refine Stack.Owned.takeFree (h.pass rfl fun b => ?_)
      simp only [Stack.holders, hqueue, List.map_cons, BufEvent.buf, List.count_append,
        List.count_cons, List.count_nil]
      omega
    · rename_i buf evtQueue hqueue
      have htake : { s with evtQueue }.Owned [buf] := by
        refine h.pass rfl fun b => ?_
        simp only [Stack.holders, hqueue, List.map_cons, BufEvent.buf, List.count_append,
          List.count_cons, List.count_nil]
        omega
      exact htake.bmL2ProcessRxEvt forward fwdAlloc fwdQueued shouldSubmit submit
  | bcmpThread =>
    simp only [bufStep]
    split
    · exact h
    · rename_i buf bcmpQueue hqueue
      refine Stack.Owned.takeFree (h.pass rfl fun b => ?_)
      simp only [Stack.holders, hqueue, List.count_append, List.count_cons, List.count_nil]
      omega
  | middlewareNetTask =>
    simp only [bufStep]
    split
    · exact h
    · rename_i buf netQueue hqueue
      refine Stack.Owned.takeFree (h.pass rfl fun b => ?_)
      simp only [Stack.holders, hqueue, List.count_append, List.count_cons, List.count_nil]
      omega
  | bmUdpNew alloc =>
    cases alloc with
    | false => exact h
    | true =>
      refine h.alloc.pass rfl fun b => ?_
      simp only [bufStep, Bool.not_true, Bool.false_eq_true, if_false, Stack.holders,
        List.count_append, List.count_cons, List.count_nil]
      omega
  | bmUdpCleanup buf =>
    simp only [bufStep]
    split
    · rename_i hheld
      have htake : { s with held := s.held.erase buf }.Owned [buf] := by
        refine h.pass rfl fun b => ?_
        simp only [Stack.holders, List.count_append, List.count_cons, List.count_nil,
          count_erase_add hheld b, beq_iff_eq]
        omega
      exact htake.free
    · exact h

/-- The stack before its first call. -/
def Stack.empty : Stack := ⟨.empty, [], [], [], [], []⟩

theorem run_owned {s : Stack} (h : s.Owned []) {ops : List BufOp} (hroom : ∀ op ∈ ops, HasRoom op) :
    (ops.foldl bufStep s).Owned [] := by
  induction ops generalizing s with
  | nil => exact h
  | cons op ops ih =>
    have hstep := bufStep_owned h (hroom op List.mem_cons_self)
    exact ih hstep fun op' hop' => hroom op' (List.mem_cons_of_mem op hop')

/-- Every buffer is freed exactly once, when nobody holds it any more. Until then it has as many
references as holders, and no buffer is used after it is freed. -/
theorem buffers_freed_once (ops : List BufOp) (hroom : ∀ op ∈ ops, HasRoom op) :
    let s := ops.foldl bufStep Stack.empty
    s.cells.misused = [] ∧ ∀ buf < s.cells.count, 0 ≤ s.cells.ref buf ∧
      s.cells.freed buf = if buf ∈ s.holders then 0 else 1 := by
  have hstart : Stack.empty.Owned [] := Balanced.empty
  have hbalanced : Balanced _ ([] ++ _) := run_owned hstart hroom
  refine ⟨hbalanced.misused, fun buf hbuf => ⟨?_, hbalanced.freed buf hbuf⟩⟩
  rw [hbalanced.ref buf hbuf]
  exact Int.natCast_nonneg _

/-- A message that is sent: the last reference is that of the event. -/
theorem buffers_freed_once_of_bcmpTx :
    let ops : List BufOp :=
      [.bcmpTx true true true, .cleanup 0, .bmL2Thread false false false false .bad]
    let s := ops.foldl bufStep Stack.empty
    s.cells.count = 1 ∧ s.cells.freed 0 = 1 := by
  have hrun := buffers_freed_once
    [.bcmpTx true true true, .cleanup 0, .bmL2Thread false false false false .bad]
    (by simp [HasRoom])
  exact ⟨by decide +kernel, hrun.2 0 (by decide +kernel) |>.2⟩

/-- With a full event queue `bcmp_tx` frees its buffer before its cleanup, which then uses it. -/
theorem bcmpTx_buffer_used_after_free :
    let ops : List BufOp := [.bcmpTx true true false, .cleanup 0]
    let s := ops.foldl bufStep Stack.empty
    (bufStep Stack.empty (.bcmpTx true true false)).cells.freed 0 = 1 ∧
      s.cells.misused = [0] ∧ s.cells.ref 0 = -1 := by
  decide +kernel

end BmCore.Network
