import BmCore.Common.LinkedList
import BmCore.Library.Runs
import BmCore.Network.Transmit

/-!
# Renegotiation timers

`l2.c`: while the link of a port is down a timer has the device try to negotiate it again. The
timers are found by their port in a linked list. An item is linked before its timer is started; if
that fails the item is freed and stays linked. And the list itself can be left with a tail that
points to a freed item. A run without either keeps the list.
-/
namespace BmCore.Network
open Library LL

/-! ## The code -/

/-- A timer of the operating system. -/
structure BmTimer where
  id : UInt32
  running : Bool

/-- The part of `BmL2Ctx` for the timers, with the timers of the operating system. -/
structure RenegotiateCtx where
  ctx : BmL2Ctx
  /-- The trait of the network device has a `retry_negotiation`. -/
  retryNegotiation : Bool
  renegotiateTimerList : LL Nat
  timers : AList fun _ : Nat => BmTimer

/-- What the start of a timer is given: the timer that is created, the item that is allocated, and
if the timer can be started. -/
structure TimerAnswers where
  timer : Option Nat
  item : Option Nat
  started : Bool

namespace RenegotiateCtx

def init (ctx : BmL2Ctx) (retryNegotiation : Bool) : RenegotiateCtx :=
  ⟨ctx, retryNegotiation, .empty, ∅⟩

/-- `bm_timer_create`, which does not return a timer that is in use. -/
def bmTimerCreate (s : RenegotiateCtx) (id : UInt32) (answer : Option Nat) :
    Option (Nat × RenegotiateCtx) :=
  (answer.filter (· ∉ s.timers)).map fun timer =>
    (timer, { s with timers := s.timers.insert timer ⟨id, false⟩ })

/-- `bm_timer_start` and `bm_timer_stop` -/
def bmTimerSet (s : RenegotiateCtx) (timer : Nat) (running : Bool) : Option RenegotiateCtx :=
  (s.timers.lookup timer).map fun t =>
    { s with timers := s.timers.insert timer { t with running } }

/-- `bm_timer_delete` -/
def bmTimerDelete (s : RenegotiateCtx) (timer : Nat) : Option RenegotiateCtx :=
  if timer ∈ s.timers then some { s with timers := s.timers.erase timer } else none

/-- `ll_create_item`, whose memory is not in use. -/
def llCreateItem (s : RenegotiateCtx) (answer : Option Nat) : Option Nat :=
  answer.filter (· ∉ s.renegotiateTimerList.heap)

/-- `ll_delete_item`: the memory of the item is free, whatever points to it. -/
def llDeleteItem (s : RenegotiateCtx) (item : Nat) : RenegotiateCtx :=
  { s with renegotiateTimerList :=
      { s.renegotiateTimerList with heap := s.renegotiateTimerList.heap.erase item } }

/-- `bm_l2_start_renegotiate_check` -/
def bmL2StartRenegotiateCheck (s : RenegotiateCtx) (portNum : UInt8) (answers : TimerAnswers) :
    Option (RenegotiateCtx × BmErr) := do
  let found ← s.renegotiateTimerList.getItem portNum.toUInt32
  if s.retryNegotiation ∧ found = none then
    match s.bmTimerCreate portNum.toUInt32 answers.timer with
    | none => some (s, .enomem)
    | some (timer, s) =>
      match s.llCreateItem answers.item with
      | none => do
        let s ← s.bmTimerDelete timer
        some (s, .enomem)
      | some item => do
        let renegotiateTimerList ← s.renegotiateTimerList.itemAdd item portNum.toUInt32 timer
        let s := { s with renegotiateTimerList }
        if answers.started then do
          let s ← s.bmTimerSet timer true
          some (s, .ok)
        else do
          -- the item is still linked
          let s ← (s.llDeleteItem item).bmTimerDelete timer
          some (s, .ecanceled)
  else some (s, .enodev)

/-- `bm_l2_stop_renegotiate_check` -/
def bmL2StopRenegotiateCheck (s : RenegotiateCtx) (portNum : UInt8) :
    Option (RenegotiateCtx × BmErr) :=
  if s.retryNegotiation then do
    match ← s.renegotiateTimerList.getItem portNum.toUInt32 with
    | none => some (s, .enodata)
    | some timer => do
      let (renegotiateTimerList, _) ← s.renegotiateTimerList.remove portNum.toUInt32
      let s ← { s with renegotiateTimerList }.bmTimerSet timer false
      let s ← s.bmTimerDelete timer
      some (s, .ok)
  else some (s, .enodev)

/-- `link_change`, up to the callbacks. -/
def linkChange (s : RenegotiateCtx) (portIdx : UInt8) (isUp : Bool) (answers : TimerAnswers) :
    Option (RenegotiateCtx × BmErr) :=
  let portNum := portIdx + 1
  let s := { s with ctx := Network.linkChange s.ctx (portIdx, isUp) }
  if isUp then s.bmL2StopRenegotiateCheck portNum
  else s.bmL2StartRenegotiateCheck portNum answers

end RenegotiateCtx

/-- A round of the loop that `bm_l2_thread` begins with, or a change of a link. -/
inductive RenegotiateEvent where
  | start (portNum : UInt8) (answers : TimerAnswers)
  | linkChange (portIdx : UInt8) (isUp : Bool) (answers : TimerAnswers)

def RenegotiateEvent.run (s : RenegotiateCtx) :
    RenegotiateEvent → Option (RenegotiateCtx × BmErr)
  | .start portNum answers => s.bmL2StartRenegotiateCheck portNum answers
  | .linkChange portIdx isUp answers => s.linkChange portIdx isUp answers

/-- There is no state behind an access to freed memory. -/
def RenegotiateEvent.step (s : Option RenegotiateCtx) (event : RenegotiateEvent) :
    Option RenegotiateCtx :=
  s.bind fun s => (event.run s).map Prod.fst

/-! ## What the list is for -/

/-- From the head on and at the tail the list has live items only, at most one for a port, and they
hold live timers. -/
structure TimersSound (s : RenegotiateCtx) : Prop where
  items : ∃ es, Walkable s.renegotiateTimerList es ∧ (es.map (·.2.id)).Nodup ∧
    ∀ e ∈ es, e.2.data ∈ s.timers
  tail : ∀ a, s.renegotiateTimerList.tail = some a → a ∈ s.renegotiateTimerList.heap

/-- A port has no item and no running timer. -/
structure PortQuiet (s : RenegotiateCtx) (portNum : UInt8) : Prop where
  item : s.renegotiateTimerList.getItem portNum.toUInt32 = some none
  timer : ∀ timer t, s.timers.lookup timer = some t → t.id = portNum.toUInt32 → t.running = false

/-- An event keeps the list, and leaves nothing for a port whose link is up. -/
def KeepsTimers (s : Option RenegotiateCtx) (event : RenegotiateEvent) : Prop :=
  ∃ s', RenegotiateEvent.step s event = some s' ∧ TimersSound s' ∧
    ∀ portIdx answers, event = .linkChange portIdx true answers → PortQuiet s' (portIdx + 1)

/-- The timer and the item that the start for a port gets, if it gets that far. -/
def startAllocates (s : RenegotiateCtx) (portNum : UInt8) (answers : TimerAnswers) :
    Option (Nat × Nat) :=
  if s.retryNegotiation ∧ s.renegotiateTimerList.getItem portNum.toUInt32 = some none then do
    let (timer, s) ← s.bmTimerCreate portNum.toUInt32 answers.timer
    let item ← s.llCreateItem answers.item
    some (timer, item)
  else none

/-- The timer and the item are there, and then the timer cannot be started. -/
def startFails (s : RenegotiateCtx) (portNum : UInt8) (answers : TimerAnswers) : Bool :=
  (startAllocates s portNum answers).isSome && !answers.started

/-- No start fails behind the allocations, and no removal leaves the tail astray. -/
def wellTimed (s : RenegotiateCtx) : RenegotiateEvent → Bool
  | .start portNum answers => !startFails s portNum answers
  | .linkChange portIdx false answers => !startFails s (portIdx + 1) answers
  | .linkChange portIdx true _ => s.renegotiateTimerList.backPointerOk (portIdx + 1).toUInt32

/-! ## Timers and ports -/

namespace RenegotiateCtx

/-- The masks of the ports play no part. -/
theorem startFails_withCtx (s : RenegotiateCtx) (ctx : BmL2Ctx) (portNum : UInt8)
    (answers : TimerAnswers) :
    startFails { s with ctx } portNum answers = startFails s portNum answers := by
  unfold startFails startAllocates bmTimerCreate
  cases answers.timer.filter (· ∉ s.timers) <;> rfl

/-- A timer that is deleted at once leaves nothing. -/
theorem erase_insert {timers : AList fun _ : Nat => BmTimer} {timer : Nat} (h : timer ∉ timers)
    (t : BmTimer) : (timers.insert timer t).erase timer = timers := by
  refine AList.ext ?_
  change List.kerase timer (timers.insert timer t).entries = timers.entries
  rw [AList.entries_insert_of_notMem h]
  exact List.kerase_cons_eq rfl

theorem bmTimerCreate_some {s s' : RenegotiateCtx} {id : UInt32} {answer : Option Nat}
    {timer : Nat} (h : s.bmTimerCreate id answer = some (timer, s')) :
    timer ∉ s.timers ∧ s' = { s with timers := s.timers.insert timer ⟨id, false⟩ } := by
  simp only [bmTimerCreate, Option.map_eq_some_iff, Prod.mk.injEq] at h
  obtain ⟨_, hfilter, rfl, rfl⟩ := h
  exact ⟨by simpa using (Option.filter_eq_some_iff.mp hfilter).2, rfl⟩

end RenegotiateCtx

/-- The timers are those of the ports, and they run. -/
structure Armed (timers : AList fun _ : Nat => BmTimer) (ports : List (UInt32 × Nat)) : Prop where
  onePort : (ports.map Prod.fst).Nodup
  oneTimer : (ports.map Prod.snd).Nodup
  live : ∀ timer t, timers.lookup timer = some t ↔ (t.id, timer) ∈ ports ∧ t.running = true

namespace Armed
variable {timers : AList fun _ : Nat => BmTimer} {ports pre post : List (UInt32 × Nat)}
  {port : UInt32} {timer : Nat}

theorem mem_iff (h : Armed timers ports) : timer ∈ timers ↔ ∃ port, (port, timer) ∈ ports := by
  rw [← AList.lookup_isSome, Option.isSome_iff_exists]
  constructor
  · rintro ⟨t, ht⟩
    exact ⟨t.id, ((h.live timer t).mp ht).1⟩
  · rintro ⟨port, hmem⟩
    exact ⟨⟨port, true⟩, (h.live timer _).mpr ⟨hmem, rfl⟩⟩

theorem add (h : Armed timers ports) (hport : port ∉ ports.map Prod.fst)
    (htimer : timer ∉ timers) :
    Armed (timers.insert timer ⟨port, true⟩) (ports ++ [(port, timer)]) := by
  have hfresh : ∀ p, (p, timer) ∉ ports := fun p hmem => htimer (h.mem_iff.mpr ⟨p, hmem⟩)
  refine ⟨?_, ?_, fun other t => ?_⟩
  · rw [List.map_append]
    exact h.onePort.append (List.nodup_singleton _) (List.disjoint_singleton.mpr hport)
  · rw [List.map_append]
    refine h.oneTimer.append (List.nodup_singleton _) (List.disjoint_singleton.mpr ?_)
    simpa using hfresh
  · by_cases hother : other = timer
    · subst hother
      rw [AList.lookup_insert]
      grind [cases BmTimer]
    · rw [AList.lookup_insert_ne hother, h.live]
      grind

theorem remove (h : Armed timers (pre ++ (port, timer) :: post)) (old : BmTimer) :
    Armed ((timers.insert timer old).erase timer) (pre ++ post) := by
  have hports := h.onePort
  have htimers := h.oneTimer
  simp only [List.map_append, List.map_cons] at hports htimers
  refine ⟨?_, ?_, fun other t => ?_⟩
  · rw [List.map_append]
    exact (List.Sublist.append_left (List.sublist_cons_self _ _) _).nodup hports
  · rw [List.map_append]
    exact (List.Sublist.append_left (List.sublist_cons_self _ _) _).nodup htimers
  · by_cases hother : other = timer
    · subst hother
      have hgone := (List.nodup_cons.mp (List.nodup_middle.mp htimers)).1
      rw [AList.lookup_erase]
      refine iff_of_false (by simp) ?_
      rintro ⟨hmem, -⟩
      rw [← List.map_append] at hgone
      exact hgone (List.mem_map.mpr ⟨(t.id, other), hmem, rfl⟩)
    · rw [AList.lookup_erase_ne hother, AList.lookup_insert_ne hother, h.live]
      grind

end Armed

/-! ## The invariant -/

/-- The list is linked, and its items hold the timers. -/
structure TimersLinked (s : RenegotiateCtx) (es : List (Entry Nat)) : Prop where
  linked : Linked s.renegotiateTimerList es
  backsUp : BacksUp LLItem.previous [] es
  armed : Armed s.timers (es.map payload)
  idle : s.retryNegotiation = false → es = []

namespace TimersLinked
variable {s : RenegotiateCtx} {es : List (Entry Nat)} {portNum : UInt8} {answers : TimerAnswers}

theorem init (ctx : BmL2Ctx) (retryNegotiation : Bool) :
    TimersLinked (.init ctx retryNegotiation) [] := by
  refine ⟨Linked.empty, trivial, ⟨List.nodup_nil, List.nodup_nil, fun timer t => ?_⟩, fun _ => rfl⟩
  simp [RenegotiateCtx.init]

theorem withCtx (h : TimersLinked s es) (ctx : BmL2Ctx) : TimersLinked { s with ctx } es :=
  ⟨h.linked, h.backsUp, h.armed, h.idle⟩

theorem sound (h : TimersLinked s es) : TimersSound s := by
  refine ⟨⟨es, h.linked.walkable, ?_, fun e he => ?_⟩, fun a ha => ?_⟩
  · have hports := h.armed.onePort
    rwa [List.map_map] at hports
  · exact h.armed.mem_iff.mpr ⟨e.2.id, List.mem_map.mpr ⟨e, he, rfl⟩⟩
  · rw [h.linked.tail] at ha
    refine (h.linked.owned a).mpr (lastAddr_mem ha ?_)
    rintro rfl
    cases ha

/-- A port without an item has no timer either. -/
theorem quiet (h : TimersLinked s es) (hport : ∀ e ∈ es, e.2.id ≠ portNum.toUInt32) :
    PortQuiet s portNum := by
  refine ⟨getItem_absent h.linked.walkable hport, fun timer t ht hid => ?_⟩
  obtain ⟨e, he, hpayload⟩ := List.mem_map.mp ((h.armed.live timer t).mp ht).1
  have hne := hport e he
  rw [← hid] at hne
  exact absurd (congrArg Prod.fst hpayload) hne

/-- Without a timer and an item a start does nothing. -/
theorem start_without (h : TimersLinked s es)
    (hnone : startAllocates s portNum answers = none) :
    ∃ err, s.bmL2StartRenegotiateCheck portNum answers = some (s, err) := by
  have hget := getItem_find h.linked.walkable portNum.toUInt32
  simp only [startAllocates, hget, Option.some.injEq] at hnone
  simp only [RenegotiateCtx.bmL2StartRenegotiateCheck, hget, Option.bind_eq_bind, Option.bind_some]
  split
  · rename_i hstart
    rw [if_pos hstart] at hnone
    cases hcreate : s.bmTimerCreate portNum.toUInt32 answers.timer with
    | none => exact ⟨_, rfl⟩
    | some created =>
      obtain ⟨timer, s'⟩ := created
      obtain ⟨hfresh, rfl⟩ := RenegotiateCtx.bmTimerCreate_some hcreate
      simp only [hcreate, Option.bind_eq_bind, Option.bind_some, Option.bind_eq_none_iff,
        reduceCtorEq] at hnone
      have hitem := Option.eq_none_iff_forall_not_mem.mpr hnone
      refine ⟨.enomem, ?_⟩
      simp [hitem, RenegotiateCtx.bmTimerDelete, RenegotiateCtx.erase_insert hfresh]
  · exact ⟨_, rfl⟩

/-- With a timer and an item the item is linked, and the timer runs if it can be started. -/
theorem start_with (h : TimersLinked s es) {timer item : Nat}
    (hsome : startAllocates s portNum answers = some (timer, item)) :
    ∃ list es', Linked list (es' ++ [(item, ⟨none, lastAddr none es, timer, portNum.toUInt32⟩)]) ∧
      es'.map view = es.map view ∧ es'.map (·.2.previous) = es.map (·.2.previous) ∧
      timer ∉ s.timers ∧ (∀ e ∈ es, e.2.id ≠ portNum.toUInt32) ∧ s.retryNegotiation = true ∧
      s.bmL2StartRenegotiateCheck portNum answers =
        if answers.started then some ({ s with
          renegotiateTimerList := list
          timers := s.timers.insert timer ⟨portNum.toUInt32, true⟩ }, .ok)
        else some (({ s with renegotiateTimerList := list } : RenegotiateCtx).llDeleteItem item,
          .ecanceled) := by
  unfold startAllocates at hsome
  split at hsome
  · rename_i hstart
    obtain ⟨hretry, hget⟩ := hstart
    simp only [Option.bind_eq_bind, Option.bind_eq_some_iff, Option.some.injEq, Prod.mk.injEq]
      at hsome
    obtain ⟨⟨timer, s'⟩, hcreate, item, hitem, rfl, rfl⟩ := hsome
    obtain ⟨hfresh, rfl⟩ := RenegotiateCtx.bmTimerCreate_some hcreate
    have hnode : item ∉ s.renegotiateTimerList.heap := by
      simpa using (Option.filter_eq_some_iff.mp hitem).2
    have hport : ∀ e ∈ es, e.2.id ≠ portNum.toUInt32 := by
      rcases split_at_id es portNum.toUInt32 with hnone | ⟨pre, e, post, rfl, hpre, he⟩
      · exact hnone
      · rw [getItem_found h.linked.walkable hpre he] at hget
        cases hget
    obtain ⟨list, es', hadd, hlinked, hview, hprev⟩ :=
      itemAdd_linked h.linked hnode portNum.toUInt32 timer
    refine ⟨list, es', hlinked, hview, hprev, hfresh, hport, hretry, ?_⟩
    dsimp only at hitem
    simp only [RenegotiateCtx.bmL2StartRenegotiateCheck, hget, Option.bind_eq_bind,
      Option.bind_some]
    rw [if_pos ⟨hretry, trivial⟩]
    simp only [hcreate, hitem, hadd, Option.bind_some]
    split
    · simp [RenegotiateCtx.bmTimerSet]
    · simp [RenegotiateCtx.bmTimerDelete, RenegotiateCtx.llDeleteItem,
        RenegotiateCtx.erase_insert hfresh]
  · cases hsome

/-- The new item holds the new timer. -/
theorem payload_add {es' : List (Entry Nat)} {e : Entry Nat} (h : es'.map view = es.map view) :
    (es' ++ [e]).map payload = es.map payload ++ [payload e] := by
  rw [List.map_append, map_payload_of_view h, List.map_singleton]

theorem start_kept (h : TimersLinked s es) (hfails : startFails s portNum answers = false) :
    ∃ s' es' err, s.bmL2StartRenegotiateCheck portNum answers = some (s', err) ∧
      TimersLinked s' es' := by
  cases halloc : startAllocates s portNum answers with
  | none =>
    obtain ⟨err, hstart⟩ := h.start_without halloc
    exact ⟨s, es, err, hstart, h⟩
  | some allocated =>
    obtain ⟨timer, item⟩ := allocated
    obtain ⟨list, es', hlinked, hview, hprev, hfresh, hport, hretry, hstart⟩ := h.start_with halloc
    have hstarted : answers.started = true := by simpa [startFails, halloc] using hfails
    rw [if_pos hstarted] at hstart
    refine ⟨_, _, _, hstart, hlinked, ?_, ?_, fun hidle => ?_⟩
    · exact backsUp_add h.backsUp h.linked.nodup hview hprev rfl
    · rw [payload_add hview]
      refine h.armed.add ?_ hfresh
      simpa [payload] using hport
    · exact absurd (hretry.symm.trans hidle) (by decide)

/-- A start that fails leaves a freed item behind the others. -/
theorem start_unsound (h : TimersLinked s es) (hfails : startFails s portNum answers = true)
    {s' : RenegotiateCtx} {err : BmErr}
    (hstart : s.bmL2StartRenegotiateCheck portNum answers = some (s', err)) :
    ¬ TimersSound s' := by
  obtain ⟨halloc, hstarted⟩ : (startAllocates s portNum answers).isSome = true ∧
      answers.started = false := by simpa [startFails] using hfails
  obtain ⟨⟨timer, item⟩, halloc⟩ := Option.isSome_iff_exists.mp halloc
  obtain ⟨list, es', hlinked, -, -, -, -, -, hstart'⟩ := h.start_with halloc
  rw [hstart', hstarted, if_neg (by decide)] at hstart
  obtain ⟨rfl, -⟩ := Prod.mk.inj (Option.some.inj hstart)
  intro hsound
  refine absurd (hsound.tail item ?_) ?_
  · have htail := hlinked.tail
    rwa [lastAddr_concat] at htail
  · simp [RenegotiateCtx.llDeleteItem, AList.mem_erase]

theorem stop_absent (h : TimersLinked s es) (hport : ∀ e ∈ es, e.2.id ≠ portNum.toUInt32) :
    ∃ err, s.bmL2StopRenegotiateCheck portNum = some (s, err) := by
  unfold RenegotiateCtx.bmL2StopRenegotiateCheck
  rw [getItem_absent h.linked.walkable hport]
  split <;> exact ⟨_, rfl⟩

/-- The item of a port is removed, and its timer with it. -/
theorem stop_found {pre post : List (Entry Nat)} {e : Entry Nat}
    (h : TimersLinked s (pre ++ e :: post)) (hpre : ∀ f ∈ pre, f.2.id ≠ portNum.toUInt32)
    (he : e.2.id = portNum.toUInt32) {list : LL Nat} {err : BmErr}
    (hremove : s.renegotiateTimerList.remove portNum.toUInt32 = some (list, err)) :
    ∃ old, s.bmL2StopRenegotiateCheck portNum = some ({ s with
      renegotiateTimerList := list
      timers := (s.timers.insert e.2.data old).erase e.2.data }, .ok) := by
  have hretry : s.retryNegotiation = true := by
    by_contra hidle
    simpa using h.idle (by simpa using hidle)
  have hread : s.timers.lookup e.2.data = some ⟨e.2.id, true⟩ :=
    (h.armed.live _ _).mpr ⟨List.mem_map.mpr ⟨e, by simp, rfl⟩, rfl⟩
  refine ⟨⟨e.2.id, false⟩, ?_⟩
  simp only [RenegotiateCtx.bmL2StopRenegotiateCheck, hretry, if_true,
    getItem_found h.linked.walkable hpre he, hremove, Option.bind_eq_bind, Option.bind_some,
    RenegotiateCtx.bmTimerSet, hread, Option.map_some, RenegotiateCtx.bmTimerDelete]
  simp

theorem stop_kept (h : TimersLinked s es)
    (hback : s.renegotiateTimerList.backPointerOk portNum.toUInt32 = true) :
    ∃ s' es' err, s.bmL2StopRenegotiateCheck portNum = some (s', err) ∧ TimersLinked s' es' ∧
      PortQuiet s' portNum := by
  rcases split_at_id es portNum.toUInt32 with hport | ⟨pre, e, post, rfl, hpre, he⟩
  · obtain ⟨err, hstop⟩ := h.stop_absent hport
    exact ⟨s, es, err, hstop, h, h.quiet hport⟩
  obtain ⟨list, hremove, hok, -⟩ := remove_found_backsUp h.linked h.backsUp hpre he
  obtain ⟨es', hlinked, hbacks, hview⟩ := hok hback
  obtain ⟨old, hstop⟩ := h.stop_found hpre he hremove
  have hpayload := map_payload_of_view hview
  have hkept : TimersLinked { s with
      renegotiateTimerList := list
      timers := (s.timers.insert e.2.data old).erase e.2.data } es' := by
    refine ⟨hlinked, hbacks, ?_, fun hidle => ?_⟩
    · have harmed := h.armed
      rw [List.map_append, List.map_cons] at harmed
      rw [hpayload, List.map_append]
      exact harmed.remove old
    · simpa using h.idle hidle
  refine ⟨_, es', .ok, hstop, hkept, hkept.quiet fun f hf hid => ?_⟩
  -- there was one item for the port
  have hports := h.armed.onePort
  rw [List.map_append, List.map_cons, List.map_append, List.map_cons] at hports
  have hgone := (List.nodup_cons.mp (List.nodup_middle.mp hports)).1
  rw [← List.map_append, ← List.map_append, ← hpayload] at hgone
  refine hgone (List.mem_map.mpr ⟨payload f, List.mem_map.mpr ⟨f, hf, rfl⟩, ?_⟩)
  exact hid.trans he.symm

/-- A removal that leaves the tail at a freed item. -/
theorem stop_unsound (h : TimersLinked s es)
    (hback : s.renegotiateTimerList.backPointerOk portNum.toUInt32 = false) {s' : RenegotiateCtx}
    {err : BmErr} (hstop : s.bmL2StopRenegotiateCheck portNum = some (s', err)) :
    ¬ TimersSound s' := by
  rcases split_at_id es portNum.toUInt32 with hport | ⟨pre, e, post, rfl, hpre, he⟩
  · rw [backPointerOk, walk_absent h.linked.walkable hport] at hback
    simp at hback
  obtain ⟨list, hremove, -, hstray⟩ := remove_found_backsUp h.linked h.backsUp hpre he
  obtain ⟨a, htail, hgone⟩ := hstray hback
  obtain ⟨old, hstop'⟩ := h.stop_found hpre he hremove
  rw [hstop'] at hstop
  obtain ⟨rfl, -⟩ := Prod.mk.inj (Option.some.inj hstop)
  exact fun hsound => hgone (hsound.tail a htail)

end TimersLinked

/-! ## Runs -/

section Step
variable {s : RenegotiateCtx} {es : List (Entry Nat)} {event : RenegotiateEvent}

theorem KeepsTimers.of_run {s' : RenegotiateCtx} {es' : List (Entry Nat)} {err : BmErr}
    (hrun : event.run s = some (s', err)) (h : TimersLinked s' es')
    (hquiet : ∀ portIdx answers, event = .linkChange portIdx true answers →
      PortQuiet s' (portIdx + 1)) : KeepsTimers (some s) event :=
  ⟨s', by simp [RenegotiateEvent.step, hrun], h.sound, hquiet⟩

theorem not_keepsTimers
    (h : ∀ s' err, event.run s = some (s', err) → ¬ TimersSound s') :
    ¬ KeepsTimers (some s) event := by
  rintro ⟨s', hstep, hsound, -⟩
  obtain ⟨⟨s'', err⟩, hrun, rfl⟩ := Option.map_eq_some_iff.mp hstep
  exact h s'' err hrun hsound

/-- A well timed event is survived, and keeps the list linked. -/
theorem run_wellTimed (h : TimersLinked s es) (hevent : wellTimed s event = true) :
    ∃ s' es' err, event.run s = some (s', err) ∧ TimersLinked s' es' ∧
      ∀ portIdx answers, event = .linkChange portIdx true answers → PortQuiet s' (portIdx + 1) := by
  cases event with
  | start portNum answers =>
    have hfails : startFails s portNum answers = false := by simpa [wellTimed] using hevent
    obtain ⟨s', es', err, hstart, h'⟩ := h.start_kept hfails
    exact ⟨s', es', err, hstart, h', fun _ _ heq => by cases heq⟩
  | linkChange portIdx isUp answers =>
    have hctx := h.withCtx (linkChange s.ctx (portIdx, isUp))
    cases isUp with
    | false =>
      have hfails : startFails s (portIdx + 1) answers = false := by
        simpa [wellTimed] using hevent
      rw [← RenegotiateCtx.startFails_withCtx] at hfails
      obtain ⟨s', es', err, hstart, h'⟩ := hctx.start_kept hfails
      exact ⟨s', es', err, hstart, h', fun _ _ heq => by cases heq⟩
    | true =>
      obtain ⟨s', es', err, hstop, h', hquiet⟩ := hctx.stop_kept hevent
      refine ⟨s', es', err, hstop, h', fun portIdx' answers' heq => ?_⟩
      obtain ⟨rfl, -, -⟩ := RenegotiateEvent.linkChange.inj heq
      exact hquiet

theorem run_notWellTimed (h : TimersLinked s es) (hevent : wellTimed s event = false)
    {s' : RenegotiateCtx} {err : BmErr} (hrun : event.run s = some (s', err)) :
    ¬ TimersSound s' := by
  cases event with
  | start portNum answers => exact h.start_unsound (by simpa [wellTimed] using hevent) hrun
  | linkChange portIdx isUp answers =>
    have hctx := h.withCtx (linkChange s.ctx (portIdx, isUp))
    cases isUp with
    | false =>
      have hfails : startFails s (portIdx + 1) answers = true := by
        simpa [wellTimed] using hevent
      rw [← RenegotiateCtx.startFails_withCtx] at hfails
      exact hctx.start_unsound hfails hrun
    | true => exact hctx.stop_unsound hevent hrun

theorem keepsTimers_iff (h : TimersLinked s es) :
    KeepsTimers (some s) event ↔ wellTimed s event = true := by
  constructor
  · intro hkeeps
    by_contra hevent
    exact not_keepsTimers (fun s' err => run_notWellTimed h (by simpa using hevent)) hkeeps
  · intro hevent
    obtain ⟨s', es', err, hrun, h', hquiet⟩ := run_wellTimed h hevent
    exact .of_run hrun h' hquiet

theorem along_keepsTimers_iff (h : TimersLinked s es) (events : List RenegotiateEvent) :
    Along RenegotiateEvent.step KeepsTimers (some s) events ↔
      Along RenegotiateEvent.step (fun s event => s.any (wellTimed · event) = true) (some s)
        events := by
  induction events generalizing s es with
  | nil => exact Iff.rfl
  | cons event events ih =>
    rw [Along, Along, keepsTimers_iff h]
    refine and_congr_right fun hevent => ?_
    obtain ⟨s', es', err, hrun, h', -⟩ := run_wellTimed h hevent
    have hstep : RenegotiateEvent.step (some s) event = some s' := by
      simp [RenegotiateEvent.step, hrun]
    rw [hstep]
    exact ih h'

end Step

/-- In every run from the start on the list is kept if and only if all events are well timed. -/
theorem renegotiation_timers_iff (ctx : BmL2Ctx) (retryNegotiation : Bool)
    (events : List RenegotiateEvent) :
    Along RenegotiateEvent.step KeepsTimers (some (.init ctx retryNegotiation)) events ↔
      Along RenegotiateEvent.step (fun s event => s.any (wellTimed · event) = true)
        (some (.init ctx retryNegotiation)) events :=
  along_keepsTimers_iff (.init ctx retryNegotiation) events

/-- The link of port 1 goes down, and its timer cannot be started. -/
def failedStart : List RenegotiateEvent := [.linkChange 0 false ⟨some 1, some 1, false⟩]

/-- The links of three ports go down, the second and then the third come up again: the tail is the
freed item of the second one. The next item is linked behind it. -/
def strayTail : List RenegotiateEvent :=
  [.linkChange 0 false ⟨some 1, some 1, true⟩, .linkChange 1 false ⟨some 2, some 2, true⟩,
    .linkChange 2 false ⟨some 3, some 3, true⟩, .linkChange 1 true ⟨none, none, true⟩,
    .linkChange 2 true ⟨none, none, true⟩, .linkChange 1 false ⟨some 4, some 4, true⟩]

theorem renegotiation_timers_lost :
    ¬ Along RenegotiateEvent.step KeepsTimers (some (.init (bmL2Init 3) true)) failedStart ∧
      ¬ Along RenegotiateEvent.step KeepsTimers (some (.init (bmL2Init 3) true)) strayTail ∧
      (strayTail.foldl RenegotiateEvent.step (some (.init (bmL2Init 3) true))).isNone = true := by
  have hlinked : TimersLinked (.init (bmL2Init 3) true) [] := .init (bmL2Init 3) true
  refine ⟨?_, ?_, by decide +kernel⟩
  · rw [along_keepsTimers_iff hlinked]
    decide +kernel
  · rw [along_keepsTimers_iff hlinked]
    decide +kernel

end BmCore.Network
