import BmCore.Common.LinkedList
import BmCore.Library.Runs

/-!
# Callback queue

`common/cb_queue.c`: callbacks in the order in which they have been enqueued. Their identifiers are
counted up from the one that is dequeued next. The queue is taken to be empty where the next
identifier to be given is the next one to be dequeued, as it is again with 2^32 callbacks in it.
With fewer callbacks it is a list that is appended to at its end and taken from at its front.
-/
namespace BmCore
open Library LL

/-- `BmCbQueue` -/
structure BmCbQueue (α : Type) where
  cbList : LL α
  addId : UInt32
  getId : UInt32

namespace BmCbQueue
variable {α β S : Type}

/-- The queue `{0}`. -/
def empty : BmCbQueue α := ⟨.empty, 0, 0⟩

/-- `queue_cb_enqueue`, with the item `ll_create_item` allocates at `node`, if it can. -/
def queueCbEnqueue (q : BmCbQueue α) (cb : α) (node : Option Nat) :
    Option (BmErr × BmCbQueue α) :=
  match node with
  | none => some (.enomem, q)
  | some node => do
    let cbList ← q.cbList.itemAdd node q.addId cb
    some (.ok, { q with cbList, addId := q.addId + 1 })

/-- `queue_cb_dequeue`, with the callback that is invoked. `call` is what a callback returns, none
if it is NULL. -/
def queueCbDequeue (call : α → Option BmErr) (q : BmCbQueue α) (invoke : Bool) :
    Option (BmErr × Option α × BmCbQueue α) :=
  if q.addId = q.getId then some (.ecanceled, none, q)
  else do
    match ← q.cbList.getItem q.getId with
    | none => some (.enodev, none, { q with getId := q.getId + 1 })
    | some cb =>
      let ret := if invoke then call cb else none
      let (cbList, _) ← q.cbList.remove q.getId
      some (ret.getD .ok, ret.map fun _ => cb, { q with cbList, getId := q.getId + 1 })

/-- `(*cb)(arg)` where `cb` is invoked. A callback returns an error code for the argument and
changes a state in which the queue is not; `run` is none for NULL. -/
def invokeCb (run : α → Option (β → S → BmErr × S)) (cb : α) (arg : β) (invoke : Bool) (s : S) :
    BmErr × S :=
  match run cb with
  | some f => if invoke then f arg s else (.ok, s)
  | none => (.ok, s)

/-- `queue_cb_dequeue` with its argument and the state the callbacks change. -/
def queueCbDequeueArg (run : α → Option (β → S → BmErr × S)) (q : BmCbQueue α) (arg : β)
    (invoke : Bool) (s : S) : Option (BmErr × S × BmCbQueue α) :=
  if q.addId = q.getId then some (.ecanceled, s, q)
  else do
    match ← q.cbList.getItem q.getId with
    | none => some (.enodev, s, { q with getId := q.getId + 1 })
    | some cb =>
      let (err, s) := invokeCb run cb arg invoke s
      let (cbList, _) ← q.cbList.remove q.getId
      some (err, s, { q with cbList, getId := q.getId + 1 })

/-- Where only the error code of a callback matters, the state can record which one was invoked. -/
theorem queueCbDequeue_eq (call : α → Option BmErr) (q : BmCbQueue α) (invoke : Bool) :
    queueCbDequeue call q invoke = q.queueCbDequeueArg
      (fun cb => (call cb).map fun err _ _ => (err, some cb)) () invoke none := by
  unfold queueCbDequeue queueCbDequeueArg
  split
  · rfl
  · congr 1
    funext found
    cases found with
    | none => rfl
    | some cb => cases hcall : call cb <;> cases invoke <;> simp [invokeCb, hcall]

/-! ## The queue as a list -/

/-- Identifiers counted up from `id`. -/
def numbered : UInt32 → List α → List (UInt32 × α)
  | _, [] => []
  | id, cb :: cbs => (id, cb) :: numbered (id + 1) cbs

/-- The callbacks `cbs` wait, the first one is dequeued next. -/
def Queued (q : BmCbQueue α) (cbs : List α) : Prop :=
  ∃ es, Linked q.cbList es ∧ es.map payload = numbered q.getId cbs ∧
    q.addId = q.getId + .ofNat cbs.length

theorem numbered_append (id : UInt32) (cbs : List α) (cb : α) :
    numbered id (cbs ++ [cb]) = numbered id cbs ++ [(id + .ofNat cbs.length, cb)] := by
  induction cbs generalizing id with
  | nil => simp [numbered]
  | cons cb' cbs ih =>
    have hnext : id + 1 + UInt32.ofNat cbs.length = id + .ofNat (cb' :: cbs).length := by
      rw [List.length_cons, UInt32.ofNat_add]
      grind
    rw [List.cons_append, numbered, ih, hnext]
    rfl

theorem queued_empty : Queued (empty : BmCbQueue α) [] := ⟨[], Linked.empty, rfl, rfl⟩

section Queued
variable {q : BmCbQueue α} {cb : α} {cbs : List α}

/-- There is room for one more as long as the identifiers do not come full circle. -/
theorem Queued.room (h : Queued q cbs) (hlen : cbs.length < 2 ^ 32)
    (hroom : q.addId + 1 ≠ q.getId) :
    cbs.length + 1 < 2 ^ 32 := by
  obtain ⟨-, -, -, hadd⟩ := h
  by_contra hfull
  have hall : cbs.length + 1 = 2 ^ 32 := by omega
  apply hroom
  have hzero : UInt32.ofNat (cbs.length + 1) = 0 := by rw [hall]; rfl
  rw [UInt32.ofNat_add] at hzero
  grind

/-- A callback is enqueued behind the others. -/
theorem Queued.enqueue (h : Queued q cbs) (cb : α) {node : Nat} (hnode : node ∉ q.cbList.heap) :
    ∃ q', queueCbEnqueue q cb (some node) = some (.ok, q') ∧ Queued q' (cbs ++ [cb]) := by
  obtain ⟨es, hlinked, hes, hadd⟩ := h
  obtain ⟨ll, es', hitem, hlinked', hview, -⟩ := itemAdd_linked hlinked hnode q.addId cb
  refine ⟨⟨ll, q.addId + 1, q.getId⟩, by simp [queueCbEnqueue, hitem], _, hlinked', ?_, ?_⟩
  · rw [List.map_append, map_payload_of_view hview, hes, numbered_append, ← hadd]
    rfl
  · have hone : UInt32.ofNat [cb].length = 1 := rfl
    rw [List.length_append, UInt32.ofNat_add, hone]
    dsimp only
    grind

/-- Nothing is dequeued from an empty queue. -/
theorem Queued.dequeueArg_empty (h : Queued q []) (run : α → Option (β → S → BmErr × S)) (arg : β)
    (invoke : Bool) (s : S) :
    q.queueCbDequeueArg run arg invoke s = some (.ecanceled, s, q) := by
  obtain ⟨-, -, -, hadd⟩ := h
  have hsame : q.addId = q.getId := by simpa using hadd
  rw [queueCbDequeueArg, if_pos hsame]

/-- The first callback is dequeued. It is invoked if that is asked for and it is not NULL. -/
theorem Queued.dequeueArg (h : Queued q (cb :: cbs)) (hlen : (cb :: cbs).length < 2 ^ 32)
    (run : α → Option (β → S → BmErr × S)) (arg : β) (invoke : Bool) (s : S) :
    ∃ q', q.queueCbDequeueArg run arg invoke s =
        some ((invokeCb run cb arg invoke s).1, (invokeCb run cb arg invoke s).2, q') ∧
      Queued q' cbs := by
  obtain ⟨es, hlinked, hes, hadd⟩ := h
  obtain ⟨e, es, rfl, he, hrest⟩ := List.map_eq_cons_iff.mp hes
  have hid : e.2.id = q.getId := congrArg Prod.fst he
  have hdata : e.2.data = cb := congrArg Prod.snd he
  have hne : q.addId ≠ q.getId := by
    intro heq
    have hzero : UInt32.ofNat (cb :: cbs).length = 0 := by grind
    have hnat := congrArg UInt32.toNat hzero
    rw [UInt32.toNat_ofNat_of_lt' hlen] at hnat
    simp at hnat
  have hsplit : Linked q.cbList ([] ++ e :: es) := hlinked
  have hfound := getItem_found hsplit.walkable (by simp) hid
  obtain ⟨hremove, hlinked'⟩ := remove_head hlinked hid
  refine ⟨⟨q.cbList.unlinkHead e, q.addId, q.getId + 1⟩, ?_, es, hlinked', hrest, ?_⟩
  · rw [queueCbDequeueArg, if_neg hne]
    simp [hfound, hremove, hdata]
  · rw [List.length_cons, UInt32.ofNat_add] at hadd
    dsimp only
    grind

theorem Queued.dequeue (h : Queued q (cb :: cbs)) (hlen : (cb :: cbs).length < 2 ^ 32)
    (call : α → Option BmErr) (invoke : Bool) :
    let ret := if invoke then call cb else none
    ∃ q', queueCbDequeue call q invoke = some (ret.getD .ok, ret.map fun _ => cb, q') ∧
      Queued q' cbs := by
  obtain ⟨q', hdequeue, hqueued⟩ := h.dequeueArg hlen
    (fun cb => (call cb).map fun err _ _ => (err, some cb)) () invoke none
  refine ⟨q', ?_, hqueued⟩
  rw [queueCbDequeue_eq, hdequeue]
  cases hcall : call cb <;> cases invoke <;> simp [invokeCb, hcall]

end Queued

/-! ## Runs -/

/-- A call. An enqueue comes with the item that `ll_create_item` allocates, if it can. -/
inductive Call (α β : Type) where
  | enqueue (cb : α) (node : Option Nat)
  | dequeue (arg : β) (invoke : Bool)

/-- The item is not one that is in use. -/
def Call.Fresh (q : BmCbQueue α) : Call α β → Prop
  | .enqueue _ (some node) => node ∉ q.cbList.heap
  | .enqueue _ none | .dequeue _ _ => True

instance (q : BmCbQueue α) : (call : Call α β) → Decidable (call.Fresh q)
  | .enqueue _ (some node) => inferInstanceAs (Decidable (node ∉ q.cbList.heap))
  | .enqueue _ none | .dequeue _ _ => .isTrue trivial

/-- The error code of a call, none where it has no result. -/
def step (run : α → Option (β → S → BmErr × S)) :
    BmCbQueue α × S → Call α β → Option BmErr × BmCbQueue α × S
  | (q, s), .enqueue cb node =>
    match q.queueCbEnqueue cb node with
    | some (err, q) => (some err, q, s)
    | none => (none, q, s)
  | (q, s), .dequeue arg invoke =>
    match q.queueCbDequeueArg run arg invoke s with
    | some (err, s, q) => (some err, q, s)
    | none => (none, q, s)

end BmCbQueue

open BmCbQueue in
/-- A list of callbacks. -/
def CbFifo.step {α β S : Type} (run : α → Option (β → S → BmErr × S)) :
    List α × S → Call α β → Option BmErr × List α × S
  | (cbs, s), .enqueue _ none => (some .enomem, cbs, s)
  | (cbs, s), .enqueue cb (some _) => (some .ok, cbs ++ [cb], s)
  | ([], s), .dequeue _ _ => (some .ecanceled, [], s)
  | (cb :: cbs, s), .dequeue arg invoke =>
    (some (invokeCb run cb arg invoke s).1, cbs, (invokeCb run cb arg invoke s).2)

namespace BmCbQueue
variable {α β S : Type} {q : BmCbQueue α} {cbs : List α}

/-- Every call does what the list does. -/
theorem Queued.step (h : Queued q cbs) (hlen : cbs.length < 2 ^ 32)
    (run : α → Option (β → S → BmErr × S)) (s : S) (call : Call α β) (hfresh : call.Fresh q) :
    (BmCbQueue.step run (q, s) call).1 = (CbFifo.step run (cbs, s) call).1 ∧
      Queued (BmCbQueue.step run (q, s) call).2.1 (CbFifo.step run (cbs, s) call).2.1 ∧
      (BmCbQueue.step run (q, s) call).2.2 = (CbFifo.step run (cbs, s) call).2.2 := by
  cases call with
  | enqueue cb node =>
    cases node with
    | none => exact ⟨rfl, h, rfl⟩
    | some node =>
      obtain ⟨q', henqueue, hqueued⟩ := h.enqueue cb hfresh
      simp only [BmCbQueue.step, henqueue, CbFifo.step]
      exact ⟨trivial, hqueued, trivial⟩
  | dequeue arg invoke =>
    cases cbs with
    | nil =>
      simp only [BmCbQueue.step, h.dequeueArg_empty, CbFifo.step]
      exact ⟨trivial, h, trivial⟩
    | cons cb cbs =>
      obtain ⟨q', hdequeue, hqueued⟩ := h.dequeueArg hlen run arg invoke s
      simp only [BmCbQueue.step, hdequeue, CbFifo.step]
      exact ⟨trivial, hqueued, trivial⟩

/-- An enqueue that fails changes nothing. -/
theorem queueCbEnqueue_failed {q q' : BmCbQueue α} {cb : α} {node : Option Nat} {err : BmErr}
    (h : q.queueCbEnqueue cb node = some (err, q')) (herr : err ≠ .ok) : q' = q := by
  cases node with
  | none =>
    obtain ⟨-, rfl⟩ := Prod.mk.inj (Option.some.inj h)
    rfl
  | some node =>
    simp only [queueCbEnqueue, Option.bind_eq_bind, Option.bind_eq_some_iff, Option.some.injEq,
      Prod.mk.injEq] at h
    obtain ⟨-, -, hok, -⟩ := h
    exact absurd hok.symm herr

end BmCbQueue

open BmCbQueue in
/-- **The callback queue is first in, first out.** In every run with fewer than 2^32 callbacks in
the queue it answers as a list does. A dequeue takes the oldest callback and invokes it once, where
that is asked for and it is not NULL; from an empty queue it takes nothing. -/
theorem cb_queue_fifo {α β S : Type} (run : α → Option (β → S → BmErr × S)) (s : S)
    (calls : List (Call α β))
    (hfresh : Along (fun t call => (BmCbQueue.step run t call).2) (fun t call => call.Fresh t.1)
      (empty, s) calls)
    (hroom : Along (fun t call => (CbFifo.step run t call).2)
      (fun t call => (CbFifo.step run t call).2.1.length < 2 ^ 32) ([], s) calls) :
    let queue := answers (BmCbQueue.step run) (empty, s) calls
    let list := answers (CbFifo.step run) ([], s) calls
    queue.1 = list.1 ∧ queue.2.2 = list.2.2 ∧ Queued queue.2.1 list.2.1 ∧
      (∀ cb cbs arg invoke, list.2.1 = cb :: cbs → ∃ q',
        queue.2.1.queueCbDequeueArg run arg invoke queue.2.2 =
          some ((invokeCb run cb arg invoke queue.2.2).1,
            (invokeCb run cb arg invoke queue.2.2).2, q') ∧ Queued q' cbs) ∧
      (∀ arg invoke, list.2.1 = [] → queue.2.1.queueCbDequeueArg run arg invoke queue.2.2 =
        some (.ecanceled, queue.2.2, queue.2.1)) ∧
      ∀ cb node err q', queue.2.1.queueCbEnqueue cb node = some (err, q') → err ≠ .ok →
        q' = queue.2.1 := by
  intro queue list
  have hkept : ∀ (t : BmCbQueue α × S) (l : List α × S) (call : Call α β),
      (Queued t.1 l.1 ∧ t.2 = l.2 ∧ l.1.length < 2 ^ 32) → call.Fresh t.1 →
      (CbFifo.step run l call).2.1.length < 2 ^ 32 →
      (BmCbQueue.step run t call).1 = (CbFifo.step run l call).1 ∧
        Queued (BmCbQueue.step run t call).2.1 (CbFifo.step run l call).2.1 ∧
        (BmCbQueue.step run t call).2.2 = (CbFifo.step run l call).2.2 ∧
        (CbFifo.step run l call).2.1.length < 2 ^ 32 := by
    rintro ⟨q, s⟩ ⟨cbs, s'⟩ call ⟨h, rfl, hlen⟩ hfresh hroom
    obtain ⟨hanswer, hnext, hstate⟩ := h.step hlen run s call hfresh
    exact ⟨hanswer, hnext, hstate, hroom⟩
  obtain ⟨hanswers, hend⟩ := answers_refine_along hkept ⟨queued_empty, rfl, by simp⟩ hfresh hroom
  obtain ⟨hqueued, hstate, hlen⟩ :
    Queued queue.2.1 list.2.1 ∧ queue.2.2 = list.2.2 ∧ list.2.1.length < 2 ^ 32 := hend
  refine ⟨hanswers, hstate, hqueued, ?_, ?_, ?_⟩
  · intro cb cbs arg invoke hlist
    rw [hlist] at hqueued hlen
    exact hqueued.dequeueArg hlen run arg invoke queue.2.2
  · intro arg invoke hlist
    rw [hlist] at hqueued
    exact hqueued.dequeueArg_empty run arg invoke queue.2.2
  · intro cb node err q' henqueue herr
    exact queueCbEnqueue_failed henqueue herr

/-- A callback that records its argument, one that fails and NULL; the last enqueue and the last
dequeue fail. -/
theorem cb_queue_fifo_three :
    let run : Nat → Option (Nat → List Nat → BmErr × List Nat) := fun cb =>
      if cb = 0 then none else some fun arg log => (if cb = 1 then .ok else .ebadmsg, log ++ [arg])
    let calls : List (BmCbQueue.Call Nat Nat) :=
      [.enqueue 1 (some 40), .enqueue 2 (some 10), .dequeue 7 true, .enqueue 0 (some 40),
        .enqueue 1 none, .dequeue 8 true, .dequeue 9 true, .dequeue 9 true]
    (answers (BmCbQueue.step run) (.empty, []) calls).1 =
        [some .ok, some .ok, some .ok, some .ok, some .enomem, some .ebadmsg, some .ok,
          some .ecanceled] ∧
      (answers (BmCbQueue.step run) (.empty, []) calls).2.2 = [7, 8] := by
  intro run calls
  obtain ⟨hanswers, hstate, -⟩ := cb_queue_fifo run [] calls (by decide) (by decide)
  exact ⟨hanswers, hstate⟩

end BmCore
