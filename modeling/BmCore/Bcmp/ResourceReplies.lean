import BmCore.Bcmp.Resources
import BmCore.Library.Bytes
import BmCore.Library.Runs
import Mathlib.Logic.Function.Basic

/-!
# Resource table replies

A reply is sized, allocated and filled in five steps, and the lock of a list is held only while the
list is sized and again while it is copied: other tasks may add resources in between. Any number of
replies may be under way, for requests of other nodes and for the local node. -/
namespace BmCore.Bcmp
open Library

/-! ## One reply -/

/-- `bcmp_process_resource_discovery_request` or `bcmp_resource_discovery_get_local_resources` -/
inductive ReplyKind where
  | request | localResources
  deriving DecidableEq, Repr

/-- The lengths that a reply can tell: those of 16 bits for `bcmp_tx`, those of the offsets
otherwise. -/
def ReplyKind.lengthLimit : ReplyKind → Nat
  | .request => 2 ^ 16
  | .localResources => 2 ^ 32

/-- What a reply does next. -/
inductive ReplyPhase where
  | sizePub | sizeSub | allocate | populatePub | populateSub | finished | failed
  deriving DecidableEq, Repr

/-- `sizeof(BcmpResourceTableReply)` -/
def replyHeaderSize : Nat := 12

/-- `BcmpResource` in memory. -/
def resourceBytes (resource : List UInt8) : List UInt8 := leBytes 2 resource.length ++ resource

/-- What the loop of `bcmp_resource_compute_list_size` adds to the length. -/
def listSize (resources : List (List UInt8)) : Nat := (resources.map fun r => 2 + r.length).sum

/-- The local variables of a reply. The writes are those of the loops that copy the resources: where
in the buffer, and what. -/
structure ReplyTask where
  kind : ReplyKind
  phase : ReplyPhase := .sizePub
  msgLen : Nat := replyHeaderSize
  allocated : Option Nat := none
  dataOffset : UInt32 := 0
  numPubs : UInt16 := 0
  numSubs : UInt16 := 0
  writes : List (Nat × List UInt8) := []
  deriving DecidableEq, Repr

/-- The loop of `bcmp_resource_populate_msg_data`: the offset at its end and what it has written. -/
def copyResources : List (List UInt8) → UInt32 → UInt32 × List (Nat × List UInt8)
  | [], offset => (offset, [])
  | r :: rs, offset =>
    let (last, writes) := copyResources rs (offset + UInt32.ofNat (2 + r.length))
    (last, (replyHeaderSize + offset.toNat, resourceBytes r) :: writes)

namespace ReplyTask

/-- The resources of a list are copied. -/
def populate (list : ResourceList) (task : ReplyTask) : ReplyTask :=
  let (offset, writes) := copyResources list.resources task.dataOffset
  { task with dataOffset := offset, writes := task.writes ++ writes }

/-- The next section of a reply; `ok` says whether its lock is taken, or its memory allocated. -/
def advance (t : ResourceTable) (ok : Bool) (task : ReplyTask) : ReplyTask :=
  match task.phase with
  | .sizePub =>
    if ok then { task with phase := .sizeSub, msgLen := task.msgLen + listSize t.pub.resources }
    else { task with phase := .failed }
  | .sizeSub =>
    if ok then { task with phase := .allocate, msgLen := task.msgLen + listSize t.sub.resources }
    else { task with phase := .failed }
  | .allocate =>
    if ok then { task with phase := .populatePub, allocated := some task.msgLen }
    else { task with phase := .failed }
  | .populatePub =>
    if ok then { task.populate t.pub with phase := .populateSub, numPubs := t.pub.numResources }
    else { task with phase := .failed }
  | .populateSub =>
    if ok then { task.populate t.sub with phase := .finished, numSubs := t.sub.numResources }
    else { task with phase := .failed }
  | .finished | .failed => task

/-- The length that goes with a reply: `bcmp_tx` takes it in 16 bits. -/
def replyLength (task : ReplyTask) : Nat :=
  match task.kind with
  | .request => task.msgLen % 2 ^ 16
  | .localResources => task.msgLen

/-- The reply is between the size and the copy of the list of a type. -/
def Awaits (task : ReplyTask) : ResourceType → Prop
  | .pub => task.phase = .sizeSub ∨ task.phase = .allocate ∨ task.phase = .populatePub
  | .sub => task.phase = .allocate ∨ task.phase = .populatePub ∨ task.phase = .populateSub

end ReplyTask

/-- Resources end to end, from an offset on. -/
def layout : Nat → List (List UInt8) → List (Nat × List UInt8)
  | _, [] => []
  | offset, r :: rs => (offset, resourceBytes r) :: layout (offset + (2 + r.length)) rs

/-- What is expected of a reply: it writes within its buffer, and in the end its counts and its
length are those of the resources in it, which stand end to end behind the header. -/
structure ReplyTask.Consistent (task : ReplyTask) : Prop where
  fits : ∀ w ∈ task.writes, ∃ size, task.allocated = some size ∧ w.1 + w.2.length ≤ size
  describes : task.phase = .finished → ∃ pubs subs,
    task.writes = layout replyHeaderSize (pubs ++ subs) ∧ task.numPubs.toNat = pubs.length ∧
      task.numSubs.toNat = subs.length ∧
      task.replyLength = replyHeaderSize + listSize (pubs ++ subs)

/-! ## All replies -/

/-- The table, and the replies under way. -/
structure ResourceSystem (ι : Type) where
  table : ResourceTable
  tasks : ι → ReplyTask

inductive ResourceEvent (ι : Type) where
  | add (resource : List UInt8) (type : ResourceType) (beyond : Nat → Nat → UInt8)
      (locked nodeMemory : Bool)
  | turn (i : ι) (ok : Bool)

namespace ResourceSystem
variable {ι : Type} [DecidableEq ι]

def init (kind : ι → ReplyKind) : ResourceSystem ι := ⟨{}, fun i => { kind := kind i }⟩

def step (s : ResourceSystem ι) : ResourceEvent ι → ResourceSystem ι
  | .add resource type beyond locked nodeMemory =>
    { s with table := (addResource resource type beyond locked nodeMemory s.table).2 }
  | .turn i ok => { s with tasks := Function.update s.tasks i ((s.tasks i).advance s.table ok) }

/-- A resource is stored only while no reply is between the size and the copy of its list, and while
the list can be counted; a reply is allocated only with a length that can be told. -/
def Undisturbed (s : ResourceSystem ι) : ResourceEvent ι → Prop
  | .add resource type beyond locked nodeMemory =>
    locked = true → nodeMemory = true →
      findResourcePriv resource beyond 0 (s.table.get type).resources = false →
      (∀ i, ¬(s.tasks i).Awaits type) ∧ (s.table.get type).resources.length + 1 < 2 ^ 16
  | .turn i _ => (s.tasks i).phase = .allocate → (s.tasks i).msgLen < (s.tasks i).kind.lengthLimit

end ResourceSystem

/-! ## Sizes -/

theorem listSize_append (rs rs' : List (List UInt8)) :
    listSize (rs ++ rs') = listSize rs + listSize rs' := by
  simp [listSize]

theorem listSize_cons (r : List UInt8) (rs : List (List UInt8)) :
    listSize (r :: rs) = (2 + r.length) + listSize rs := by simp [listSize]

theorem resourceBytes_length (r : List UInt8) : (resourceBytes r).length = 2 + r.length := by
  simp [resourceBytes]

theorem layout_append (offset : Nat) (rs rs' : List (List UInt8)) :
    layout offset (rs ++ rs') = layout offset rs ++ layout (offset + listSize rs) rs' := by
  induction rs generalizing offset with
  | nil => rfl
  | cons r rs ih =>
    rw [List.cons_append, layout, layout, ih, listSize_cons, List.cons_append, Nat.add_assoc]

theorem layout_fits {offset : Nat} {rs : List (List UInt8)} {w : Nat × List UInt8}
    (hw : w ∈ layout offset rs) : w.1 + w.2.length ≤ offset + listSize rs := by
  induction rs generalizing offset with
  | nil => simp [layout] at hw
  | cons r rs ih =>
    rw [listSize_cons]
    rcases List.mem_cons.mp hw with rfl | hw
    · rw [resourceBytes_length]
      omega
    · have := ih hw
      omega

/-- Below 2^32 bytes the resources are copied end to end. -/
theorem copyResources_eq {rs : List (List UInt8)} {n : Nat} (h : n + listSize rs < 2 ^ 32) :
    copyResources rs (UInt32.ofNat n) =
      (UInt32.ofNat (n + listSize rs), layout (replyHeaderSize + n) rs) := by
  induction rs generalizing n with
  | nil => rfl
  | cons r rs ih =>
    rw [listSize_cons] at h ⊢
    have hn : (UInt32.ofNat n).toNat = n := UInt32.toNat_ofNat_of_lt' (by change n < 2 ^ 32; omega)
    have hnext := ih (n := n + (2 + r.length)) (by omega)
    rw [copyResources, ← UInt32.ofNat_add, hnext, hn, layout]
    simp only [Nat.add_assoc]

/-! ## The invariant -/

/-- Where a reply is: what it has sized is still what there is to copy. -/
def ReplyTask.Inv (t : ResourceTable) (task : ReplyTask) : Prop :=
  match task.phase with
  | .sizePub => task.msgLen = replyHeaderSize ∧ task.writes = [] ∧ task.dataOffset = 0
  | .sizeSub =>
    task.msgLen = replyHeaderSize + listSize t.pub.resources ∧ task.writes = [] ∧
      task.dataOffset = 0
  | .allocate =>
    task.msgLen = replyHeaderSize + listSize t.pub.resources + listSize t.sub.resources ∧
      task.writes = [] ∧ task.dataOffset = 0
  | .populatePub =>
    task.msgLen = replyHeaderSize + listSize t.pub.resources + listSize t.sub.resources ∧
      task.writes = [] ∧ task.dataOffset = 0 ∧
      task.allocated = some task.msgLen ∧ task.msgLen < task.kind.lengthLimit
  | .populateSub => ∃ pubs,
    task.msgLen = replyHeaderSize + listSize pubs + listSize t.sub.resources ∧
      task.writes = layout replyHeaderSize pubs ∧ task.dataOffset = UInt32.ofNat (listSize pubs) ∧
      task.allocated = some task.msgLen ∧ task.msgLen < task.kind.lengthLimit ∧
      task.numPubs.toNat = pubs.length
  | .finished | .failed => task.Consistent

/-- Each list counts its resources. -/
def ResourceTable.Counted (t : ResourceTable) : Prop :=
  ∀ type, (t.get type).numResources.toNat = (t.get type).resources.length

theorem ReplyKind.lengthLimit_le (kind : ReplyKind) : kind.lengthLimit ≤ 2 ^ 32 := by
  cases kind <;> simp [lengthLimit]

section Tasks
variable {t t' : ResourceTable} {task : ReplyTask}

theorem ReplyTask.consistent_of_nil (hwrites : task.writes = []) (hphase : task.phase ≠ .finished) :
    task.Consistent := ⟨by simp [hwrites], fun h => absurd h hphase⟩

theorem ReplyTask.Inv.consistent (h : task.Inv t) : task.Consistent := by
  unfold ReplyTask.Inv at h
  split at h
  · exact consistent_of_nil h.2.1 (by simp [*])
  · exact consistent_of_nil h.2.1 (by simp [*])
  · exact consistent_of_nil h.2.1 (by simp [*])
  · exact consistent_of_nil h.2.1 (by simp [*])
  · obtain ⟨pubs, hlen, hwrites, -, halloc, -⟩ := h
    refine ⟨fun w hw => ⟨task.msgLen, halloc, ?_⟩, by simp [*]⟩
    rw [hwrites] at hw
    have := layout_fits hw
    omega
  · exact h
  · exact h

/-- Giving up keeps what has been written. -/
theorem ReplyTask.Inv.fail (h : task.Inv t) : ReplyTask.Inv t { task with phase := .failed } :=
  ⟨h.consistent.fits, by simp⟩

theorem ReplyTask.populate_eq {list : ResourceList} {n : Nat}
    (hoffset : task.dataOffset = UInt32.ofNat n) (h : n + listSize list.resources < 2 ^ 32) :
    task.populate list = { task with
      dataOffset := UInt32.ofNat (n + listSize list.resources)
      writes := task.writes ++ layout (replyHeaderSize + n) list.resources } := by
  rw [populate, hoffset, copyResources_eq h]

/-- The publishers are copied behind the header. -/
theorem ReplyTask.Inv.populatePub (h : task.Inv t) (ht : t.Counted)
    (hphase : task.phase = .populatePub) : ReplyTask.Inv t { task.populate t.pub with
      phase := .populateSub
      numPubs := t.pub.numResources } := by
  simp only [ReplyTask.Inv, hphase] at h
  obtain ⟨hlen, hwrites, hoffset, halloc, hlimit⟩ := h
  have hkind := task.kind.lengthLimit_le
  have hzero : task.dataOffset = UInt32.ofNat 0 := hoffset
  rw [populate_eq hzero (by omega)]
  refine ⟨t.pub.resources, hlen, ?_, ?_, halloc, hlimit, ht .pub⟩
  · simp [hwrites]
  · simp

/-- The subscribers are copied behind the publishers. -/
theorem ReplyTask.Inv.populateSub (h : task.Inv t) (ht : t.Counted)
    (hphase : task.phase = .populateSub) : ReplyTask.Inv t { task.populate t.sub with
      phase := .finished
      numSubs := t.sub.numResources } := by
  simp only [ReplyTask.Inv, hphase] at h
  obtain ⟨pubs, hlen, hwrites, hoffset, halloc, hlimit, hpubs⟩ := h
  have hkind := task.kind.lengthLimit_le
  rw [populate_eq hoffset (by omega)]
  have hall : task.writes ++ layout (replyHeaderSize + listSize pubs) t.sub.resources =
      layout replyHeaderSize (pubs ++ t.sub.resources) := by rw [layout_append, hwrites]
  refine ⟨fun w hw => ⟨task.msgLen, halloc, ?_⟩, fun _ =>
    ⟨pubs, t.sub.resources, hall, hpubs, ht .sub, ?_⟩⟩
  · have hw' : w ∈ layout replyHeaderSize (pubs ++ t.sub.resources) := hall ▸ hw
    have := layout_fits hw'
    rw [listSize_append] at this
    omega
  · rw [listSize_append, ← Nat.add_assoc, ← hlen]
    cases hk : task.kind with
    | request =>
      rw [hk] at hlimit
      exact (by simp [replyLength] : _ = task.msgLen % 2 ^ 16).trans (Nat.mod_eq_of_lt hlimit)
    | localResources => simp [replyLength]

/-- A section of a reply keeps the invariant, with the table as it is. -/
theorem ReplyTask.Inv.advance (h : task.Inv t) (ht : t.Counted)
    (hlimit : task.phase = .allocate → task.msgLen < task.kind.lengthLimit) (ok : Bool) :
    (task.advance t ok).Inv t := by
  unfold ReplyTask.advance
  cases ok with
  | false =>
    have hfail := h.fail
    split <;> first | exact hfail | exact h
  | true =>
    split
    · rename_i hphase
      simp only [ReplyTask.Inv, hphase] at h
      exact ⟨congrArg (· + listSize t.pub.resources) h.1, h.2⟩
    · rename_i hphase
      simp only [ReplyTask.Inv, hphase] at h
      exact ⟨congrArg (· + listSize t.sub.resources) h.1, h.2⟩
    · rename_i hphase
      simp only [ReplyTask.Inv, hphase] at h
      exact ⟨h.1, h.2.1, h.2.2, rfl, hlimit hphase⟩
    · rename_i hphase
      exact h.populatePub ht hphase
    · rename_i hphase
      exact h.populateSub ht hphase
    · exact h
    · exact h

/-- A reply does not notice a list that it does not await. -/
theorem ReplyTask.Inv.congr (h : task.Inv t)
    (hpub : task.Awaits .pub → t'.pub.resources = t.pub.resources)
    (hsub : task.Awaits .sub → t'.sub.resources = t.sub.resources) : task.Inv t' := by
  unfold ReplyTask.Inv at h ⊢
  split at h
  · exact h
  · rename_i hphase
    rw [hpub (.inl hphase)]
    exact h
  · rename_i hphase
    rw [hpub (.inr (.inl hphase)), hsub (.inl hphase)]
    exact h
  · rename_i hphase
    rw [hpub (.inr (.inr hphase)), hsub (.inr (.inl hphase))]
    exact h
  · rename_i hphase
    rw [hsub (.inr (.inr hphase))]
    exact h
  · exact h
  · exact h

end Tasks

/-! ## Runs -/

/-- What a call of `bcmp_resource_discovery_add_resource` does to the table. -/
theorem addResource_cases (resource : List UInt8) (type : ResourceType) (beyond : Nat → Nat → UInt8)
    (locked nodeMemory : Bool) (t : ResourceTable) :
    (addResource resource type beyond locked nodeMemory t).2 = t ∨
      (locked = true ∧ nodeMemory = true ∧
        findResourcePriv resource beyond 0 (t.get type).resources = false ∧
        (addResource resource type beyond locked nodeMemory t).2 =
          t.set type ⟨(t.get type).resources ++ [resource], (t.get type).numResources + 1⟩) := by
  cases locked <;> cases nodeMemory <;>
    cases hfound : findResourcePriv resource beyond 0 (t.get type).resources <;>
    simp [addResource, hfound]

namespace ResourceSystem
variable {ι : Type} {s : ResourceSystem ι} {e : ResourceEvent ι}

structure Inv (s : ResourceSystem ι) : Prop where
  counted : s.table.Counted
  tasks : ∀ i, (s.tasks i).Inv s.table

theorem inv_init (kind : ι → ReplyKind) : (init kind).Inv := by
  refine ⟨fun type => ?_, fun i => ⟨rfl, rfl, rfl⟩⟩
  cases type <;> rfl

variable [DecidableEq ι]

theorem Inv.step (h : s.Inv) (he : s.Undisturbed e) : (s.step e).Inv := by
  cases e with
  | add resource type beyond locked nodeMemory =>
    rcases addResource_cases resource type beyond locked nodeMemory s.table with
      hsame | ⟨hlocked, hmemory, hfound, hset⟩
    · rw [ResourceSystem.step, hsame]
      exact h
    · obtain ⟨hawaits, hroom⟩ := he hlocked hmemory hfound
      rw [ResourceSystem.step, hset]
      refine ⟨fun t => ?_, fun i => ?_⟩
      · by_cases ht : t = type
        · subst ht
          rw [ResourceTable.get_set, UInt16.toNat_add, h.counted t, List.length_append,
            List.length_singleton]
          exact Nat.mod_eq_of_lt hroom
        · rw [ResourceTable.get_set_ne _ ht]
          exact h.counted t
      · refine (h.tasks i).congr (fun hpub => ?_) fun hsub => ?_
        · cases type with
          | pub => exact absurd hpub (hawaits i)
          | sub => rfl
        · cases type with
          | pub => rfl
          | sub => exact absurd hsub (hawaits i)
  | turn i ok =>
    refine ⟨h.counted, fun j => ?_⟩
    change (Function.update s.tasks i ((s.tasks i).advance s.table ok) j).Inv s.table
    by_cases hj : j = i
    · subst hj
      rw [Function.update_self]
      exact (h.tasks j).advance h.counted he ok
    · rw [Function.update_of_ne hj]
      exact h.tasks j

/-- In every run in which no resource is stored between the size and the copy of its list in a
reply, every reply writes within its buffer, and its counts and its length describe what it has
written. -/
theorem replies_consistent (kind : ι → ReplyKind) (events : List (ResourceEvent ι))
    (h : Along step Undisturbed (init kind) events) (i : ι) :
    ((events.foldl step (init kind)).tasks i).Consistent := by
  have hinv : (events.foldl step (init kind)).Inv :=
    foldl_invariant (fun _ _ hinv he => hinv.step he) (inv_init kind) h
  exact (hinv.tasks i).consistent

/-- A request that is answered with one publisher. -/
def answered : List (ResourceEvent Unit) :=
  [.add [0x61] .pub (fun _ _ => 0) true true, .turn () true, .turn () true, .turn () true,
    .turn () true, .turn () true]

theorem replies_consistent_answered :
    ((answered.foldl step (init fun _ => .request)).tasks ()).Consistent :=
  replies_consistent (fun _ => .request) answered (by
    simp only [answered, Along, Undisturbed, and_true]
    refine ⟨?_, ?_, ?_, ?_, ?_, ?_⟩
    · intro _ _ _
      exact ⟨fun _ hawaits => by simp [ReplyTask.Awaits, init] at hawaits, by decide⟩
    all_goals decide +kernel) ()

/-- A publisher is added after the publishers have been sized. -/
def disturbed : List (ResourceEvent Unit) :=
  [.turn () true, .add [0x61] .pub (fun _ _ => 0) true true, .turn () true, .turn () true,
    .turn () true]

/-- Three bytes are written behind a buffer of twelve. -/
theorem disturbed_overflows :
    ((disturbed.foldl step (init fun _ => .request)).tasks ()).allocated = some 12 ∧
      ((disturbed.foldl step (init fun _ => .request)).tasks ()).writes = [(12, [1, 0, 0x61])] ∧
      ¬((disturbed.foldl step (init fun _ => .request)).tasks ()).Consistent := by
  have halloc : ((disturbed.foldl step (init fun _ => .request)).tasks ()).allocated = some 12 := by
    decide +kernel
  have hwrites : ((disturbed.foldl step (init fun _ => .request)).tasks ()).writes =
      [(12, [1, 0, 0x61])] := by decide +kernel
  refine ⟨halloc, hwrites, fun h => ?_⟩
  obtain ⟨size, hsize, hle⟩ := h.fits (12, [1, 0, 0x61]) (by simp [hwrites])
  rw [halloc, Option.some.injEq] at hsize
  subst hsize
  simp at hle

end ResourceSystem

end BmCore.Bcmp
