import BmCore.Common.Util
import Mathlib.Data.List.Induction

/-!
# The resource table

`bcmp/resource_discovery.c`: the names of the topics that this node publishes and subscribes to. A
name is looked up with a `memcmp` over the length of the name that is looked for, whatever the
length of the stored one: it finds every stored name that begins with it, and reads on behind a
shorter one. -/
namespace BmCore.Bcmp

inductive ResourceType where
  | pub | sub
  deriving DecidableEq, Repr

/-- `BcmpResourceList` without its lock: the stored names, in the order of the list. A name is the
`resource_len` bytes behind its length. -/
structure ResourceList where
  resources : List (List UInt8) := []
  numResources : UInt16 := 0
  deriving DecidableEq, Repr

/-- `PUB_LIST` and `SUB_LIST` -/
structure ResourceTable where
  pub : ResourceList := {}
  sub : ResourceList := {}
  deriving DecidableEq, Repr

namespace ResourceTable

def get (t : ResourceTable) : ResourceType → ResourceList
  | .pub => t.pub
  | .sub => t.sub

def set (t : ResourceTable) (type : ResourceType) (list : ResourceList) : ResourceTable :=
  match type with
  | .pub => { t with pub := list }
  | .sub => { t with sub := list }

@[simp] theorem get_set (t : ResourceTable) (type : ResourceType) (list : ResourceList) :
    (t.set type list).get type = list := by cases type <;> rfl

theorem get_set_ne (t : ResourceTable) {type other : ResourceType} (h : other ≠ type)
    (list : ResourceList) : (t.set type list).get other = t.get other := by
  cases type <;> cases other <;> first | rfl | exact absurd rfl h

end ResourceTable

/-! ## Lookup -/

/-- The `n` bytes at a stored name; `beyond` are the bytes that happen to be behind it. -/
def bytesAt (stored : List UInt8) (beyond : Nat → UInt8) (n : Nat) : List UInt8 :=
  (List.range n).map fun i => stored.getD i (beyond (i - stored.length))

/-- What `memcmp(resource, stored, resource_len)` says. -/
def memcmpEq (resource stored : List UInt8) (beyond : Nat → UInt8) : Bool :=
  bytesAt stored beyond resource.length == resource

/-- `bcmp_resource_discovery_find_resource_priv`; `beyond i` is the memory behind the name of the
node `i`. -/
def findResourcePriv (resource : List UInt8) (beyond : Nat → Nat → UInt8) : Nat →
    List (List UInt8) → Bool
  | _, [] => false
  | i, stored :: rest =>
    if memcmpEq resource stored (beyond i) then true else findResourcePriv resource beyond
    (i + 1) rest

/-- The stored names that the lookup compares with. -/
def comparedWith (resource : List UInt8) (beyond : Nat → Nat → UInt8) :
    Nat → List (List UInt8) → List (List UInt8)
  | _, [] => []
  | i, stored :: rest =>
    if memcmpEq resource stored (beyond i) then [stored]
    else stored :: comparedWith resource beyond (i + 1) rest

/-- No comparison of the lookup reads behind a stored name: each reads as many bytes as the name
that is looked for has. -/
def ReadsWithin (resource : List UInt8) (beyond : Nat → Nat → UInt8)
    (resources : List (List UInt8)) : Prop :=
  ∀ stored ∈ comparedWith resource beyond 0 resources, resource.length ≤ stored.length

/-! ## Calls -/

/-- `bcmp_resource_discovery_add_resource`; `locked` and `nodeMemory` are the answers of the lock
and of the second `bm_malloc`. -/
def addResource (resource : List UInt8) (type : ResourceType) (beyond : Nat → Nat → UInt8)
    (locked nodeMemory : Bool) (t : ResourceTable) : BmErr × ResourceTable :=
  let list := t.get type
  if !locked then (.etimedout, t)
  else if findResourcePriv resource beyond 0 list.resources then (.eagain, t)
  else if nodeMemory then
    (.ok, t.set type ⟨list.resources ++ [resource], list.numResources + 1⟩)
  else (.enomem, t)

/-- `bcmp_resource_discovery_find_resource`: what it returns and, if it could take the lock, what it
has found. -/
def findResource (resource : List UInt8) (type : ResourceType) (beyond : Nat → Nat → UInt8)
    (locked : Bool)
    (t : ResourceTable) : BmErr × Option Bool :=
  if locked then (.ok, some (findResourcePriv resource beyond 0 (t.get type).resources))
  else (.etimedout, none)

/-- `bcmp_resource_discovery_get_num_resources` -/
def getNumResources (type : ResourceType) (locked : Bool) (t : ResourceTable) :
    BmErr × Option UInt16 :=
  if locked then (.ok, some (t.get type).numResources) else (.etimedout, none)

/-! ## What a lookup finds -/

section Lookup
variable {resource stored : List UInt8} {resources : List (List UInt8)} {beyond : Nat → Nat → UInt8}

/-- Within a stored name the comparison tells whether the name begins with the one looked for. -/
theorem memcmpEq_iff_begins (h : resource.length ≤ stored.length) (memory : Nat → UInt8) :
    memcmpEq resource stored memory = true ↔ resource <+: stored := by
  have hbytes : bytesAt stored memory resource.length = stored.take resource.length := by
    refine List.ext_getElem (by simp [bytesAt, h]) fun i hi hi' => ?_
    have hlt : i < stored.length := by
      simp at hi'
      omega
    simp [bytesAt, List.getD, List.getElem?_eq_getElem hlt]
  rw [memcmpEq, beq_iff_eq, hbytes, List.prefix_iff_eq_take, eq_comm]

/-- The comparisons stay within the stored names exactly when all those ahead of the first that
begins with the name are long enough. -/
theorem comparedWith_iff (i : Nat) :
    (∀ stored ∈ comparedWith resource beyond i resources, resource.length ≤ stored.length) ↔
      ∀ stored ∈ resources.takeWhile (fun stored => ¬resource <+: stored),
        resource.length ≤ stored.length := by
  induction resources generalizing i with
  | nil => simp [comparedWith]
  | cons stored rest ih =>
    by_cases hprefix : resource <+: stored
    · have hmatch := (memcmpEq_iff_begins hprefix.length_le (beyond i)).mpr hprefix
      simp [comparedWith, hmatch, hprefix, hprefix.length_le]
    · rw [List.takeWhile_cons_of_pos (by simpa using hprefix)]
      by_cases hlen : resource.length ≤ stored.length
      · have hmiss : ¬memcmpEq resource stored (beyond i) = true :=
          fun h => hprefix ((memcmpEq_iff_begins hlen _).mp h)
        simp only [comparedWith, if_neg hmiss, List.forall_mem_cons, ih (i + 1)]
      · have hfirst : stored ∈ comparedWith resource beyond i (stored :: rest) := by
          unfold comparedWith
          split <;> simp
        constructor
        · intro h
          exact absurd (h stored hfirst) hlen
        · intro h
          exact absurd (h stored (by simp)) hlen

/-- A lookup that stays within the stored names finds one that begins with the name. -/
theorem findResourcePriv_iff (i : Nat)
    (h : ∀ stored ∈ comparedWith resource beyond i resources, resource.length ≤ stored.length) :
    findResourcePriv resource beyond i resources = true ↔
      ∃ stored ∈ resources, resource <+: stored := by
  induction resources generalizing i with
  | nil => simp [findResourcePriv]
  | cons stored rest ih =>
    have hlen : resource.length ≤ stored.length := by
      refine h stored ?_
      unfold comparedWith
      split <;> simp
    have hmatch := memcmpEq_iff_begins hlen (beyond i)
    by_cases hprefix : resource <+: stored
    · simp [findResourcePriv, hmatch.mpr hprefix, hprefix]
    · have hmiss : ¬memcmpEq resource stored (beyond i) = true := fun hm => hprefix (hmatch.mp hm)
      have hrest := ih (i + 1) fun t ht => h t (by simp [comparedWith, hmiss, ht])
      simp [findResourcePriv, hmiss, hrest, hprefix]

end Lookup

/-! ## Histories -/

/-- A call whose lock and allocations succeed. -/
inductive ResourceCall where
  | add (resource : List UInt8) (type : ResourceType) (beyond : Nat → Nat → UInt8)
  | find (resource : List UInt8) (type : ResourceType) (beyond : Nat → Nat → UInt8)

namespace ResourceCall

def resource : ResourceCall → List UInt8
  | .add resource _ _ => resource
  | .find resource _ _ => resource

def type : ResourceCall → ResourceType
  | .add _ type _ => type
  | .find _ type _ => type

def beyond : ResourceCall → Nat → Nat → UInt8
  | .add _ _ beyond => beyond
  | .find _ _ beyond => beyond

end ResourceCall

namespace ResourceTable

def step (t : ResourceTable) : ResourceCall → ResourceTable
  | .add resource type beyond => (addResource resource type beyond true true t).2
  | .find .. => t

/-- The table after a history of calls. -/
def after (calls : List ResourceCall) : ResourceTable := calls.foldl step {}

end ResourceTable

/-- The distinct names added for a type, in the order in which they came first. -/
def namesAdded (type : ResourceType) (calls : List ResourceCall) : List (List UInt8) :=
  calls.foldl (fun names call => match call with
    | .add resource t _ => if t = type ∧ resource ∉ names then names ++ [resource] else names
    | .find .. => names) []

/-- The name has been added for the type. -/
def Added (resource : List UInt8) (type : ResourceType) (calls : List ResourceCall) : Prop :=
  ∃ beyond, .add resource type beyond ∈ calls

/-- What is expected of a call after a history: it tells whether the very name has been added, it
reads behind no stored name, and afterwards each type counts its distinct names. -/
structure Faithful (calls : List ResourceCall) (call : ResourceCall) : Prop where
  result : match call with
    | .add resource type beyond =>
      ((addResource resource type beyond true true (.after calls)).1 = .eagain ↔
      Added resource type calls) ∧
        ((addResource resource type beyond true true (.after calls)).1 = .ok ↔
        ¬Added resource type calls)
    | .find resource type beyond =>
      ∃ found, findResource resource type beyond true (.after calls) = (.ok, some found) ∧
        (found = true ↔ Added resource type calls)
  reads : ReadsWithin call.resource call.beyond (ResourceTable.get
  (.after calls) call.type).resources
  counts : ∀ type, (ResourceTable.get (.after (calls ++ [call])) type).numResources.toNat =
    (namesAdded type (calls ++ [call])).length

/-- The name of a call can be told from those added before: the names ahead of the first that begins
with it are not shorter, and if one begins with it, it has been added itself. A new name can be
counted. -/
structure Distinguishable (names : List (List UInt8)) (call : ResourceCall) : Prop where
  long : ∀ stored ∈ names.takeWhile (fun stored => ¬call.resource <+: stored),
    call.resource.length ≤ stored.length
  listed : (∃ stored ∈ names, call.resource <+: stored) → call.resource ∈ names
  room : ∀ resource type beyond, call = .add resource type beyond → resource ∉ names →
    names.length + 1 < 2 ^ 16

theorem namesAdded_add (type t : ResourceType) (calls : List ResourceCall) (resource : List UInt8)
    (beyond : Nat → Nat → UInt8) : namesAdded type (calls ++ [.add resource t beyond]) =
      if t = type ∧ resource ∉ namesAdded type calls then namesAdded type calls ++ [resource]
      else namesAdded type calls := by
  rw [namesAdded, List.foldl_append]
  rfl

theorem namesAdded_find (type t : ResourceType) (calls : List ResourceCall) (resource : List UInt8)
    (beyond : Nat → Nat → UInt8) :
    namesAdded type (calls ++ [.find resource t beyond]) = namesAdded type calls := by
  rw [namesAdded, List.foldl_append]
  rfl

theorem mem_namesAdded {type : ResourceType} {calls : List ResourceCall} {resource : List UInt8} :
    resource ∈ namesAdded type calls ↔ Added resource type calls := by
  induction calls using List.reverseRecOn with
  | nil => simp [namesAdded, Added]
  | append_singleton calls call ih =>
    cases call with
    | add r t beyond =>
      have hadded : Added resource type (calls ++ [.add r t beyond]) ↔
          Added resource type calls ∨ (r = resource ∧ t = type) := by
        simp only [Added, List.mem_append, List.mem_singleton, ResourceCall.add.injEq, exists_or]
        refine or_congr_right ⟨?_, ?_⟩
        · rintro ⟨_, rfl, rfl, -⟩
          exact ⟨rfl, rfl⟩
        · rintro ⟨rfl, rfl⟩
          exact ⟨beyond, rfl, rfl, rfl⟩
      rw [namesAdded_add, hadded, ← ih]
      split
      · rename_i h
        simp only [List.mem_append, List.mem_singleton]
        refine or_congr_right ⟨?_, ?_⟩
        · rintro rfl
          exact ⟨rfl, h.1⟩
        · rintro ⟨rfl, -⟩
          rfl
      · rename_i h
        refine ⟨.inl, ?_⟩
        rintro (hmem | ⟨rfl, rfl⟩)
        · exact hmem
        · simpa using h
    | find r t beyond =>
      rw [namesAdded_find, ih]
      simp [Added]

/-- The table holds the distinct names that have been added. -/
def Recorded (calls : List ResourceCall) : Prop := ∀ type,
  (ResourceTable.get (.after calls) type).resources = namesAdded type calls ∧
    (ResourceTable.get (.after calls) type).numResources.toNat = (namesAdded type calls).length

theorem recorded_nil : Recorded [] := by
  intro type
  cases type <;> exact ⟨rfl, rfl⟩

theorem ResourceTable.after_concat (calls : List ResourceCall) (call : ResourceCall) :
    ResourceTable.after (calls ++ [call]) = (ResourceTable.after calls).step call := by
  rw [after, List.foldl_append]
  rfl

/-! ## One call -/

section Step
variable {calls : List ResourceCall} {resource : List UInt8} {type : ResourceType}
  {beyond : Nat → Nat → UInt8}

theorem Recorded.reads_iff (h : Recorded calls) :
    ReadsWithin resource beyond (ResourceTable.get (.after calls) type).resources ↔
      ∀ stored ∈ (namesAdded type calls).takeWhile (fun stored => ¬resource <+: stored),
        resource.length ≤ stored.length := by
  rw [ReadsWithin, comparedWith_iff, (h type).1]

/-- What the lookup of a call finds, if it stays within the stored names. -/
theorem Recorded.found_iff (h : Recorded calls)
    (hreads : ReadsWithin resource beyond (ResourceTable.get (.after calls) type).resources) :
    findResourcePriv resource beyond 0 (ResourceTable.get (.after calls) type).resources = true ↔
      ∃ stored ∈ namesAdded type calls, resource <+: stored := by
  rw [findResourcePriv_iff 0 hreads, (h type).1]

/-- The lookup tells whether the name has been added exactly when no other name stands for it. -/
theorem Recorded.tells_iff (h : Recorded calls)
    (hreads : ReadsWithin resource beyond (ResourceTable.get (.after calls) type).resources) :
    (findResourcePriv resource beyond 0 (ResourceTable.get (.after calls) type).resources = true ↔
        Added resource type calls) ↔
      ((∃ stored ∈ namesAdded type calls, resource <+: stored) →
        resource ∈ namesAdded type calls) := by
  rw [h.found_iff hreads, ← mem_namesAdded]
  refine ⟨Iff.mp, fun himp => ⟨himp, fun hmem => ⟨resource, hmem, List.prefix_refl _⟩⟩⟩

theorem add_eagain_iff (t : ResourceTable) : (addResource resource type beyond true true t).1 =
    .eagain ↔
    findResourcePriv resource beyond 0 (t.get type).resources = true := by
  cases hfound : findResourcePriv resource beyond 0
    (t.get type).resources <;> simp [addResource, hfound]

theorem add_ok_iff (t : ResourceTable) : (addResource resource type beyond true true t).1 = .ok ↔
    ¬findResourcePriv resource beyond 0 (t.get type).resources = true := by
  cases hfound : findResourcePriv resource beyond 0
    (t.get type).resources <;> simp [addResource, hfound]

/-- A name that is found is not added again. -/
theorem step_found (t : ResourceTable)
    (hfound : findResourcePriv resource beyond 0 (t.get type).resources = true) :
    t.step (.add resource type beyond) = t := by
  simp [ResourceTable.step, addResource, hfound]

/-- A name that is not found is added to its list. -/
theorem step_new (t : ResourceTable)
    (hfound : ¬findResourcePriv resource beyond 0 (t.get type).resources = true) :
    t.step (.add resource type beyond) =
      t.set type ⟨(t.get type).resources ++ [resource], (t.get type).numResources + 1⟩ := by
  simp [ResourceTable.step, addResource, hfound]

/-- A new name is counted, as long as 16 bits suffice. -/
theorem Recorded.add_new (h : Recorded calls) (hnew : resource ∉ namesAdded type calls)
    (hfound : ¬findResourcePriv resource beyond 0
      (ResourceTable.get (.after calls) type).resources = true)
    (hroom : (namesAdded type calls).length + 1 < 2 ^ 16) :
    Recorded (calls ++ [.add resource type beyond]) := by
  intro t
  rw [ResourceTable.after_concat, step_new _ hfound, namesAdded_add]
  by_cases ht : type = t
  · subst ht
    rw [ResourceTable.get_set, if_pos ⟨rfl, hnew⟩]
    refine ⟨by rw [(h type).1], ?_⟩
    rw [UInt16.toNat_add, (h type).2, List.length_append, List.length_singleton]
    exact Nat.mod_eq_of_lt hroom
  · rw [ResourceTable.get_set_ne _ (Ne.symm ht), if_neg fun hboth => ht hboth.1]
    exact h t

/-- A name that has been added changes nothing. -/
theorem Recorded.add_known (h : Recorded calls) (hknown : resource ∈ namesAdded type calls)
    (hfound : findResourcePriv resource beyond 0 (ResourceTable.get (.after calls) type).resources =
      true) :
    Recorded (calls ++ [.add resource type beyond]) := by
  intro t
  rw [ResourceTable.after_concat, step_found _ hfound, namesAdded_add, if_neg]
  · exact h t
  · rintro ⟨rfl, hnew⟩
    exact hnew hknown

theorem Recorded.find (h : Recorded calls) : Recorded (calls ++ [.find resource type beyond]) := by
  intro t
  rw [ResourceTable.after_concat, namesAdded_find]
  exact h t

end Step

/-- A call whose name can be told from the others keeps the table. -/
theorem Recorded.step {calls : List ResourceCall} {call : ResourceCall} (h : Recorded calls)
    (hcall : Distinguishable (namesAdded call.type calls) call) : Recorded (calls ++ [call]) := by
  cases call with
  | add resource type beyond =>
    have hreads : ReadsWithin resource beyond _ := h.reads_iff.mpr hcall.long
    have hfound := h.found_iff hreads
    by_cases hknown : resource ∈ namesAdded type calls
    · exact h.add_known hknown (hfound.mpr ⟨resource, hknown, List.prefix_refl _⟩)
    · exact h.add_new hknown (fun hf => hknown (hcall.listed (hfound.mp hf)))
        (hcall.room resource type beyond rfl hknown)
  | find resource type beyond => exact h.find

/-- A call is faithful exactly when its name can be told from the others. -/
theorem Recorded.faithful_iff {calls : List ResourceCall}
    {call : ResourceCall} (h : Recorded calls) :
    Faithful calls call ↔ Distinguishable (namesAdded call.type calls) call := by
  constructor
  · rintro ⟨hresult, hreads, hcounts⟩
    refine ⟨h.reads_iff.mp hreads, ?_, ?_⟩
    · cases call with
      | add resource type beyond =>
        exact (h.tells_iff hreads).mp ((add_eagain_iff _).symm.trans hresult.1)
      | find resource type beyond =>
        obtain ⟨found, hfind, hiff⟩ := hresult
        obtain rfl : findResourcePriv resource beyond 0 _ = found := by
          simpa [findResource] using hfind
        exact (h.tells_iff hreads).mp hiff
    · rintro resource type beyond rfl hnew
      have hfound : ¬findResourcePriv resource beyond 0
          (ResourceTable.get (.after calls) type).resources = true :=
        (add_ok_iff _).mp (hresult.2.mpr fun hadded => hnew (mem_namesAdded.mpr hadded))
      have hcount := hcounts type
      rw [ResourceTable.after_concat, step_new _ hfound, ResourceTable.get_set, namesAdded_add,
        if_pos ⟨rfl, hnew⟩, List.length_append, List.length_singleton] at hcount
      change (namesAdded type calls).length + 1 < 2 ^ 16
      rw [← hcount]
      exact UInt16.toNat_lt _
  · intro hcall
    have hreads : ReadsWithin call.resource call.beyond _ := h.reads_iff.mpr hcall.long
    refine ⟨?_, hreads, fun type => (h.step hcall type).2⟩
    have htells := (h.tells_iff hreads).mpr hcall.listed
    cases call with
    | add resource type beyond =>
      exact ⟨(add_eagain_iff _).trans htells, (add_ok_iff _).trans (not_congr htells)⟩
    | find resource type beyond => exact ⟨_, rfl, htells⟩

/-! ## All histories -/

/-- In every history, all calls are faithful if and only if the name of each call can be told from
those added before. -/
theorem resource_table_faithful_iff (calls : List ResourceCall) :
    (∀ pre call, pre ++ [call] <+: calls → Faithful pre call) ↔
      ∀ pre call, pre ++ [call] <+: calls → Distinguishable (namesAdded call.type pre) call := by
  -- along a history in which each call is one or the other, the table holds the names
  have hrecorded : ∀ P : List ResourceCall → ResourceCall → Prop,
      (∀ pre call, Recorded pre → P pre call → Distinguishable (namesAdded call.type pre) call) →
      (∀ pre call, pre ++ [call] <+: calls → P pre call) → ∀ pre, pre <+: calls → Recorded pre := by
    intro P hP hall pre hpre
    induction pre using List.reverseRecOn with
    | nil => exact recorded_nil
    | append_singleton pre call ih =>
      have hshort : Recorded pre := ih ((List.prefix_append pre [call]).trans hpre)
      exact hshort.step (hP pre call hshort (hall pre call hpre))
  constructor
  · intro h pre call hpre
    have hpre' : Recorded pre := hrecorded Faithful (fun _ _ hq => hq.faithful_iff.mp) h pre
      ((List.prefix_append pre [call]).trans hpre)
    exact hpre'.faithful_iff.mp (h pre call hpre)
  · intro h pre call hpre
    have hpre' : Recorded pre :=
      hrecorded _ (fun _ _ _ hq => hq) h pre ((List.prefix_append pre [call]).trans hpre)
    exact hpre'.faithful_iff.mpr (h pre call hpre)

/-- The topic `sensor/temp`, and then the topic `sensor`. -/
def topicBelow : List ResourceCall :=
  [.add [0x73, 0x65, 0x6E, 0x73, 0x6F, 0x72, 0x2F, 0x74, 0x65, 0x6D, 0x70] .sub fun _ _ => 0]

/-- The topic `sensor` is taken for one that has been added. -/
theorem topicBelow_unfaithful :
    (addResource [0x73, 0x65, 0x6E, 0x73, 0x6F, 0x72] .sub
      (fun _ _ => 0) true true (.after topicBelow)).1 =
      .eagain ∧ ¬Added [0x73, 0x65, 0x6E, 0x73, 0x6F, 0x72] .sub topicBelow ∧
      ¬Faithful topicBelow (.add [0x73, 0x65, 0x6E, 0x73, 0x6F, 0x72] .sub fun _ _ => 0) := by
  have hagain : (addResource [0x73, 0x65, 0x6E, 0x73, 0x6F, 0x72] .sub (fun _ _ => 0) true true
      (.after topicBelow)).1 = .eagain := by decide +kernel
  have hnew : ¬Added [0x73, 0x65, 0x6E, 0x73, 0x6F, 0x72] .sub topicBelow := by
    rw [← mem_namesAdded]
    decide +kernel
  exact ⟨hagain, hnew, fun h => hnew (h.result.1.mp hagain)⟩

end BmCore.Bcmp
