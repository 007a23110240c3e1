import BmCore.Library.Chain
import BmCore.Middleware.PubSub
import Mathlib.Data.List.Perm.Subperm
import Mathlib.Logic.Function.Basic

/-!
# Subscriptions in memory

The list of `pubsub.c` with its nodes in memory, and with allocations that may fail. A node is told
by the number of its allocation; what touches a node that has been freed, or the callback of a
subscription without callbacks, has no result. `bm_sub_wl` links a new node before its topic and its
callback are allocated: where one of the two fails, the list keeps a pointer to the freed node, or a
subscription without callbacks.
-/
namespace BmCore.Middleware
open Library

/-- `BmSubNode`; a `callbacks` that is NULL is the empty list. -/
structure BmSubNode (Callback : Type) where
  topic : List UInt8
  callbacks : List Callback
  next : Option Nat
  deriving DecidableEq

/-- The `sub` of a node. -/
def BmSubNode.sub {Callback : Type} (node : BmSubNode Callback) : BmSub Callback :=
  ⟨node.topic, node.callbacks⟩

def BmSubNode.setCallbacks {Callback : Type} (node : BmSubNode Callback)
    (callbacks : List Callback) : BmSubNode Callback := { node with callbacks }

/-- `CTX`: the nodes that have been allocated and not freed, their number so far, and the `next` of
`subscription_list`. -/
structure PubSubCtx (Callback : Type) where
  nodes : Nat → Option (BmSubNode Callback)
  allocs : Nat
  next : Option Nat

/-- Which of the allocations of `bm_sub_wl` succeed. -/
structure SubMemory where
  node : Bool
  topic : Bool
  callback : Bool
  deriving DecidableEq

namespace PubSubCtx
variable {Callback : Type} (ctx : PubSubCtx Callback)

def empty : PubSubCtx Callback := ⟨fun _ => none, 0, none⟩

/-- A node is written. -/
def write (a : Nat) (node : BmSubNode Callback) : PubSubCtx Callback :=
  { ctx with nodes := Function.update ctx.nodes a (some node) }

def free (a : Nat) : PubSubCtx Callback :=
  { ctx with nodes := Function.update ctx.nodes a none }

/-- `ptr->next = next`, where no node is the start of the list. -/
def setNext (ptr next : Option Nat) : Option (PubSubCtx Callback) :=
  match ptr with
  | none => some { ctx with next }
  | some a => (ctx.nodes a).map fun node => ctx.write a { node with next }

/-- The loop over the list up to the first node that meets `stop`: the node before it, and the node.
No loop meets more nodes than have been allocated. -/
def walk (nodes : Nat → Option (BmSubNode Callback)) (stop : BmSubNode Callback → Bool) :
    Nat → Option Nat → Option Nat → Option (Option Nat × Option Nat)
  | _, prev, none => some (prev, none)
  | 0, _, some _ => none
  | fuel + 1, prev, some a => do
    let node ← nodes a
    if stop node then some (prev, some a) else walk nodes stop fuel (some a) node.next

/-- `get_sub` without wildcards, with the node before it. -/
def getSub (topic : List UInt8) : Option (Option Nat × Option Nat) :=
  walk ctx.nodes (topic == ·.topic) ctx.allocs none ctx.next

/-- `get_last_sub` -/
def getLastSub : Option (Option Nat) :=
  (walk ctx.nodes (fun _ => false) ctx.allocs none ctx.next).map Prod.fst

section Calls
variable [DecidableEq Callback]

/-- `bm_sub_wl` on a subscription that is there: its first callback is looked at. -/
def addCallback (a : Nat) (callback : Callback) (memory : SubMemory) :
    Option (PubSubCtx Callback × BmErr) := do
  let node ← ctx.nodes a
  match node.callbacks with
  | [] => none
  | first :: _ =>
    if first = callback then some (ctx, .ok)
    else if memory.callback then
      some (ctx.write a (node.setCallbacks (node.callbacks ++ [callback])), .ok)
    else some (ctx, .enomem)

/-- `bm_sub_wl` for a new subscription. -/
def addSub (topic : List UInt8) (callback : Callback) (memory : SubMemory) :
    Option (PubSubCtx Callback × BmErr) := do
  let ptr ← ctx.getLastSub
  if !memory.node then
    let ctx ← ctx.setNext ptr none
    some (ctx, .enomem)
  else
    let a := ctx.allocs
    let ctx ← ({ ctx.write a ⟨[], [], none⟩ with allocs := a + 1 }).setNext ptr (some a)
    if !memory.topic then some (ctx.free a, .enomem)
    else if !memory.callback then some (ctx.write a ⟨topic, [], none⟩, .enomem)
    else some (ctx.write a ⟨topic, [callback], none⟩, .ok)

/-- `bm_sub_wl` behind `get_sub` -/
def subscribe (topic : List UInt8) (callback : Callback) (memory : SubMemory) :
    Option Nat → Option (PubSubCtx Callback × BmErr)
  | some a => ctx.addCallback a callback memory
  | none => ctx.addSub topic callback memory

/-- `bm_sub_wl`, with the result of `bcmp_resource_discovery_add_resource`. -/
def bmSubWl (topic : List UInt8) (callback : Option Callback) (memory : SubMemory)
    (resource : BmErr) : Option (PubSubCtx Callback × BmErr) :=
  match callback with
  | none => some (ctx, .einval)
  | some callback =>
    if topic.length = 0 then some (ctx, .einval)
    else if topic.length ≥ bmTopicMaxLen then some (ctx, .emsgsize)
    else do
      let (_, found) ← ctx.getSub topic
      let (ctx, err) ← ctx.subscribe topic callback memory found
      some (ctx, if err ≠ .ok then err else if resource = .eagain then .ok else resource)

/-- `delete_sub` -/
def deleteSub (topic : List UInt8) : Option (PubSubCtx Callback) := do
  let (prev, found) ← ctx.getSub topic
  match found with
  | none => some ctx
  | some a => do
    let node ← ctx.nodes a
    let ctx ← ctx.setNext prev node.next
    some (ctx.free a)

/-- `bm_unsub_wl` -/
def bmUnsubWl (topic : List UInt8) (callback : Option Callback) :
    Option (PubSubCtx Callback × BmErr) :=
  match callback with
  | none => some (ctx, .einval)
  | some callback =>
    if topic.length = 0 then some (ctx, .einval)
    else if topic.length ≥ bmTopicMaxLen then some (ctx, .emsgsize)
    else do
      let (_, found) ← ctx.getSub topic
      match found with
      | none => some (ctx, .einval)
      | some a => do
        let node ← ctx.nodes a
        if node.callbacks = [] then none
        else if callback ∉ node.callbacks then some (ctx, .enoent)
        else
          let rest := node.callbacks.erase callback
          let ctx := ctx.write a (node.setCallbacks rest)
          let ctx ← if rest = [] then ctx.deleteSub topic else some ctx
          some (ctx, .ok)

end Calls

/-- The loop of `bm_handle_msg`. -/
def handleFrom (nodes : Nat → Option (BmSubNode Callback)) (delivery : Delivery) :
    Nat → Option Nat → Option (List (Callback × Delivery))
  | _, none => some []
  | 0, some _ => none
  | fuel + 1, some a => do
    let node ← nodes a
    let rest ← handleFrom nodes delivery fuel node.next
    some ((if bmWildcardMatch delivery.topic node.topic then
      node.callbacks.map (·, delivery) else []) ++ rest)

/-- `bm_handle_msg` -/
def bmHandleMsg (nodeId : UInt64) (buf : List UInt8) (size : Nat) :
    Option (List (Callback × Delivery)) :=
  handleFrom ctx.nodes (Delivery.ofBuf nodeId buf size) ctx.allocs ctx.next

/-! ## The list in memory -/

/-- From the start on the nodes of `es` are linked, and the last one points to `last`. -/
structure Linked (ctx : PubSubCtx Callback) (es : List (Nat × BmSubNode Callback))
    (last : Option Nat) : Prop where
  nodup : (es.map Prod.fst).Nodup
  chain : Chain ctx.nodes BmSubNode.next ctx.next es last
  below : ∀ a ∈ es.map Prod.fst, a < ctx.allocs

/-- The list is in memory: every `next` is NULL or points to a node. -/
def Holds (ctx : PubSubCtx Callback) (subs : List (BmSub Callback)) : Prop :=
  ∃ es, Linked ctx es none ∧ es.map (·.2.sub) = subs

/-- The list is in memory, and every subscription has callbacks. -/
structure Intact (ctx : PubSubCtx Callback) (subs : List (BmSub Callback)) : Prop where
  holds : Holds ctx subs
  callbacks : ∀ sub ∈ subs, sub.callbacks ≠ []

section Memory
variable {ctx : PubSubCtx Callback} {es pre post : List (Nat × BmSubNode Callback)}
  {e : Nat × BmSubNode Callback} {last : Option Nat} {topic : List UInt8}
  {stop : BmSubNode Callback → Bool}

theorem Linked.length_le (h : Linked ctx es last) : es.length ≤ ctx.allocs := by
  have hsub : (es.map Prod.fst).Subperm (List.range ctx.allocs) :=
    List.Nodup.subperm h.nodup fun a ha => List.mem_range.mpr (h.below a ha)
  simpa using hsub.length_le

theorem walk_none (nodes : Nat → Option (BmSubNode Callback)) (stop : BmSubNode Callback → Bool)
    (fuel : Nat) (prev : Option Nat) : walk nodes stop fuel prev none = some (prev, none) := by
  cases fuel <;> rfl

/-- The loop passes the nodes at which it does not stop. -/
theorem walk_pass {nodes : Nat → Option (BmSubNode Callback)} {p : Option Nat}
    (hchain : Chain nodes BmSubNode.next p es last) (hstop : ∀ e ∈ es, stop e.2 = false)
    (fuel : Nat) (prev : Option Nat) : walk nodes stop (es.length + fuel) prev p =
      walk nodes stop fuel (lastAddr prev es) last := by
  induction es generalizing p prev with
  | nil =>
    obtain rfl : p = last := hchain
    simp
  | cons e es ih =>
    obtain ⟨rfl, hcell, hrest⟩ := hchain
    have hlen : (e :: es).length + fuel = (es.length + fuel) + 1 := by
      simp only [List.length_cons]
      omega
    rw [hlen, walk, hcell]
    simp only [Option.bind_eq_bind, Option.bind_some, hstop e List.mem_cons_self,
      Bool.false_eq_true, if_false]
    exact ih hrest (fun f hf => hstop f (List.mem_cons_of_mem _ hf)) _

theorem walk_absent (h : Linked ctx es none) (hstop : ∀ e ∈ es, stop e.2 = false) :
    walk ctx.nodes stop ctx.allocs none ctx.next = some (lastAddr none es, none) := by
  obtain ⟨n, hn⟩ := Nat.exists_eq_add_of_le h.length_le
  rw [hn, walk_pass h.chain hstop, walk_none]

theorem walk_found (h : Linked ctx (pre ++ e :: post) last) (hpre : ∀ f ∈ pre, stop f.2 = false)
    (he : stop e.2 = true) :
    walk ctx.nodes stop ctx.allocs none ctx.next = some (lastAddr none pre, some e.1) := by
  obtain ⟨m, hchain, hrest⟩ := chain_append.mp h.chain
  obtain ⟨rfl, hcell, -⟩ := hrest
  have hlen := h.length_le
  rw [List.length_append, List.length_cons] at hlen
  obtain ⟨n, hn⟩ := Nat.exists_eq_add_of_le hlen
  have hfuel : ctx.allocs = pre.length + (post.length + n + 1) := by omega
  rw [hfuel, walk_pass hchain hpre, walk, hcell]
  simp [he]

/-- What `get_sub` finds in memory is what it finds in the list. -/
theorem getSub_cases (h : Linked ctx es none) (topic : List UInt8) :
    ((∀ e ∈ es, e.2.topic ≠ topic) ∧ ctx.getSub topic = some (lastAddr none es, none) ∧
      Middleware.getSub (es.map (·.2.sub)) topic false = none) ∨
    ∃ pre e post, es = pre ++ e :: post ∧ (∀ f ∈ pre, f.2.topic ≠ topic) ∧ e.2.topic = topic ∧
      ctx.getSub topic = some (lastAddr none pre, some e.1) ∧
      Middleware.getSub (es.map (·.2.sub)) topic false = some e.2.sub := by
  cases hfind : es.find? (·.2.topic == topic) with
  | none =>
    have hnone : ∀ e ∈ es, e.2.topic ≠ topic := by simpa using hfind
    refine .inl ⟨hnone, walk_absent h fun e he => ?_, getSub_eq_none.mpr ?_⟩
    · exact beq_eq_false_iff_ne.mpr (hnone e he).symm
    · exact List.forall_mem_map.mpr fun e he => (hnone e he).symm
  | some e =>
    obtain ⟨he, pre, post, rfl, hpre⟩ := List.find?_eq_some_iff_append.mp hfind
    have he : e.2.topic = topic := by simpa using he
    have hpre : ∀ f ∈ pre, f.2.topic ≠ topic := by simpa using hpre
    refine .inr ⟨pre, e, post, rfl, hpre, he, walk_found h (fun f hf => ?_) ?_, ?_⟩
    · exact beq_eq_false_iff_ne.mpr (hpre f hf).symm
    · exact beq_iff_eq.mpr he.symm
    · have hnone : Middleware.getSub (pre.map (·.2.sub)) topic false = none :=
        getSub_eq_none.mpr (List.forall_mem_map.mpr fun f hf => (hpre f hf).symm)
      rw [Middleware.getSub] at hnone ⊢
      rw [List.map_append, List.find?_append, hnone, List.map_cons]
      simp [BmSubNode.sub, he]

/-- A node is written over, with the same `next`. -/
theorem Linked.write (h : Linked ctx (pre ++ e :: post) last) {node : BmSubNode Callback}
    (hnext : node.next = e.2.next) :
    Linked (ctx.write e.1 node) (pre ++ (e.1, node) :: post) last := by
  obtain ⟨hnodup, hchain, hbelow⟩ := h
  obtain ⟨m, hfront, rfl, hcell, hback⟩ := chain_append.mp hchain
  have hother : ∀ a ≠ e.1, (ctx.write e.1 node).nodes a = ctx.nodes a :=
    fun a ha => Function.update_of_ne ha _ _
  have hmap : ((pre ++ (e.1, node) :: post).map Prod.fst) = (pre ++ e :: post).map Prod.fst := by
    simp
  have hdistinct : (∀ a ∈ pre.map Prod.fst, a ≠ e.1) ∧ ∀ a ∈ post.map Prod.fst, a ≠ e.1 := by
    rw [List.map_append, List.map_cons, List.nodup_append] at hnodup
    grind
  refine ⟨by rwa [hmap], chain_append.mpr ⟨some e.1, hfront.frame fun a ha => ?_, rfl,
    Function.update_self .., ?_⟩, by rwa [hmap]⟩
  · exact hother a (hdistinct.1 a ha)
  · rw [hnext]
    exact hback.frame fun a ha => hother a (hdistinct.2 a ha)

theorem Linked.setCallbacks (h : Linked ctx (pre ++ e :: post) last) (callbacks : List Callback) :
    Linked (ctx.write e.1 (e.2.setCallbacks callbacks))
      (pre ++ (e.1, e.2.setCallbacks callbacks) :: post) last := h.write rfl

/-- The last node, or the start of the list, is made to point elsewhere. -/
theorem Linked.setNext (h : Linked ctx es last) (next : Option Nat) :
    ∃ ctx' es', ctx.setNext (lastAddr none es) next = some ctx' ∧ Linked ctx' es' next ∧
      ctx'.allocs = ctx.allocs ∧ es'.map Prod.fst = es.map Prod.fst ∧
      es'.map (·.2.sub) = es.map (·.2.sub) ∧
      ∀ a ∉ es.map Prod.fst, ctx'.nodes a = ctx.nodes a := by
  rcases List.eq_nil_or_concat es with rfl | ⟨init, e, rfl⟩
  · exact ⟨_, [], rfl, ⟨List.nodup_nil, rfl, h.below⟩, rfl, rfl, rfl, fun _ _ => rfl⟩
  · rw [List.concat_eq_append] at h ⊢
    have hcell : ctx.nodes e.1 = some e.2 := h.chain.cell (by simp)
    have hset : ctx.setNext (lastAddr none (init ++ [e])) next =
        some (ctx.write e.1 { e.2 with next }) := by
      rw [lastAddr_concat, PubSubCtx.setNext, hcell]
      rfl
    have hmap : ((init ++ [(e.1, { e.2 with next })]).map Prod.fst) =
        (init ++ [e]).map Prod.fst := by
      simp
    refine ⟨_, _, hset, ⟨by rw [hmap]; exact h.nodup, ?_, by rw [hmap]; exact h.below⟩, rfl, hmap,
      ?_, fun a ha => ?_⟩
    · obtain ⟨m, hfront, rfl, -, -⟩ := chain_append.mp h.chain
      refine chain_append.mpr ⟨some e.1, hfront.frame fun a ha => ?_, rfl,
        Function.update_self .., rfl⟩
      refine Function.update_of_ne ?_ _ _
      have hnodup := h.nodup
      rw [List.map_append, List.nodup_append] at hnodup
      grind
    · simp [BmSubNode.sub]
    · refine Function.update_of_ne ?_ _ _
      rintro rfl
      simp at ha

/-- Writing the pointer that is there already. -/
theorem Linked.setNext_self (h : Linked ctx es last) :
    ctx.setNext (lastAddr none es) last = some ctx := by
  rcases List.eq_nil_or_concat es with rfl | ⟨init, e, rfl⟩
  · obtain rfl : ctx.next = last := h.chain
    rfl
  · rw [List.concat_eq_append] at h ⊢
    obtain ⟨m, -, rfl, hcell, hnext⟩ := chain_append.mp h.chain
    obtain rfl : e.2.next = last := hnext
    rw [lastAddr_concat, PubSubCtx.setNext, hcell]
    have hnodes : Function.update ctx.nodes e.1 (some e.2) = ctx.nodes :=
      Function.update_eq_self_iff.mpr hcell.symm
    exact congrArg some
      (congrArg (fun nodes => (⟨nodes, ctx.allocs, ctx.next⟩ : PubSubCtx Callback)) hnodes)

/-- A node comes into memory. -/
theorem Linked.fresh (h : Linked ctx es last) (node : BmSubNode Callback) :
    Linked { ctx.write ctx.allocs node with allocs := ctx.allocs + 1 } es last := by
  refine ⟨h.nodup, h.chain.frame fun a ha => ?_, fun a ha => Nat.lt_succ_of_lt (h.below a ha)⟩
  exact Function.update_of_ne (Nat.ne_of_lt (h.below a ha)) _ _

/-- The node that the last one points to becomes part of the list. -/
theorem Linked.append {a : Nat} (h : Linked ctx es (some a)) (ha : a ∉ es.map Prod.fst)
    (hbelow : a < ctx.allocs) {node : BmSubNode Callback} (hnext : node.next = none) :
    Linked (ctx.write a node) (es ++ [(a, node)]) none := by
  refine ⟨?_, chain_append.mpr ⟨some a, h.chain.frame fun b hb => ?_, rfl, Function.update_self ..,
    hnext⟩, fun b hb => ?_⟩
  · rw [List.map_append, List.nodup_append]
    have hnodup := h.nodup
    grind
  · refine Function.update_of_ne ?_ _ _
    rintro rfl
    exact ha hb
  · rw [List.map_append, List.mem_append] at hb
    rcases hb with hb | hb
    · exact h.below b hb
    · obtain rfl : b = a := by simpa using hb
      exact hbelow

/-- Behind a node that has been freed there is no list. -/
theorem Linked.free {a : Nat} (h : Linked ctx es (some a)) (ha : a ∉ es.map Prod.fst)
    (subs : List (BmSub Callback)) : ¬ Holds (ctx.free a) subs := by
  rintro ⟨fs, hfs, -⟩
  have hchain : Chain (ctx.free a).nodes BmSubNode.next (ctx.free a).next es (some a) := by
    refine h.chain.frame fun b hb => Function.update_of_ne ?_ _ _
    rintro rfl
    exact ha hb
  exact hchain.astray (Function.update_self ..) hfs.chain

theorem Linked.holds (h : Linked ctx es none) : Holds ctx (es.map (·.2.sub)) := ⟨es, h, rfl⟩

/-- The memory holds one list. -/
theorem Holds.unique {subs subs' : List (BmSub Callback)} (h : Holds ctx subs)
    (h' : Holds ctx subs') : subs = subs' := by
  obtain ⟨es, hes, rfl⟩ := h
  obtain ⟨fs, hfs, rfl⟩ := h'
  rw [hes.chain.unique hfs.chain]

theorem getLastSub_eq (h : Linked ctx es none) : ctx.getLastSub = some (lastAddr none es) := by
  rw [getLastSub, walk_absent h fun _ _ => rfl]
  rfl

/-- A new subscription: nothing is changed without memory for its node, and otherwise the last node
points to the new one, whatever can be allocated for it. -/
theorem addSub_cases (h : Linked ctx es none) (topic : List UInt8) (callback : Callback)
    (memory : SubMemory) :
    (memory.node = false ∧ ctx.addSub topic callback memory = some (ctx, .enomem)) ∨
    ∃ ctx' es', memory.node = true ∧ Linked ctx' es' (some ctx.allocs) ∧
      ctx.allocs ∉ es'.map Prod.fst ∧ ctx.allocs < ctx'.allocs ∧
      es'.map (·.2.sub) = es.map (·.2.sub) ∧ ctx.addSub topic callback memory =
        if memory.topic = false then some (ctx'.free ctx.allocs, .enomem)
        else if memory.callback = false then
          some (ctx'.write ctx.allocs ⟨topic, [], none⟩, .enomem)
        else some (ctx'.write ctx.allocs ⟨topic, [callback], none⟩, .ok) := by
  cases hnode : memory.node with
  | false =>
    refine .inl ⟨rfl, ?_⟩
    simp only [addSub, getLastSub_eq h, Option.bind_eq_bind, Option.bind_some, hnode,
      Bool.not_false, if_true, h.setNext_self]
  | true =>
    have hfresh := h.fresh ⟨[], [], none⟩
    obtain ⟨ctx', es', hset, hlinked, hallocs, haddr, hsubs, -⟩ := hfresh.setNext (some ctx.allocs)
    refine .inr ⟨ctx', es', rfl, hlinked, ?_, ?_, hsubs, ?_⟩
    · rw [haddr]
      exact fun hmem => Nat.lt_irrefl _ (h.below _ hmem)
    · rw [hallocs]
      exact Nat.lt_succ_self _
    · simp only [addSub, getLastSub_eq h, Option.bind_eq_bind, Option.bind_some, hnode, hset,
        Bool.not_true, Bool.false_eq_true, if_false]
      cases memory.topic <;> cases memory.callback <;> rfl

theorem updateSub_split {f : BmSub Callback → BmSub Callback} {pre post : List (BmSub Callback)}
    {sub : BmSub Callback} (hpre : ∀ s ∈ pre, s.topic ≠ topic) (hsub : sub.topic = topic) :
    updateSub topic f (pre ++ sub :: post) = pre ++ f sub :: post := by
  induction pre with
  | nil => simp [updateSub, hsub]
  | cons s pre ih =>
    have hs : topic ≠ s.topic := (hpre s List.mem_cons_self).symm
    rw [List.cons_append, updateSub, if_neg hs, ih fun s hs => hpre s (List.mem_cons_of_mem _ hs)]
    rfl

/-- The subscription of a node is updated. -/
theorem updateSub_map (hpre : ∀ f ∈ pre, f.2.topic ≠ topic) (he : e.2.topic = topic)
    (f : BmSub Callback → BmSub Callback) : updateSub topic f ((pre ++ e :: post).map (·.2.sub)) =
      pre.map (·.2.sub) ++ f e.2.sub :: post.map (·.2.sub) := by
  rw [List.map_append, List.map_cons]
  exact updateSub_split (List.forall_mem_map.mpr hpre) he

end Memory

/-! ## The calls on the list -/

section Calls
variable [DecidableEq Callback] {ctx : PubSubCtx Callback} {subs : List (BmSub Callback)}
  {pre post es : List (Nat × BmSubNode Callback)} {e : Nat × BmSubNode Callback}
  {topic : List UInt8} {callback : Callback} {memory : SubMemory} {resource : BmErr}

/-- A subscription that has callbacks. -/
theorem addCallback_eq (hcell : ctx.nodes e.1 = some e.2) (hne : e.2.callbacks ≠ [])
    (callback : Callback) (memory : SubMemory) : ctx.addCallback e.1 callback memory =
      if e.2.callbacks.head? = some callback then some (ctx, .ok)
      else if memory.callback = true then
        some (ctx.write e.1 (e.2.setCallbacks (e.2.callbacks ++ [callback])), .ok)
      else some (ctx, .enomem) := by
  obtain ⟨first, rest, hcallbacks⟩ := List.exists_cons_of_ne_nil hne
  simp only [addCallback, hcell, Option.bind_eq_bind, Option.bind_some, hcallbacks, List.head?_cons,
    Option.some.injEq]

theorem bmSubWl_refused (ctx : PubSubCtx Callback) {callback : Option Callback}
    (h : callback = none ∨ ¬ ValidTopic topic) (memory : SubMemory) (resource : BmErr) :
    ∃ err, ctx.bmSubWl topic callback memory resource = some (ctx, err) ∧
      err ≠ .enomem ∧ err ≠ .ok := by
  cases callback with
  | none => exact ⟨_, rfl, by simp⟩
  | some callback =>
    have hvalid := h.resolve_left (by simp)
    by_cases hzero : topic.length = 0
    · exact ⟨.einval, if_pos hzero, by simp⟩
    · have hlong : topic.length ≥ bmTopicMaxLen := Nat.not_lt.mp fun hlt => hvalid ⟨hzero, hlt⟩
      refine ⟨.emsgsize, ?_, by simp⟩
      rw [bmSubWl, if_neg hzero, if_pos hlong]

/-- What the resource table makes of a result. -/
def afterResource (resource err : BmErr) : BmErr :=
  if err ≠ .ok then err else if resource = .eagain then .ok else resource

theorem bmSubWl_valid (hvalid : ValidTopic topic) {prev found : Option Nat}
    (hget : ctx.getSub topic = some (prev, found)) :
    ctx.bmSubWl topic (some callback) memory resource =
      (ctx.subscribe topic callback memory found).map fun result =>
        (result.1, afterResource resource result.2) := by
  have hlong : ¬ topic.length ≥ bmTopicMaxLen := Nat.not_le.mpr hvalid.2
  simp only [bmSubWl, if_neg hvalid.1, if_neg hlong, hget, Option.bind_eq_bind, Option.bind_some]
  cases ctx.subscribe topic callback memory found <;> rfl

/-- What `bm_sub_wl` does with a valid topic, by what is there and what can be allocated. -/
inductive Subscribed (ctx : PubSubCtx Callback) (subs : List (BmSub Callback)) (topic : List UInt8)
    (callback : Callback) (memory : SubMemory) (resource : BmErr) :
    PubSubCtx Callback → BmErr → Prop
  | again (sub : BmSub Callback) (hget : Middleware.getSub subs topic false = some sub)
    (hhead : sub.callbacks.head? = some callback) :
    Subscribed ctx subs topic callback memory resource ctx (afterResource resource .ok)
  | noCallback (sub : BmSub Callback) (hget : Middleware.getSub subs topic false = some sub)
    (hhead : sub.callbacks.head? ≠ some callback) (hmemory : memory.callback = false) :
    Subscribed ctx subs topic callback memory resource ctx .enomem
  | added (sub : BmSub Callback) (hget : Middleware.getSub subs topic false = some sub)
    (hhead : sub.callbacks.head? ≠ some callback) (hmemory : memory.callback = true)
    (ctx' : PubSubCtx Callback) (hsub : sub ∈ subs)
    (hholds : Holds ctx' (updateSub topic (.addCallback callback) subs)) :
    Subscribed ctx subs topic callback memory resource ctx' (afterResource resource .ok)
  | noNode (hget : Middleware.getSub subs topic false = none) (hmemory : memory.node = false) :
    Subscribed ctx subs topic callback memory resource ctx .enomem
  | noTopic (hget : Middleware.getSub subs topic false = none) (hnode : memory.node = true)
    (hmemory : memory.topic = false) (ctx' : PubSubCtx Callback)
    (hastray : ∀ subs', ¬ Holds ctx' subs') :
    Subscribed ctx subs topic callback memory resource ctx' .enomem
  | noFirst (hget : Middleware.getSub subs topic false = none) (hnode : memory.node = true)
    (htopic : memory.topic = true) (hmemory : memory.callback = false) (ctx' : PubSubCtx Callback)
    (hholds : Holds ctx' (subs ++ [⟨topic, []⟩])) :
    Subscribed ctx subs topic callback memory resource ctx' .enomem
  | new (hget : Middleware.getSub subs topic false = none) (hnode : memory.node = true)
    (htopic : memory.topic = true) (hmemory : memory.callback = true) (ctx' : PubSubCtx Callback)
    (hholds : Holds ctx' (subs ++ [⟨topic, [callback]⟩])) :
    Subscribed ctx subs topic callback memory resource ctx' (afterResource resource .ok)

/-- On a list that is intact `bm_sub_wl` comes to an end. -/
theorem bmSubWl_subscribed (h : Intact ctx subs) (hvalid : ValidTopic topic) (callback : Callback)
    (memory : SubMemory) (resource : BmErr) :
    ∃ ctx' err, ctx.bmSubWl topic (some callback) memory resource = some (ctx', err) ∧
      Subscribed ctx subs topic callback memory resource ctx' err := by
  obtain ⟨⟨es, hes, rfl⟩, hcallbacks⟩ := h
  rcases getSub_cases hes topic with
    ⟨hnone, hget, hlist⟩ | ⟨pre, e, post, rfl, hpre, he, hget, hlist⟩
  · rw [bmSubWl_valid hvalid hget, subscribe]
    rcases addSub_cases hes topic callback memory with
      ⟨hnode, heq⟩ | ⟨ctx', es', hnode, hlinked, hfresh, hbelow, hsubs, heq⟩
    · rw [heq]
      exact ⟨ctx, .enomem, rfl, .noNode hlist hnode⟩
    · rw [heq]
      have happend : ∀ callbacks, Holds (ctx'.write ctx.allocs ⟨topic, callbacks, none⟩)
          (es.map (·.2.sub) ++ [⟨topic, callbacks⟩]) := by
        intro callbacks
        refine ⟨_, hlinked.append hfresh hbelow rfl, ?_⟩
        rw [List.map_append, hsubs]
        rfl
      cases htopic : memory.topic with
      | false => exact ⟨_, .enomem, rfl, .noTopic hlist hnode htopic _ (hlinked.free hfresh)⟩
      | true =>
        cases hmemory : memory.callback with
        | false => exact ⟨_, .enomem, rfl, .noFirst hlist hnode htopic hmemory _ (happend [])⟩
        | true => exact ⟨_, _, rfl, .new hlist hnode htopic hmemory _ (happend [callback])⟩
  · have hmem : e ∈ pre ++ e :: post := by simp
    have hne : e.2.callbacks ≠ [] := hcallbacks _ (List.mem_map_of_mem (f := (·.2.sub)) hmem)
    rw [bmSubWl_valid hvalid hget, subscribe, addCallback_eq (hes.chain.cell hmem) hne]
    by_cases hhead : e.2.callbacks.head? = some callback
    · rw [if_pos hhead]
      exact ⟨_, _, rfl, .again _ hlist hhead⟩
    · rw [if_neg hhead]
      cases hmemory : memory.callback with
      | false => exact ⟨_, _, rfl, .noCallback _ hlist hhead hmemory⟩
      | true =>
        refine ⟨_, _, rfl, .added _ hlist hhead hmemory _ (List.mem_map_of_mem hmem) ?_⟩
        have hadded : e.2.sub.addCallback callback =
            (e.2.setCallbacks (e.2.callbacks ++ [callback])).sub := if_neg hhead
        refine ⟨_, hes.setCallbacks (e.2.callbacks ++ [callback]), ?_⟩
        rw [updateSub_map hpre he, hadded, List.map_append, List.map_cons]

end Calls

/-! ## The same list -/

section Refinement
variable {ctx : PubSubCtx Callback} {subs : List (BmSub Callback)}
  {pre post es : List (Nat × BmSubNode Callback)} {e : Nat × BmSubNode Callback}
  {topic : List UInt8} {last : Option Nat}

theorem intact_empty : Intact (empty : PubSubCtx Callback) [] :=
  ⟨⟨[], ⟨List.nodup_nil, rfl, by simp⟩, rfl⟩, by simp⟩

theorem handleFrom_chain {nodes : Nat → Option (BmSubNode Callback)} {p : Option Nat}
    (delivery : Delivery) (h : Chain nodes BmSubNode.next p es none) {fuel : Nat}
    (hfuel : es.length ≤ fuel) : handleFrom nodes delivery fuel p =
      some ((es.map (·.2.sub)).flatMap fun sub =>
        if bmWildcardMatch delivery.topic sub.topic then sub.callbacks.map (·, delivery)
        else []) := by
  induction es generalizing p fuel with
  | nil =>
    obtain rfl : p = none := h
    cases fuel <;> rfl
  | cons e es ih =>
    obtain ⟨rfl, hcell, hrest⟩ := h
    obtain ⟨fuel, rfl⟩ : ∃ n, fuel = n + 1 := ⟨fuel - 1, by simp at hfuel; omega⟩
    rw [handleFrom, hcell]
    simp only [Option.bind_eq_bind, Option.bind_some, ih hrest (Nat.le_of_succ_le_succ hfuel)]
    rfl

/-- `bm_handle_msg` on the memory is `bm_handle_msg` on the list. -/
theorem bmHandleMsg_holds (h : Holds ctx subs) (nodeId : UInt64) (buf : List UInt8) (size : Nat) :
    ctx.bmHandleMsg nodeId buf size = some (Middleware.bmHandleMsg subs nodeId buf size) := by
  obtain ⟨es, hes, rfl⟩ := h
  exact handleFrom_chain _ hes.chain hes.length_le

/-- A node is taken out. -/
theorem Linked.remove (h : Linked ctx (pre ++ e :: post) none) :
    ∃ ctx' pre', ctx.setNext (lastAddr none pre) e.2.next = some ctx' ∧
      Linked (ctx'.free e.1) (pre' ++ post) none ∧ pre'.map (·.2.sub) = pre.map (·.2.sub) := by
  obtain ⟨hnodup, hchain, hbelow⟩ := h
  obtain ⟨m, hfront, rfl, hcell, hback⟩ := chain_append.mp hchain
  rw [List.map_append, List.map_cons] at hnodup hbelow
  have hpre : Linked ctx pre (some e.1) :=
    ⟨hnodup.of_append_left, hfront, fun a ha => hbelow a (List.mem_append_left _ ha)⟩
  obtain ⟨ctx', pre', hset, hlinked, hallocs, haddr, hsubs, hsame⟩ := hpre.setNext e.2.next
  have hdistinct : (∀ a ∈ pre.map Prod.fst, a ≠ e.1) ∧ (∀ a ∈ post.map Prod.fst, a ≠ e.1) ∧
      ∀ a ∈ post.map Prod.fst, a ∉ pre.map Prod.fst := by
    rw [List.nodup_append] at hnodup
    grind
  have hfreed : ∀ a ≠ e.1, (ctx'.free e.1).nodes a = ctx'.nodes a :=
    fun a ha => Function.update_of_ne ha _ _
  refine ⟨ctx', pre', hset, ⟨?_, chain_append.mpr ⟨e.2.next, ?_, ?_⟩, fun a ha => ?_⟩, hsubs⟩
  · rw [List.map_append, haddr]
    rw [List.nodup_append] at hnodup ⊢
    grind
  · refine hlinked.chain.frame fun a ha => hfreed a (hdistinct.1 a ?_)
    rwa [← haddr]
  · refine hback.frame fun a ha => ?_
    rw [hfreed a (hdistinct.2.1 a ha), hsame a (hdistinct.2.2 a ha)]
  · rw [List.map_append, haddr] at ha
    refine Nat.lt_of_lt_of_eq (hbelow a ?_) hallocs.symm
    rcases List.mem_append.mp ha with ha | ha
    · exact List.mem_append_left _ ha
    · exact List.mem_append_right _ (List.mem_cons_of_mem _ ha)

theorem deleteSub_split {pre post : List (BmSub Callback)} {sub : BmSub Callback}
    (hpre : ∀ s ∈ pre, s.topic ≠ topic) (hsub : sub.topic = topic) :
    Middleware.deleteSub (pre ++ sub :: post) topic = pre ++ post := by
  rw [Middleware.deleteSub, List.eraseP_append_right _ (by simpa using hpre),
    List.eraseP_cons_of_pos (by simpa using hsub)]

theorem deleteSub_holds (h : Linked ctx (pre ++ e :: post) none)
    (hpre : ∀ f ∈ pre, f.2.topic ≠ topic) (he : e.2.topic = topic) :
    ∃ ctx', ctx.deleteSub topic = some ctx' ∧
      Holds ctx' (pre.map (·.2.sub) ++ post.map (·.2.sub)) := by
  obtain ⟨ctx', pre', hset, hlinked, hsubs⟩ := h.remove
  have hget : ctx.getSub topic = some (lastAddr none pre, some e.1) :=
    walk_found h (fun f hf => beq_eq_false_iff_ne.mpr (hpre f hf).symm) (beq_iff_eq.mpr he.symm)
  have hcell : ctx.nodes e.1 = some e.2 := h.chain.cell (by simp)
  refine ⟨ctx'.free e.1, ?_, _, hlinked, ?_⟩
  · simp only [deleteSub, hget, Option.bind_eq_bind, Option.bind_some, hcell, hset]
  · rw [List.map_append, hsubs]

theorem mem_updateSub_imp {f : BmSub Callback → BmSub Callback} {s : BmSub Callback}
    (h : s ∈ updateSub topic f subs) : s ∈ subs ∨ ∃ sub ∈ subs, s = f sub := by
  fun_induction updateSub topic f subs <;> grind

theorem updateSub_eq_self {sub : BmSub Callback} {f : BmSub Callback → BmSub Callback}
    (hget : Middleware.getSub subs topic false = some sub) (hself : f sub = sub) :
    updateSub topic f subs = subs := by
  rw [Middleware.getSub] at hget
  fun_induction updateSub topic f subs <;> grind

variable [DecidableEq Callback]

theorem addCallback_ne_nil (sub : BmSub Callback) (callback : Callback) :
    (sub.addCallback callback).callbacks ≠ [] := by
  unfold BmSub.addCallback
  split
  · rename_i hhead
    exact fun hnil => by simp [hnil] at hhead
  · simp

/-- With memory for all that it allocates, `bm_sub_wl` on the memory is `bm_sub_wl` on the list. -/
theorem bmSubWl_intact (h : Intact ctx subs) (topic : List UInt8) (callback : Option Callback)
    (resource : BmErr) : ∃ ctx', ctx.bmSubWl topic callback ⟨true, true, true⟩ resource =
      some (ctx', (Middleware.bmSubWl subs topic callback resource).2) ∧
        Intact ctx' (Middleware.bmSubWl subs topic callback resource).1 := by
  cases callback with
  | none => exact ⟨ctx, rfl, h⟩
  | some callback =>
  by_cases hzero : topic.length = 0
  · refine ⟨ctx, ?_, ?_⟩
    · simp only [bmSubWl, Middleware.bmSubWl, if_pos hzero]
    · simp only [Middleware.bmSubWl, if_pos hzero]
      exact h
  by_cases hlong : topic.length ≥ bmTopicMaxLen
  · refine ⟨ctx, ?_, ?_⟩
    · simp only [bmSubWl, Middleware.bmSubWl, if_neg hzero, if_pos hlong]
    · simp only [Middleware.bmSubWl, if_neg hzero, if_pos hlong]
      exact h
  obtain ⟨ctx', err, heq, hsubscribed⟩ := bmSubWl_subscribed h
    ⟨hzero, Nat.not_le.mp hlong⟩ callback ⟨true, true, true⟩ resource
  simp only [Middleware.bmSubWl, if_neg hzero, if_neg hlong]
  refine ⟨ctx', ?_, ?_⟩
  · rw [heq]
    cases hsubscribed <;> first | rfl | contradiction
  · cases hsubscribed with
    | again sub hget hhead =>
      have hself : sub.addCallback callback = sub := if_pos hhead
      rw [hget]
      dsimp only
      rwa [updateSub_eq_self hget hself]
    | added sub hget hhead hmemory _ hsub hholds =>
      rw [hget]
      refine ⟨hholds, fun s hs => ?_⟩
      rcases mem_updateSub_imp hs with hs | ⟨sub, -, rfl⟩
      · exact h.callbacks s hs
      · exact addCallback_ne_nil sub callback
    | noCallback _ _ _ hmemory => contradiction
    | noNode _ hmemory => contradiction
    | noTopic _ _ hmemory => contradiction
    | noFirst _ _ _ hmemory => contradiction
    | new hget hnode htopic hmemory _ hholds =>
      rw [hget]
      refine ⟨hholds, fun s hs => ?_⟩
      rcases List.mem_append.mp hs with hs | hs
      · exact h.callbacks s hs
      · obtain rfl := List.mem_singleton.mp hs
        simp

/-- `bm_unsub_wl` on the memory is `bm_unsub_wl` on the list. -/
theorem bmUnsubWl_intact (h : Intact ctx subs) (topic : List UInt8) (callback : Option Callback) :
    ∃ ctx', ctx.bmUnsubWl topic callback =
      some (ctx', (Middleware.bmUnsubWl subs topic callback).2) ∧
        Intact ctx' (Middleware.bmUnsubWl subs topic callback).1 := by
  cases callback with
  | none => exact ⟨ctx, rfl, h⟩
  | some callback =>
  by_cases hzero : topic.length = 0
  · refine ⟨ctx, ?_, ?_⟩
    · simp only [bmUnsubWl, Middleware.bmUnsubWl, if_pos hzero]
    · simp only [Middleware.bmUnsubWl, if_pos hzero]
      exact h
  by_cases hlong : topic.length ≥ bmTopicMaxLen
  · refine ⟨ctx, ?_, ?_⟩
    · simp only [bmUnsubWl, Middleware.bmUnsubWl, if_neg hzero, if_pos hlong]
    · simp only [Middleware.bmUnsubWl, if_neg hzero, if_pos hlong]
      exact h
  obtain ⟨⟨es, hes, rfl⟩, hcallbacks⟩ := h
  simp only [bmUnsubWl, Middleware.bmUnsubWl, if_neg hzero, if_neg hlong]
  rcases getSub_cases hes topic with
    ⟨hnone, hget, hlist⟩ | ⟨pre, e, post, rfl, hpre, he, hget, hlist⟩
  · simp only [hget, hlist, Option.bind_eq_bind, Option.bind_some]
    exact ⟨ctx, rfl, hes.holds, hcallbacks⟩
  · have hmem : e ∈ pre ++ e :: post := by simp
    have hne : e.2.callbacks ≠ [] := hcallbacks _ (List.mem_map_of_mem (f := (·.2.sub)) hmem)
    simp only [hget, hlist, Option.bind_eq_bind, Option.bind_some, hes.chain.cell hmem, if_neg hne]
    by_cases hin : callback ∈ e.2.callbacks
    · have hin' : callback ∈ e.2.sub.callbacks := hin
      rw [if_neg (not_not.mpr hin), if_neg (not_not.mpr hin')]
      have hwritten := hes.setCallbacks (e.2.callbacks.erase callback)
      have hupdate : updateSub topic (BmSub.removeCallback callback)
          ((pre ++ e :: post).map (·.2.sub)) = pre.map (·.2.sub) ++
            (e.2.setCallbacks (e.2.callbacks.erase callback)).sub :: post.map (·.2.sub) :=
        updateSub_map hpre he _
      have hothers : ∀ sub, sub ∈ pre.map (·.2.sub) ∨ sub ∈ post.map (·.2.sub) →
          sub.callbacks ≠ [] := by
        intro sub hsub
        refine hcallbacks sub ?_
        rw [List.map_append, List.map_cons, List.mem_append, List.mem_cons]
        tauto
      rw [hupdate]
      by_cases hrest : e.2.callbacks.erase callback = []
      · have hempty : (e.2.sub.removeCallback callback).callbacks.isEmpty = true := by
          rw [List.isEmpty_iff]
          exact hrest
        obtain ⟨ctx', hdelete, hholds⟩ := deleteSub_holds hwritten hpre he
        rw [if_pos hrest, if_pos hempty, hdelete, deleteSub_split (List.forall_mem_map.mpr hpre) he]
        exact ⟨ctx', rfl, hholds, fun sub hsub => hothers sub (List.mem_append.mp hsub)⟩
      · have hempty : ¬ (e.2.sub.removeCallback callback).callbacks.isEmpty = true := by
          rw [List.isEmpty_iff]
          exact hrest
        rw [if_neg hrest, if_neg hempty]
        refine ⟨_, rfl, ⟨_, hwritten, by rw [List.map_append, List.map_cons]⟩, fun sub hsub => ?_⟩
        rw [List.mem_append, List.mem_cons] at hsub
        rcases hsub with hsub | rfl | hsub
        · exact hothers sub (.inl hsub)
        · exact hrest
        · exact hothers sub (.inr hsub)
    · have hin' : callback ∉ e.2.sub.callbacks := hin
      rw [if_pos hin, if_pos hin']
      exact ⟨ctx, rfl, hes.holds, hcallbacks⟩

end Refinement

/-! ## Failed calls -/

/-- A call of the users of the list. -/
inductive Call (Callback : Type) where
  | sub (topic : List UInt8) (callback : Option Callback) (memory : SubMemory) (resource : BmErr)
  | unsub (topic : List UInt8) (callback : Option Callback)
  | handle (nodeId : UInt64) (buf : List UInt8) (size : Nat)

/-- What a call returns, or the callbacks that it calls. -/
inductive Out (Callback : Type) where
  | err (err : BmErr)
  | called (calls : List (Callback × Delivery))
  deriving DecidableEq

section Calls
variable [DecidableEq Callback]

def call (ctx : PubSubCtx Callback) : Call Callback → Option (PubSubCtx Callback × Out Callback)
  | .sub topic callback memory resource =>
    (ctx.bmSubWl topic callback memory resource).map fun (ctx, err) => (ctx, .err err)
  | .unsub topic callback => (ctx.bmUnsubWl topic callback).map fun (ctx, err) => (ctx, .err err)
  | .handle nodeId buf size =>
    (ctx.bmHandleMsg nodeId buf size).map fun calls => (ctx, .called calls)

/-- What a run of calls returns, if none of them goes astray. -/
def outs : PubSubCtx Callback → List (Call Callback) → Option (List (Out Callback))
  | _, [] => some []
  | ctx, c :: cs => do
    let (ctx, out) ← ctx.call c
    let rest ← outs ctx cs
    some (out :: rest)

/-- The same call on the list. -/
def listCall (subs : List (BmSub Callback)) : Call Callback → List (BmSub Callback) × Out Callback
  | .sub topic callback _ resource =>
    let (subs, err) := Middleware.bmSubWl subs topic callback resource
    (subs, .err err)
  | .unsub topic callback =>
    let (subs, err) := Middleware.bmUnsubWl subs topic callback
    (subs, .err err)
  | .handle nodeId buf size => (subs, .called (Middleware.bmHandleMsg subs nodeId buf size))

def listOuts : List (BmSub Callback) → List (Call Callback) → List (Out Callback)
  | _, [] => []
  | subs, c :: cs => (listCall subs c).2 :: listOuts (listCall subs c).1 cs

/-- Nothing fails for want of memory. -/
def AmpleMemory : Call Callback → Prop
  | .sub _ _ memory _ => memory = ⟨true, true, true⟩
  | _ => True

theorem call_intact {ctx : PubSubCtx Callback} {subs : List (BmSub Callback)} (h : Intact ctx subs)
    {c : Call Callback} (hc : AmpleMemory c) :
    ∃ ctx', ctx.call c = some (ctx', (listCall subs c).2) ∧ Intact ctx' (listCall subs c).1 := by
  cases c with
  | sub topic callback memory resource =>
    obtain rfl : memory = ⟨true, true, true⟩ := hc
    obtain ⟨ctx', heq, hintact⟩ := bmSubWl_intact h topic callback resource
    exact ⟨ctx', by rw [call, heq]; rfl, hintact⟩
  | unsub topic callback =>
    obtain ⟨ctx', heq, hintact⟩ := bmUnsubWl_intact h topic callback
    exact ⟨ctx', by rw [call, heq]; rfl, hintact⟩
  | handle nodeId buf size =>
    exact ⟨ctx, by rw [call, bmHandleMsg_holds h.holds]; rfl, h⟩

/-- In runs in which nothing fails for want of memory, the memory behaves as the list. -/
theorem outs_intact {ctx : PubSubCtx Callback} {subs : List (BmSub Callback)} (h : Intact ctx subs)
    {calls : List (Call Callback)} (hcalls : ∀ c ∈ calls, AmpleMemory c) :
    ctx.outs calls = some (listOuts subs calls) := by
  induction calls generalizing ctx subs with
  | nil => rfl
  | cons c cs ih =>
    obtain ⟨ctx', heq, hintact⟩ := call_intact h (hcalls c List.mem_cons_self)
    have hrest := ih hintact fun c hc => hcalls c (List.mem_cons_of_mem _ hc)
    simp only [outs, heq, Option.bind_eq_bind, Option.bind_some, hrest]
    rfl

/-- A call that returns `BmENOMEM` leaves the list as it was, and later calls find no difference. -/
def FailedSubLaw (ctx : PubSubCtx Callback) (subs : List (BmSub Callback)) (topic : List UInt8)
    (callback : Option Callback) (memory : SubMemory) (resource : BmErr) : Prop :=
  ∀ ctx', ctx.bmSubWl topic callback memory resource = some (ctx', .enomem) →
    Holds ctx' subs ∧ ∀ calls, ctx'.outs calls = ctx.outs calls

/-- The call is refused, or fails with its first allocation, or with none. -/
def FailsWhole (subs : List (BmSub Callback)) (topic : List UInt8) (callback : Option Callback)
    (memory : SubMemory) (resource : BmErr) : Prop :=
  callback = none ∨ ¬ ValidTopic topic ∨
  match Middleware.getSub subs topic false with
  | some sub => sub.callbacks.head? = callback ∨ memory.callback = false ∨ resource ≠ .enomem
  | none => memory.node = false ∨
    memory.topic = true ∧ memory.callback = true ∧ resource ≠ .enomem

variable {ctx : PubSubCtx Callback} {subs : List (BmSub Callback)} {topic : List UInt8}
  {resource : BmErr}

theorem afterResource_ok : afterResource resource .ok = .enomem ↔ resource = .enomem := by
  cases resource <;> decide

omit [DecidableEq Callback] in
theorem updateSub_ne {sub : BmSub Callback} {f : BmSub Callback → BmSub Callback}
    (hget : Middleware.getSub subs topic false = some sub) (hne : f sub ≠ sub) :
    updateSub topic f subs ≠ subs := by
  obtain ⟨hsub, pre, post, rfl, hpre⟩ := List.find?_eq_some_iff_append.mp hget
  have hsub : topic = sub.topic := by simpa using hsub
  have hpre : ∀ s ∈ pre, topic ≠ s.topic := by simpa using hpre
  rw [updateSub_split (fun s hs => (hpre s hs).symm) hsub.symm]
  intro hsame
  exact hne (List.cons.inj (List.append_cancel_left hsame)).1

end Calls

/-- A call that returns `BmENOMEM` leaves the list as it was, exactly if no other allocation had
succeeded before: it was the node of a new subscription or of a new callback, or nothing was to be
changed. -/
theorem failed_sub_atomic_iff [DecidableEq Callback] (ctx : PubSubCtx Callback)
    (subs : List (BmSub Callback)) (h : Intact ctx subs) (topic : List UInt8)
    (callback : Option Callback) (memory : SubMemory) (resource : BmErr) :
    FailedSubLaw ctx subs topic callback memory resource ↔
      FailsWhole subs topic callback memory resource := by
  by_cases hrefused : callback = none ∨ ¬ ValidTopic topic
  · refine iff_of_true (fun ctx' hfail => ?_) (hrefused.imp_right .inl)
    obtain ⟨err, heq, herr, -⟩ := bmSubWl_refused ctx hrefused memory resource
    rw [heq] at hfail
    exact absurd (Prod.mk.inj (Option.some.inj hfail)).2 herr
  obtain ⟨hsome, hvalid⟩ := not_or.mp hrefused
  obtain ⟨callback, rfl⟩ := Option.ne_none_iff_exists'.mp hsome
  have hvalid := not_not.mp hvalid
  obtain ⟨ctx', err, heq, hsubscribed⟩ :=
    bmSubWl_subscribed h hvalid callback memory resource
  -- the law is about this one result
  have hlaw : FailedSubLaw ctx subs topic (some callback) memory resource ↔
      (err = .enomem → Holds ctx' subs ∧ ∀ calls, ctx'.outs calls = ctx.outs calls) := by
    rw [FailedSubLaw, heq]
    constructor
    · rintro hlaw rfl
      exact hlaw ctx' rfl
    · intro hlaw ctx'' hfail
      obtain ⟨rfl, rfl⟩ := Prod.mk.inj (Option.some.inj hfail)
      exact hlaw rfl
  have hwhole : FailsWhole subs topic (some callback) memory resource ↔
      match Middleware.getSub subs topic false with
      | some sub => sub.callbacks.head? = some callback ∨ memory.callback = false ∨
        resource ≠ .enomem
      | none => memory.node = false ∨
        memory.topic = true ∧ memory.callback = true ∧ resource ≠ .enomem := by
    rw [FailsWhole, or_iff_right (by simp), or_iff_right (not_not.mpr hvalid)]
  rw [hlaw, hwhole]
  cases hsubscribed with
  | again sub hget hhead =>
    rw [hget]
    exact iff_of_true (fun _ => ⟨h.holds, fun _ => rfl⟩) (.inl hhead)
  | noCallback sub hget hhead hmemory =>
    rw [hget]
    exact iff_of_true (fun _ => ⟨h.holds, fun _ => rfl⟩) (.inr (.inl hmemory))
  | added sub hget hhead hmemory _ hsub hholds =>
    have hchanged : ¬ Holds ctx' subs := by
      refine fun hsame => updateSub_ne hget ?_ (hholds.unique hsame)
      rw [BmSub.addCallback, if_neg hhead]
      intro heq
      simpa using congrArg BmSub.callbacks heq
    simp [hget, hhead, hmemory, hchanged, afterResource_ok]
  | noNode hget hmemory =>
    rw [hget]
    exact iff_of_true (fun _ => ⟨h.holds, fun _ => rfl⟩) (.inl hmemory)
  | noTopic hget hnode hmemory _ hastray => simp [hget, hnode, hmemory, hastray]
  | noFirst hget hnode htopic hmemory _ hholds =>
    have hchanged : ¬ Holds ctx' subs := fun hsame => by simpa using hholds.unique hsame
    simp [hget, hnode, hmemory, hchanged]
  | new hget hnode htopic hmemory _ hholds =>
    have hchanged : ¬ Holds ctx' subs := fun hsame => by simpa using hholds.unique hsame
    simp [hget, hnode, htopic, hmemory, hchanged, afterResource_ok]

/-- No callback can be allocated for a second subscription to a topic. -/
theorem failed_sub_atomic_noCallback : ∃ ctx : PubSubCtx Nat,
    (empty : PubSubCtx Nat).bmSubWl [0x61] (some 1) ⟨true, true, true⟩ .ok = some (ctx, .ok) ∧
      (ctx.bmSubWl [0x61] (some 2) ⟨true, true, false⟩ .ok).map Prod.snd = some .enomem ∧
      FailedSubLaw ctx [⟨[0x61], [1]⟩] [0x61] (some 2) ⟨true, true, false⟩ .ok := by
  have hempty : Intact (empty : PubSubCtx Nat) [] := intact_empty
  obtain ⟨ctx, hsub, hintact⟩ := bmSubWl_intact hempty [0x61] (some 1) .ok
  refine ⟨ctx, hsub, ?_, ?_⟩
  · have hfails : ((empty : PubSubCtx Nat).bmSubWl [0x61] (some 1) ⟨true, true, true⟩ .ok).bind
        (fun r => (r.1.bmSubWl [0x61] (some 2) ⟨true, true, false⟩ .ok).map Prod.snd) =
          some .enomem := by decide +kernel
    rwa [hsub, Option.bind_some] at hfails
  · exact (failed_sub_atomic_iff ctx [⟨[0x61], [1]⟩] hintact [0x61] (some 2)
      ⟨true, true, false⟩ .ok).mpr (.inr (.inr (.inr (.inl rfl))))

/-- Where the topic cannot be allocated, the next message is looked up in a freed node. Where the
callback cannot be allocated, the next call for the topic looks at a callback that is not there. -/
theorem failed_sub_not_atomic :
    ¬ FailedSubLaw (empty : PubSubCtx Nat) [] [0x61] (some 1) ⟨true, false, true⟩ .ok ∧
    ((empty : PubSubCtx Nat).bmSubWl [0x61] (some 1) ⟨true, false, true⟩ .ok).map Prod.snd =
      some .enomem ∧
    (empty : PubSubCtx Nat).outs [.sub [0x61] (some 1) ⟨true, false, true⟩ .ok,
      .handle 7 [0, 0, 1, 0, 2, 0x61] 6] = none ∧
    (empty : PubSubCtx Nat).outs [.sub [0x61] (some 1) ⟨true, true, false⟩ .ok,
      .sub [0x61] (some 1) ⟨true, true, true⟩ .ok] = none := by
  refine ⟨fun hlaw => ?_, by decide, by decide, by decide⟩
  rcases (failed_sub_atomic_iff empty [] intact_empty [0x61] (some 1) ⟨true, false, true⟩ .ok).mp
    hlaw with hnone | hvalid | hwhole
  · exact absurd hnone (by simp)
  · exact hvalid ⟨by decide, by decide⟩
  · simp [Middleware.getSub] at hwhole

end PubSubCtx

end BmCore.Middleware
