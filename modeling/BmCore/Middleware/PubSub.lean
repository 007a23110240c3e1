import BmCore.Common.Util
import BmCore.Library.CString
import BmCore.Library.Runs
import Mathlib.Data.List.Nodup
import Mathlib.Data.List.Flatten

/-!
# Subscriptions

`middleware/pubsub.c`, with the allocations successful. A subscription is a topic with a list of
callbacks. `bm_sub_wl` compares a callback with the first one of its topic only, so the pairs of a
topic and a callback are a set as long as no other pair is subscribed again.
-/
namespace BmCore.Middleware
open Library

/-- `BM_TOPIC_MAX_LEN` -/
def bmTopicMaxLen : Nat := 255

/-- `BmSub`; the length of the topic is the length of the list. -/
structure BmSub (Callback : Type) where
  topic : List UInt8
  callbacks : List Callback
  deriving DecidableEq

/-- The arguments of a callback. -/
structure Delivery where
  nodeId : UInt64
  topic : List UInt8
  data : List UInt8
  type : UInt8
  version : UInt8
  deriving DecidableEq

/-- What `bm_handle_msg` passes on of a buffer: `BmPubSubData` has five bytes, the third one is
`topic_len`. -/
def Delivery.ofBuf (nodeId : UInt64) (buf : List UInt8) (size : Nat) : Delivery :=
  let topicLen := (buf.getD 2 0).toNat
  let dataLen := (UInt16.ofNat size - 5 - UInt16.ofNat topicLen).toNat
  { nodeId
    topic := chars topicLen (buf.drop 5)
    data := chars dataLen (buf.drop (5 + topicLen))
    type := buf.getD 3 0
    version := buf.getD 4 0 }

/-- The message that `bm_pub_wl` sends, with its buffers allocated. -/
def bmPubWl (topic data : List UInt8) (type version : UInt8) : Except BmErr (List UInt8) :=
  if topic.length = 0 then .error .einval
  else if topic.length ≥ bmTopicMaxLen then .error .emsgsize
  else
    let messageSize := (5 + topic.length + data.length) % 2 ^ 16
    .ok (([0, 0, UInt8.ofNat topic.length, type, version] ++ topic ++ data).take messageSize)

section PubSub
variable {Callback : Type}

/-- `get_sub` -/
def getSub (subs : List (BmSub Callback)) (topic : List UInt8) (wildcardSearch : Bool) :
    Option (BmSub Callback) :=
  subs.find? fun sub =>
    if wildcardSearch then bmWildcardMatch topic sub.topic else topic == sub.topic

/-- Writes through the pointer that `get_sub` returns. -/
def updateSub (topic : List UInt8) (f : BmSub Callback → BmSub Callback) :
    List (BmSub Callback) → List (BmSub Callback)
  | [] => []
  | sub :: subs => if topic = sub.topic then f sub :: subs else sub :: updateSub topic f subs

/-- `delete_sub` -/
def deleteSub (subs : List (BmSub Callback)) (topic : List UInt8) : List (BmSub Callback) :=
  subs.eraseP (·.topic == topic)

/-- A callback is added behind the others. The loop to the last node compares it with the first one
in every round. -/
def BmSub.addCallback [DecidableEq Callback] (callback : Callback) (sub : BmSub Callback) :
    BmSub Callback :=
  if sub.callbacks.head? = some callback then sub
  else { sub with callbacks := sub.callbacks ++ [callback] }

/-- The first node of a callback is taken out. -/
def BmSub.removeCallback [DecidableEq Callback] (callback : Callback) (sub : BmSub Callback) :
    BmSub Callback :=
  { sub with callbacks := sub.callbacks.erase callback }

/-- `bm_sub_wl`, with the result of `bcmp_resource_discovery_add_resource`. -/
def bmSubWl [DecidableEq Callback] (subs : List (BmSub Callback)) (topic : List UInt8)
    (callback : Option Callback) (resource : BmErr) : List (BmSub Callback) × BmErr :=
  match callback with
  | none => (subs, .einval)
  | some callback =>
    if topic.length = 0 then (subs, .einval)
    else if topic.length ≥ bmTopicMaxLen then (subs, .emsgsize)
    else
      let subs := match getSub subs topic false with
        | some _ => updateSub topic (.addCallback callback) subs
        | none => subs ++ [⟨topic, [callback]⟩]
      (subs, if resource = .eagain then .ok else resource)

/-- `bm_unsub_wl` -/
def bmUnsubWl [DecidableEq Callback] (subs : List (BmSub Callback)) (topic : List UInt8)
    (callback : Option Callback) : List (BmSub Callback) × BmErr :=
  match callback with
  | none => (subs, .einval)
  | some callback =>
    if topic.length = 0 then (subs, .einval)
    else if topic.length ≥ bmTopicMaxLen then (subs, .emsgsize)
    else match getSub subs topic false with
      | none => (subs, .einval)
      | some sub =>
        if callback ∉ sub.callbacks then (subs, .enoent)
        else
          let subs := updateSub topic (.removeCallback callback) subs
          (if (sub.removeCallback callback).callbacks.isEmpty then deleteSub subs topic else subs,
            .ok)

/-- `bm_handle_msg`: the calls of callbacks in their order. -/
def bmHandleMsg (subs : List (BmSub Callback)) (nodeId : UInt64) (buf : List UInt8) (size : Nat) :
    List (Callback × Delivery) :=
  let delivery := Delivery.ofBuf nodeId buf size
  subs.flatMap fun sub =>
    if bmWildcardMatch delivery.topic sub.topic then sub.callbacks.map (·, delivery) else []

/-! ## Pairs -/

/-- The callback is called for the topic. -/
def Present (subs : List (BmSub Callback)) (topic : List UInt8) (callback : Callback) : Prop :=
  ∃ sub ∈ subs, sub.topic = topic ∧ callback ∈ sub.callbacks

/-- The topics that can be subscribed. -/
def ValidTopic (topic : List UInt8) : Prop := topic.length ≠ 0 ∧ topic.length < bmTopicMaxLen

/-- A list in which every pair is there once. -/
structure Pairs (subs : List (BmSub Callback)) : Prop where
  topics : (subs.map (·.topic)).Nodup
  valid : ∀ sub ∈ subs, ValidTopic sub.topic
  nonempty : ∀ sub ∈ subs, sub.callbacks ≠ []
  callbacks : ∀ sub ∈ subs, sub.callbacks.Nodup

section Pairs
variable {subs : List (BmSub Callback)} {topic : List UInt8} {sub : BmSub Callback}

theorem getSub_eq_none : getSub subs topic false = none ↔ ∀ sub ∈ subs, topic ≠ sub.topic := by
  simp [getSub]

theorem getSub_eq_some (h : getSub subs topic false = some sub) : sub ∈ subs ∧
    sub.topic = topic := by
  have htopic := List.find?_some h
  exact ⟨List.mem_of_find?_eq_some h, by simpa using Eq.symm (by simpa using htopic)⟩

/-- `get_sub` behind a change of a subscription. -/
theorem getSub_updateSub {f : BmSub Callback → BmSub Callback}
    (hf : ∀ sub, (f sub).topic = sub.topic) (topic' : List UInt8) :
    getSub (updateSub topic f subs) topic' false =
      if topic' = topic then (getSub subs topic false).map f else getSub subs topic' false := by
  unfold getSub
  fun_induction updateSub topic f subs with
  | case1 => simp
  | case2 sub subs htopic =>
    subst htopic
    by_cases h : topic' = sub.topic <;> simp [h, hf]
  | case3 sub subs htopic ih =>
    by_cases h : topic' = sub.topic
    · have hne : sub.topic ≠ topic := fun h' => htopic h'.symm
      simp [h, hne]
    · simp only [Bool.false_eq_true, if_false, List.find?_cons, beq_eq_false_iff_ne.mpr h,
        beq_eq_false_iff_ne.mpr htopic] at ih ⊢
      exact ih

/-- A topic is in the list once. -/
theorem Pairs.eq_of_topic (h : Pairs subs) {sub' : BmSub Callback} (hsub : sub ∈ subs)
    (hsub' : sub' ∈ subs) (htopic : sub.topic = sub'.topic) : sub = sub' :=
  List.inj_on_of_nodup_map h.topics hsub hsub' htopic

theorem map_topic_updateSub {f : BmSub Callback → BmSub Callback}
    (hf : ∀ sub, (f sub).topic = sub.topic) :
    (updateSub topic f subs).map (·.topic) = subs.map (·.topic) := by
  fun_induction updateSub topic f subs <;> grind

/-- The subscription of the topic is changed, the others stay. -/
theorem mem_updateSub {f : BmSub Callback → BmSub Callback} (h : (subs.map (·.topic)).Nodup)
    {s : BmSub Callback} : s ∈ updateSub topic f subs ↔
      (s ∈ subs ∧ s.topic ≠ topic) ∨ ∃ sub ∈ subs, sub.topic = topic ∧ s = f sub := by
  fun_induction updateSub topic f subs with
  | case1 => simp
  | case2 sub subs htopic =>
    have hother : ∀ s ∈ subs, s.topic ≠ sub.topic := by grind
    grind
  | case3 sub subs htopic ih =>
    have hnodup : (subs.map (·.topic)).Nodup := by grind
    grind

theorem present_append {t : List UInt8} {c callback : Callback} :
    Present (subs ++ [⟨topic, [callback]⟩]) t c ↔
      Present subs t c ∨ (t = topic ∧ c = callback) := by
  simp only [Present, List.mem_append, List.mem_singleton, or_and_right, exists_or, exists_eq_left]
  rw [eq_comm]

/-- The callbacks of the topic are those of its new subscription. -/
theorem Pairs.present_updateSub (h : Pairs subs) (hsub : sub ∈ subs)
    {f : BmSub Callback → BmSub Callback} (hf : ∀ sub, (f sub).topic = sub.topic) {t : List UInt8}
    {c : Callback} : Present (updateSub sub.topic f subs) t c ↔
      (Present subs t c ∧ t ≠ sub.topic) ∨ (t = sub.topic ∧ c ∈ (f sub).callbacks) := by
  constructor
  · rintro ⟨s, hs, rfl, hc⟩
    rcases (mem_updateSub h.topics).mp hs with ⟨hs, htopic⟩ | ⟨s', hs', htopic, rfl⟩
    · exact .inl ⟨⟨s, hs, rfl, hc⟩, htopic⟩
    · obtain rfl := h.eq_of_topic hs' hsub htopic
      exact .inr ⟨hf s', hc⟩
  · rintro (⟨⟨s, hs, rfl, hc⟩, htopic⟩ | ⟨rfl, hc⟩)
    · exact ⟨s, (mem_updateSub h.topics).mpr (.inl ⟨hs, htopic⟩), rfl, hc⟩
    · exact ⟨f sub, (mem_updateSub h.topics).mpr (.inr ⟨sub, hsub, rfl, rfl⟩), hf sub, hc⟩

theorem Pairs.present_topic (h : Pairs subs) (hsub : sub ∈ subs) {c : Callback} :
    Present subs sub.topic c ↔ c ∈ sub.callbacks := by
  constructor
  · rintro ⟨s, hs, htopic, hc⟩
    obtain rfl := h.eq_of_topic hs hsub htopic
    exact hc
  · intro hc
    exact ⟨sub, hsub, rfl, hc⟩

theorem Pairs.updated (h : Pairs subs) {f : BmSub Callback → BmSub Callback}
    (hf : ∀ sub, (f sub).topic = sub.topic)
    (hnonempty : ∀ sub ∈ subs, sub.topic = topic → (f sub).callbacks ≠ [])
    (hnodup : ∀ sub ∈ subs, sub.topic = topic → (f sub).callbacks.Nodup) :
    Pairs (updateSub topic f subs) := by
  refine ⟨by rw [map_topic_updateSub hf]; exact h.topics, ?_, ?_, ?_⟩ <;> intro s hs <;>
    rcases (mem_updateSub h.topics).mp hs with ⟨hs, -⟩ | ⟨sub, hsub, htopic, rfl⟩
  · exact h.valid s hs
  · rw [hf]
    exact h.valid sub hsub
  · exact h.nonempty s hs
  · exact hnonempty sub hsub htopic
  · exact h.callbacks s hs
  · exact hnodup sub hsub htopic

theorem Pairs.append (h : Pairs subs) (hvalid : ValidTopic topic)
    (hnone : getSub subs topic false = none) (callback : Callback) :
    Pairs (subs ++ [⟨topic, [callback]⟩]) := by
  rw [getSub_eq_none] at hnone
  obtain ⟨htopics, htopic, hnonempty, hcallbacks⟩ := h
  refine ⟨?_, ?_, ?_, ?_⟩ <;> grind

/-- Topics are distinct, so one subscription is deleted. -/
theorem mem_deleteSub (h : (subs.map (·.topic)).Nodup) :
    sub ∈ deleteSub subs topic ↔ sub ∈ subs ∧ sub.topic ≠ topic := by
  unfold deleteSub
  induction subs with
  | nil => simp
  | cons s subs ih =>
    have hrest : (subs.map (·.topic)).Nodup := by grind
    have hother : ∀ s' ∈ subs, s'.topic ≠ s.topic := by grind
    rw [List.eraseP_cons]
    grind

end Pairs

/-! ## Calls -/

section Calls
variable [DecidableEq Callback] {subs : List (BmSub Callback)} {topic : List UInt8}
  {callback : Callback}

theorem removeCallback_topic (callback : Callback) (sub : BmSub Callback) :
    (sub.removeCallback callback).topic = sub.topic := rfl

theorem addCallback_topic (callback : Callback) (sub : BmSub Callback) :
    (sub.addCallback callback).topic = sub.topic := by
  unfold BmSub.addCallback
  split <;> rfl

/-- What `bm_sub_wl` does with a valid topic. -/
theorem bmSubWl_cases (subs : List (BmSub Callback)) (callback : Callback)
    (hvalid : ValidTopic topic) (resource : BmErr) :
    (getSub subs topic false = none ∧
      (bmSubWl subs topic (some callback) resource).1 = subs ++ [⟨topic, [callback]⟩]) ∨
    ∃ sub, getSub subs topic false = some sub ∧
      (bmSubWl subs topic (some callback) resource).1 =
        updateSub topic (.addCallback callback) subs := by
  have hlen : ¬ topic.length ≥ bmTopicMaxLen := Nat.not_le.mpr hvalid.2
  simp only [bmSubWl, if_neg hvalid.1, if_neg hlen]
  cases getSub subs topic false with
  | none => exact .inl ⟨rfl, rfl⟩
  | some sub => exact .inr ⟨sub, rfl, rfl⟩

/-- The callback is the one that `bm_sub_wl` compares with. -/
def FirstOfTopic (subs : List (BmSub Callback)) (topic : List UInt8) (callback : Callback) : Prop :=
  ∃ sub, getSub subs topic false = some sub ∧ sub.callbacks.head? = some callback

/-- A new pair is added to the others. -/
theorem Pairs.sub_new (h : Pairs subs) (hvalid : ValidTopic topic)
    (hnew : ¬ Present subs topic callback) (resource : BmErr) :
    Pairs (bmSubWl subs topic (some callback) resource).1 ∧ ∀ t f,
      Present (bmSubWl subs topic (some callback) resource).1 t f ↔
        Present subs t f ∨ (t = topic ∧ f = callback) := by
  rcases bmSubWl_cases subs callback hvalid resource with ⟨hnone, heq⟩ | ⟨sub, hsome, heq⟩ <;>
    rw [heq]
  · refine ⟨h.append hvalid hnone callback, fun t f => ?_⟩
    exact present_append
  · obtain ⟨hsub, rfl⟩ := getSub_eq_some hsome
    have hcallback : callback ∉ sub.callbacks := fun hmem => hnew ⟨sub, hsub, rfl, hmem⟩
    have hhead : sub.callbacks.head? ≠ some callback :=
      fun hhead => hcallback (List.mem_of_head? hhead)
    have hadd : sub.addCallback callback = { sub with callbacks := sub.callbacks ++ [callback] } :=
      if_neg hhead
    refine ⟨h.updated (addCallback_topic callback) (fun s hs hs' => ?_) (fun s hs hs' => ?_),
      fun t f => ?_⟩
    · obtain rfl := h.eq_of_topic hs hsub hs'
      simp [hadd]
    · obtain rfl := h.eq_of_topic hs hsub hs'
      have := h.callbacks s hsub
      grind
    · rw [h.present_updateSub hsub (addCallback_topic callback), hadd]
      have := h.present_topic hsub (c := f)
      grind

/-- The first callback of a topic is not added again. -/
theorem Pairs.sub_first (h : Pairs subs) (hfirst : FirstOfTopic subs topic callback)
    (resource : BmErr) : (bmSubWl subs topic (some callback) resource).1 = subs := by
  obtain ⟨sub, hsome, hhead⟩ := hfirst
  obtain ⟨hsub, rfl⟩ := getSub_eq_some hsome
  rcases bmSubWl_cases subs callback (h.valid sub hsub) resource with ⟨hnone, -⟩ | ⟨sub', -, heq⟩
  · simp [hsome] at hnone
  · rw [heq]
    clear heq hsome
    have htopics := h.topics
    clear h
    induction subs with
    | nil => rfl
    | cons s subs ih => grind [updateSub, BmSub.addCallback]

/-- Any other callback that is there is added a second time. -/
theorem Pairs.sub_changes (h : Pairs subs) (hpresent : Present subs topic callback)
    (hnot : ¬ FirstOfTopic subs topic callback) (resource : BmErr) :
    (bmSubWl subs topic (some callback) resource).1 ≠ subs := by
  obtain ⟨sub, hsub, rfl, hmem⟩ := hpresent
  rcases bmSubWl_cases subs callback (h.valid sub hsub) resource with
    ⟨hnone, -⟩ | ⟨sub', hsome, heq⟩
  · exact absurd rfl (getSub_eq_none.mp hnone sub hsub)
  · obtain ⟨hsub', htopic⟩ := getSub_eq_some hsome
    obtain rfl := h.eq_of_topic hsub' hsub htopic
    have hhead : sub'.callbacks.head? ≠ some callback := fun hhead => hnot ⟨sub', hsome, hhead⟩
    intro hsame
    have hmem' : sub'.addCallback callback ∈ updateSub sub'.topic
        (.addCallback callback) subs :=
      (mem_updateSub h.topics).mpr (.inr ⟨sub', hsub, rfl, rfl⟩)
    rw [← heq, hsame, BmSub.addCallback, if_neg hhead] at hmem'
    have hsub'' := congrArg BmSub.callbacks (h.eq_of_topic hmem' hsub rfl)
    simp at hsub''

/-- A subscription without callbacks is deleted. -/
theorem Pairs.mem_removed_last (h : Pairs subs) {sub : BmSub Callback} :
    sub ∈ deleteSub (updateSub topic (.removeCallback callback) subs) topic ↔
      sub ∈ subs ∧ sub.topic ≠ topic := by
  have htopics : ((updateSub topic (.removeCallback callback) subs).map
      (·.topic)).Nodup := by
    rw [map_topic_updateSub (removeCallback_topic callback)]
    exact h.topics
  rw [mem_deleteSub htopics, mem_updateSub h.topics]
  constructor
  · rintro ⟨⟨hsub, -⟩ | ⟨sub', hsub', htopic, rfl⟩, hne⟩
    · exact ⟨hsub, hne⟩
    · exact absurd htopic hne
  · rintro ⟨hsub, hne⟩
    exact ⟨.inl ⟨hsub, hne⟩, hne⟩

theorem Pairs.removed_last (h : Pairs subs) :
    Pairs (deleteSub (updateSub topic (.removeCallback callback) subs) topic) := by
  refine ⟨?_, fun s hs => h.valid s ?_, fun s hs => h.nonempty s ?_, fun s hs => h.callbacks s ?_⟩
  · refine List.Nodup.sublist (List.eraseP_sublist.map _) ?_
    rw [map_topic_updateSub (removeCallback_topic callback)]
    exact h.topics
  all_goals exact (h.mem_removed_last.mp hs).1

theorem Pairs.present_removed_last (h : Pairs subs) {t : List UInt8} {c : Callback} :
    Present (deleteSub (updateSub topic (.removeCallback callback) subs) topic) t c ↔
      Present subs t c ∧ t ≠ topic := by
  constructor
  · rintro ⟨s, hs, rfl, hc⟩
    obtain ⟨hs, hne⟩ := h.mem_removed_last.mp hs
    exact ⟨⟨s, hs, rfl, hc⟩, hne⟩
  · rintro ⟨⟨s, hs, rfl, hc⟩, hne⟩
    exact ⟨s, h.mem_removed_last.mpr ⟨hs, hne⟩, rfl, hc⟩

/-- One pair is taken out, if it is there. -/
theorem Pairs.unsub (h : Pairs subs) (topic : List UInt8) (callback : Option Callback) :
    Pairs (bmUnsubWl subs topic callback).1 ∧
    ((bmUnsubWl subs topic callback).2 = .ok ↔ ∃ c, callback = some c ∧ Present subs topic c) ∧
    ∀ t c, Present (bmUnsubWl subs topic callback).1 t c ↔
      Present subs t c ∧ ¬ (t = topic ∧ callback = some c) := by
  cases callback with
  | none => simp [bmUnsubWl, h]
  | some callback =>
    -- no topic that is refused is in the list
    have hrefused : ¬ ValidTopic topic → ¬ Present subs topic callback := by
      rintro hvalid ⟨sub, hsub, rfl, -⟩
      exact hvalid (h.valid sub hsub)
    have habsent : ¬ Present subs topic callback → ∀ t c, Present subs t c ↔
        Present subs t c ∧ ¬ (t = topic ∧ some callback = some c) := by
      rintro habsent t c
      refine ⟨fun hpresent => ⟨hpresent, ?_⟩, And.left⟩
      rintro ⟨rfl, hc⟩
      exact habsent (Option.some.inj hc ▸ hpresent)
    by_cases hzero : topic.length = 0
    · have hnot := hrefused fun hvalid => hvalid.1 hzero
      simp only [bmUnsubWl, if_pos hzero]
      exact ⟨h, by simp [hnot], habsent hnot⟩
    by_cases hlong : topic.length ≥ bmTopicMaxLen
    · have hnot := hrefused fun hvalid => Nat.not_le.mpr hvalid.2 hlong
      simp only [bmUnsubWl, if_neg hzero, if_pos hlong]
      exact ⟨h, by simp [hnot], habsent hnot⟩
    simp only [bmUnsubWl, if_neg hzero, if_neg hlong]
    cases hget : getSub subs topic false with
    | none =>
      have hnot : ¬ Present subs topic callback := by
        rintro ⟨sub, hsub, rfl, -⟩
        exact getSub_eq_none.mp hget sub hsub rfl
      exact ⟨h, by simp [hnot], habsent hnot⟩
    | some sub =>
      obtain ⟨hsub, rfl⟩ := getSub_eq_some hget
      dsimp only
      by_cases hmem : callback ∈ sub.callbacks
      · rw [if_neg (not_not.mpr hmem)]
        refine ⟨?_, ?_, fun t c => ?_⟩
        · split
          · exact h.removed_last
          · rename_i hrest
            refine h.updated (fun _ => rfl) (fun s hs hs' => ?_) (fun s hs hs' => ?_)
            · obtain rfl := h.eq_of_topic hs hsub hs'
              simpa using hrest
            · exact (h.callbacks s hs).erase callback
        · simpa using (h.present_topic hsub).mpr hmem
        · have herase : c ∈ (sub.removeCallback callback).callbacks ↔
              c ∈ sub.callbacks ∧ c ≠ callback := by
            rw [BmSub.removeCallback, (h.callbacks sub hsub).mem_erase_iff, and_comm]
          have htopic := h.present_topic hsub (c := c)
          split
          · rename_i hrest
            dsimp only
            rw [h.present_removed_last]
            have hnil : c ∉ (sub.removeCallback callback).callbacks := by
              rw [List.isEmpty_iff.mp hrest]
              simp
            grind
          · dsimp only
            rw [h.present_updateSub hsub (removeCallback_topic callback)]
            grind
      · have hnot : ¬ Present subs sub.topic callback :=
          fun hp => hmem ((h.present_topic hsub).mp hp)
        rw [if_pos hmem]
        exact ⟨h, by simp [hnot], habsent hnot⟩

end Calls

/-! ## Messages -/

/-- A message that fits is received as it was sent. -/
theorem ofBuf_bmPubWl {topic data message : List UInt8} {type version : UInt8}
    (h : bmPubWl topic data type version = .ok message)
    (hsize : 5 + topic.length + data.length < 2 ^ 16) (nodeId : UInt64) :
    Delivery.ofBuf nodeId message message.length = ⟨nodeId, topic, data, type, version⟩ := by
  unfold bmPubWl at h
  split_ifs at h with hzero hlong
  have hlen : (UInt8.ofNat topic.length).toNat = topic.length := by
    rw [UInt8.toNat_ofNat', Nat.mod_eq_of_lt]
    unfold bmTopicMaxLen at hlong
    omega
  dsimp only at h
  rw [Nat.mod_eq_of_lt hsize, List.take_of_length_le (by simp; omega)] at h
  obtain rfl := Except.ok.inj h
  have htopic : ∀ rest : List UInt8, chars topic.length (topic ++ rest) = topic := by
    simp [chars]
  have hdrop : ([0, 0, UInt8.ofNat topic.length, type, version] ++ topic ++ data).drop
      (5 + topic.length) = data :=
    List.drop_left' (by simp; omega)
  have hdata : chars data.length data = data := by simp [chars]
  have hdataLen : (UInt16.ofNat (5 + topic.length + data.length) - 5 -
      UInt16.ofNat topic.length).toNat = data.length := by
    have hsum : UInt16.ofNat (5 + topic.length + data.length) =
        5 + UInt16.ofNat topic.length + UInt16.ofNat data.length := by
      rw [UInt16.ofNat_add, UInt16.ofNat_add]
      rfl
    have hsub : 5 + UInt16.ofNat topic.length + UInt16.ofNat data.length - 5 -
        UInt16.ofNat topic.length = UInt16.ofNat data.length := by
      grind
    rw [hsum, hsub, UInt16.toNat_ofNat', Nat.mod_eq_of_lt (by omega)]
  have hlength : ([0, 0, UInt8.ofNat topic.length, type, version] ++ topic ++ data).length =
      5 + topic.length + data.length := by
    simp
    omega
  have htopicLen : (([0, 0, UInt8.ofNat topic.length, type, version] ++ topic ++ data).getD 2
      0).toNat = topic.length := hlen
  simp only [Delivery.ofBuf]
  rw [htopicLen, hdrop, hlength, hdataLen, hdata]
  congr 1
  exact htopic data

/-- The pairs of the list, in the order in which the callbacks are called. -/
def pairsOf (subs : List (BmSub Callback)) : List (List UInt8 × Callback) :=
  subs.flatMap fun sub => sub.callbacks.map (sub.topic, ·)

section Messages
variable {subs : List (BmSub Callback)}

theorem mem_pairsOf {pair : List UInt8 × Callback} :
    pair ∈ pairsOf subs ↔ Present subs pair.1 pair.2 := by
  obtain ⟨t, c⟩ := pair
  simp only [pairsOf, List.mem_flatMap, List.mem_map, Present, Prod.mk.injEq]
  grind

theorem Pairs.nodup (h : Pairs subs) : (pairsOf subs).Nodup := by
  refine List.nodup_flatMap.mpr ⟨fun sub hsub => ?_, ?_⟩
  · exact (h.callbacks sub hsub).map fun c c' hc => (Prod.mk.inj hc).2
  · refine (List.pairwise_map.mp h.topics).imp fun hne => ?_
    simp only [Function.onFun, List.Disjoint, List.mem_map]
    rintro pair ⟨c, -, rfl⟩ ⟨c', -, hpair⟩
    exact hne (Prod.mk.inj hpair).1.symm

/-- `bm_handle_msg` goes through the pairs whose pattern matches the topic. -/
theorem bmHandleMsg_eq (nodeId : UInt64) (buf : List UInt8) (size : Nat) :
    bmHandleMsg subs nodeId buf size = ((pairsOf subs).filter fun pair =>
      bmWildcardMatch (Delivery.ofBuf nodeId buf size).topic pair.1).map fun pair =>
        (pair.2, Delivery.ofBuf nodeId buf size) := by
  rw [bmHandleMsg, pairsOf, List.filter_flatMap, List.map_flatMap]
  congr 1
  funext sub
  cases hmatch : bmWildcardMatch (Delivery.ofBuf nodeId buf size).topic sub.topic with
  | true => simp [List.filter_map, Function.comp_def, hmatch]
  | false => simp [List.filter_map, Function.comp_def, hmatch]

end Messages

/-! ## Runs -/

inductive Call (Callback : Type) where
  | sub (topic : List UInt8) (callback : Option Callback) (resource : BmErr)
  | unsub (topic : List UInt8) (callback : Option Callback)

section Runs
variable [DecidableEq Callback]

def callStep (subs : List (BmSub Callback)) : Call Callback → List (BmSub Callback)
  | .sub topic callback resource => (bmSubWl subs topic callback resource).1
  | .unsub topic callback => (bmUnsubWl subs topic callback).1

/-- What a call does on a set of pairs. -/
def SetCallLaw (subs : List (BmSub Callback)) : Call Callback → Prop
  | .sub topic callback resource =>
    let result := bmSubWl subs topic callback resource
    (∀ c, callback = some c → Present subs topic c → result.1 = subs) ∧
    (callback = none ∨ ¬ ValidTopic topic → result.1 = subs ∧ result.2 ≠ .ok) ∧
    (ValidTopic topic → ∀ t c, Present result.1 t c ↔
      Present subs t c ∨ (t = topic ∧ callback = some c))
  | .unsub topic callback =>
    let result := bmUnsubWl subs topic callback
    (result.2 = .ok ↔ ∃ c, callback = some c ∧ Present subs topic c) ∧
    ∀ t c, Present result.1 t c ↔ Present subs t c ∧ ¬ (t = topic ∧ callback = some c)

/-- Every message is given once to each pair whose pattern matches its topic. -/
def DeliveryLaw (subs : List (BmSub Callback)) : Prop :=
  ∀ nodeId buf size, ∃ pairs : List (List UInt8 × Callback), pairs.Nodup ∧
    (∀ pair, pair ∈ pairs ↔ Present subs pair.1 pair.2 ∧
      bmWildcardMatch (Delivery.ofBuf nodeId buf size).topic pair.1 = true) ∧
    bmHandleMsg subs nodeId buf size =
      pairs.map fun pair => (pair.2, Delivery.ofBuf nodeId buf size)

/-- A pair that is subscribed again has the first callback of its topic. -/
def FirstAgain (subs : List (BmSub Callback)) : Call Callback → Prop
  | .sub topic callback _ =>
    ∀ c, callback = some c → Present subs topic c → FirstOfTopic subs topic c
  | .unsub .. => True

variable {subs : List (BmSub Callback)}

omit [DecidableEq Callback] in
theorem Pairs.delivery (h : Pairs subs) : DeliveryLaw subs := by
  intro nodeId buf size
  refine ⟨_, h.nodup.filter _, fun pair => ?_, bmHandleMsg_eq nodeId buf size⟩
  rw [List.mem_filter, mem_pairsOf]

theorem bmSubWl_refused (subs : List (BmSub Callback)) {topic : List UInt8}
    {callback : Option Callback} (h : callback = none ∨ ¬ ValidTopic topic) (resource : BmErr) :
    (bmSubWl subs topic callback resource).1 = subs ∧
      (bmSubWl subs topic callback resource).2 ≠ .ok := by
  unfold bmSubWl ValidTopic at *
  cases callback with
  | none => simp
  | some c =>
    by_cases hzero : topic.length = 0
    · simp [hzero]
    · have hlong : topic.length ≥ bmTopicMaxLen := by grind
      simp [hzero, hlong]

theorem Pairs.step (h : Pairs subs) {call : Call Callback} (hcall : FirstAgain subs call) :
    Pairs (callStep subs call) ∧ SetCallLaw subs call := by
  cases call with
  | sub topic callback resource =>
    by_cases hrefused : callback = none ∨ ¬ ValidTopic topic
    · obtain ⟨hsame, herr⟩ := bmSubWl_refused subs hrefused resource
      refine ⟨by rwa [callStep, hsame], fun _ _ _ => hsame, fun _ => ⟨hsame, herr⟩,
        fun hvalid t c => ?_⟩
      rw [hsame]
      grind
    · obtain ⟨hsome, hvalid⟩ := not_or.mp hrefused
      obtain ⟨c, rfl⟩ := Option.ne_none_iff_exists'.mp hsome
      have hvalid := not_not.mp hvalid
      by_cases hpresent : Present subs topic c
      · have hsame := h.sub_first (hcall c rfl hpresent) resource
        refine ⟨by rwa [callStep, hsame], fun _ _ _ => hsame, fun h => absurd h hrefused,
          fun _ t c' => ?_⟩
        rw [hsame]
        grind
      · obtain ⟨hpairs, hadded⟩ := h.sub_new hvalid hpresent resource
        refine ⟨hpairs, fun c' hc' hpresent' => ?_, fun h => absurd h hrefused, fun _ t c' => ?_⟩
        · exact absurd (Option.some.inj hc' ▸ hpresent') hpresent
        · rw [hadded, Option.some.injEq, eq_comm (a := c')]
  | unsub topic callback => exact h.unsub topic callback

/-- Where a pair is added a second time, the call changes what it should not. -/
theorem Pairs.firstAgain (h : Pairs subs) {call : Call Callback} (hlaw : SetCallLaw subs call) :
    FirstAgain subs call := by
  cases call with
  | sub topic callback resource =>
    intro c hc hpresent
    by_contra hnot
    subst hc
    exact h.sub_changes hpresent hnot resource (hlaw.1 c rfl hpresent)
  | unsub topic callback => trivial

end Runs

/-- In every run of `bm_sub_wl` and `bm_unsub_wl` calls, all calls work on a set of pairs and all
messages are given once to each pair that matches, exactly if every pair that is subscribed again
has the first callback of its topic. -/
theorem subscriptions_set_iff [DecidableEq Callback] (calls : List (Call Callback)) :
    Along callStep (fun subs call => SetCallLaw subs call ∧ DeliveryLaw (callStep subs call)) []
      calls ↔ Along callStep FirstAgain [] calls := by
  have hempty : Pairs ([] : List (BmSub Callback)) := ⟨by simp, by simp, by simp, by simp⟩
  generalize ([] : List (BmSub Callback)) = subs at hempty
  induction calls generalizing subs with
  | nil => exact Iff.rfl
  | cons call calls ih =>
    constructor
    · rintro ⟨⟨hlaw, -⟩, hrest⟩
      have hfirst := hempty.firstAgain hlaw
      exact ⟨hfirst, (ih _ (hempty.step hfirst).1).mp hrest⟩
    · rintro ⟨hfirst, hrest⟩
      obtain ⟨hpairs, hlaw⟩ := hempty.step hfirst
      exact ⟨⟨hlaw, hpairs.delivery⟩, (ih _ hpairs).mpr hrest⟩

/-- The second of two callbacks is subscribed again. -/
def subscribedTwice : List (Call Nat) :=
  [.sub [0x61] (some 1) .ok, .sub [0x61] (some 2) .ok, .sub [0x61] (some 2) .eagain]

/-- It is called twice, and once more after it has been unsubscribed. -/
theorem subscribedTwice_not_set :
    ¬ Along callStep (fun subs call => SetCallLaw subs call ∧ DeliveryLaw (callStep subs call)) []
      subscribedTwice ∧
    (bmHandleMsg (subscribedTwice.foldl callStep []) 7 [0, 0, 1, 0, 2, 0x61] 6).map (·.1) =
      [1, 2, 2] ∧
    (bmHandleMsg ((subscribedTwice ++ [Call.unsub [0x61] (some 2)]).foldl callStep []) 7
      [0, 0, 1, 0, 2, 0x61] 6).map (·.1) = [1, 2] := by
  refine ⟨fun hlaw => ?_, by decide +kernel, by decide +kernel⟩
  have hsame := hlaw.2.2.1.1.1 2 rfl ⟨⟨[0x61], [1, 2]⟩, by decide, rfl, by decide⟩
  exact absurd hsame (by decide)

end PubSub

end BmCore.Middleware
