import StockContent.Knowledge.EquityLinks
import StockContent.Knowledge.ProseTemplates
import Mathlib.Data.List.Forall2

/-! No mention is lost and none is attached twice: what one mention does to the cards and the audit, and from it what a
list of mentions does. -/
namespace StockContent.Knowledge
open Storage Text

section Modified
variable {A B : Type}

/-- What an element gains is gained by the list. -/
theorem flatMap_modify_perm (f : A → A) (g : A → List B) (gained : List B) :
    ∀ (xs : List A) (i : Nat), i < xs.length → (∀ x, g (f x) = g x ++ gained) →
      List.Perm ((xs.modify i f).flatMap g) (xs.flatMap g ++ gained)
  | [], _, hi, _ => absurd hi (Nat.not_lt_zero _)
  | x :: xs, 0, _, h => by
    rw [List.modify_zero_cons, List.flatMap_cons, List.flatMap_cons, h, List.append_assoc, List.append_assoc]
    exact List.perm_append_comm.append_left (g x)
  | x :: xs, i + 1, hi, h => by
    rw [List.modify_succ_cons, List.flatMap_cons, List.flatMap_cons, List.append_assoc]
    exact (flatMap_modify_perm f g gained xs i (Nat.lt_of_succ_lt_succ hi) h).append_left (g x)

theorem map_modify_of_eq (f : A → A) (g : A → B) (h : ∀ x, g (f x) = g x) (xs : List A) (i : Nat) :
    (xs.modify i f).map g = xs.map g := by
  refine List.ext_getElem? ?_
  intro j
  rw [List.getElem?_map, List.getElem?_map, List.getElem?_modify]
  cases xs[j]? with
  | none => rfl
  | some x =>
    split
    · exact congrArg some (h x)
    · rfl

end Modified

section Frames
variable {A B : Type}

theorem checkEach_ok {check : A → Except LinkError B} {xs : List A} (h : ∀ x ∈ xs, ∃ y, check x = .ok y) :
    ∃ ys, checkEach check xs = .ok ys := by
  induction xs with
  | nil => exact ⟨[], rfl⟩
  | cons x xs ih =>
    obtain ⟨y, hy⟩ := h x List.mem_cons_self
    obtain ⟨ys, hys⟩ := ih fun x hx => h x (List.mem_cons_of_mem _ hx)
    exact ⟨y :: ys, by rw [checkEach, hy, hys]; rfl⟩

/-- The first element that is refused is refused with the one error there is. -/
theorem checkEach_error {check : A → Except LinkError B} {e : LinkError} {xs : List A}
    (hall : ∀ x ∈ xs, (∃ y, check x = .ok y) ∨ check x = .error e) (h : ∃ x ∈ xs, check x = .error e) :
    checkEach check xs = .error e := by
  induction xs with
  | nil =>
    obtain ⟨x, hx, -⟩ := h
    cases hx
  | cons x xs ih =>
    obtain ⟨y, hy⟩ | hx := hall x List.mem_cons_self
    · obtain ⟨z, hz, hrefused⟩ := h
      have hz : z ∈ xs := by
        rcases List.mem_cons.mp hz with rfl | hz
        · rw [hy] at hrefused
          cases hrefused
        · exact hz
      have hrest := ih (fun x hx => hall x (List.mem_cons_of_mem _ hx)) ⟨z, hz, hrefused⟩
      rw [checkEach, hy, hrest]
      rfl
    · rw [checkEach, hx]
      rfl

namespace CheckedMention
variable {mention : CheckedMention}

/-- Every frame is near one of the declared stages. -/
def FramesNear (mention : CheckedMention) : Prop :=
  ∀ frame ∈ mention.frames, ∃ stage ∈ mention.stages, nearStage stage frame = true

theorem scopedFrame_near {frame : CheckedFrame} (h : ∃ stage ∈ mention.stages, nearStage stage frame = true) :
    ∃ evidence, mention.scopedFrame frame = .ok evidence := by
  obtain ⟨stage, hstage⟩ := Option.isSome_iff_exists.mp
    (List.find?_isSome.mpr h : (mention.stages.find? fun stage => nearStage stage frame).isSome)
  exact ⟨_, by rw [scopedFrame, hstage]; rfl⟩

theorem scopedFrame_far {frame : CheckedFrame} (h : ¬∃ stage ∈ mention.stages, nearStage stage frame = true) :
    mention.scopedFrame frame = .error .stopIteration := by
  have hnone : (mention.stages.find? fun stage => nearStage stage frame) = none :=
    List.find?_eq_none.mpr fun stage hstage hnear => h ⟨stage, hstage, hnear⟩
  rw [scopedFrame, hnone]
  rfl

theorem FramesNear.scopedFrames (h : mention.FramesNear) :
    ∃ frames, checkEach mention.scopedFrame mention.frames = .ok frames :=
  checkEach_ok fun frame hframe => scopedFrame_near (h frame hframe)

theorem scopedFrames_far (h : ¬mention.FramesNear) :
    checkEach mention.scopedFrame mention.frames = .error .stopIteration := by
  rw [FramesNear] at h
  push Not at h
  obtain ⟨frame, hframe, hfar⟩ := h
  refine checkEach_error ?_ ⟨frame, hframe, scopedFrame_far fun hnear => ?_⟩
  · intro other _
    by_cases hnear : ∃ stage ∈ mention.stages, nearStage stage other = true
    · exact .inl (scopedFrame_near hnear)
    · exact .inr (scopedFrame_far hnear)
  · obtain ⟨stage, hstage, hnear⟩ := hnear
    exact hfar stage hstage hnear

end CheckedMention
end Frames

section Placement
variable {tables : CharTables} {protectedIndices : List Int} {cards : List KnowledgeCard} {mention : CheckedMention}
  {handled : List CheckedMention} {state state' : LinkState}

def attachedIds (cards : List KnowledgeCard) : List String :=
  cards.flatMap fun card => card.equityMentions.map EquityMention.entityId

theorem mem_cardByTopic {topic : Int} {index : Nat} (h : (topic, index) ∈ cardByTopic cards) :
    ∃ card, cards[index]? = some card ∧ topic ∈ card.topicIndices := by
  obtain ⟨entry, hentry, hmem⟩ := List.mem_flatMap.mp h
  obtain ⟨found, hfound, heq⟩ := List.mem_map.mp hmem
  obtain ⟨rfl, rfl⟩ := Prod.mk.inj heq
  exact ⟨entry.1, List.mem_zipIdx_iff_getElem?.mp hentry, hfound⟩

/-- A target owns the topic of an eligible stage. -/
theorem CheckedMention.target_owns {index : Nat} (h : index ∈ mention.targetCards (cardByTopic cards)) :
    ∃ card, cards[index]? = some card ∧ ∃ stage ∈ mention.eligible, stage.topicIndex ∈ card.topicIndices := by
  obtain ⟨stage, hstage, hlookup⟩ := List.mem_filterMap.mp (List.mem_dedup.mp h)
  obtain ⟨before, after, hsplit, -⟩ := List.lookup_eq_some_iff.mp hlookup
  have hmem : (stage.topicIndex, index) ∈ cardByTopic cards := by
    rw [hsplit]
    exact List.mem_append_right _ List.mem_cons_self
  obtain ⟨card, hcard, htopic⟩ := mem_cardByTopic hmem
  exact ⟨card, hcard, stage, hstage, htopic⟩

section Attached
variable (frames : List FrameEvidence) (card : KnowledgeCard)

@[simp] theorem attachTo_topicIndices :
    (mention.attachTo tables protectedIndices frames card).topicIndices = card.topicIndices := by
  rw [CheckedMention.attachTo]
  split <;> rfl

@[simp] theorem attachTo_equityMentions :
    (mention.attachTo tables protectedIndices frames card).equityMentions =
      card.equityMentions ++ [mention.linked frames] := by
  rw [CheckedMention.attachTo]
  split <;> rfl

end Attached

/-- A mention is attached to its one card, or it is listed. -/
theorem placeMention_cases {topics : List (Int × Nat)}
    (h : placeMention tables protectedIndices topics mention state = .ok state') :
    (∃ index frames, mention.targetCards topics = [index] ∧ state' = { state with
      cards := state.cards.modify index (mention.attachTo tables protectedIndices frames)
      linkedCount := state.linkedCount + 1 }) ∨
    ∃ reason, (mention.targetCards topics).length ≠ 1 ∧
      state' = { state with unlinked := state.unlinked ++ [⟨mention.entityId, reason⟩] } := by
  rw [placeMention] at h
  split at h
  · rename_i index htarget
    obtain ⟨frames, -, h⟩ := bind_eq_ok.mp h
    exact .inl ⟨index, frames, htarget, (Except.ok.inj h).symm⟩
  · rename_i htarget
    exact .inr ⟨_, by simp [htarget], (Except.ok.inj h).symm⟩
  · rename_i hone hnone
    refine .inr ⟨_, fun hlength => ?_, (Except.ok.inj h).symm⟩
    obtain ⟨index, htarget⟩ := List.length_eq_one_iff.mp hlength
    exact hone index htarget

/-- What has become of the mentions handled so far. -/
structure Placed (cards : List KnowledgeCard) (handled : List CheckedMention) (state : LinkState) : Prop where
  topics : state.cards.map KnowledgeCard.topicIndices = cards.map KnowledgeCard.topicIndices
  linked : state.linkedCount = (attachedIds state.cards).length
  once : (attachedIds state.cards ++ state.unlinked.map UnlinkedMention.entityId).Perm
    (handled.map CheckedMention.entityId)
  owned : ∀ card ∈ state.cards, ∀ attached ∈ card.equityMentions, ∃ mention ∈ handled,
    attached.entityId = mention.entityId ∧ ∃ stage ∈ mention.eligible, stage.topicIndex ∈ card.topicIndices

theorem placed_nil : Placed cards [] { cards := cards.map KnowledgeCard.cleared } where
  topics := by rw [List.map_map]; rfl
  linked := by simp [attachedIds, KnowledgeCard.cleared, List.flatMap_map]
  once := by simp [attachedIds, KnowledgeCard.cleared, List.flatMap_map]
  owned := by
    intro card hcard attached hattached
    obtain ⟨card, -, rfl⟩ := List.mem_map.mp hcard
    cases hattached

/-- The owner in the given cards is a card of the state, with the same topics. -/
theorem Placed.owner {index : Nat} {owner : KnowledgeCard} (h : Placed cards handled state)
    (howner : cards[index]? = some owner) :
    ∃ card, state.cards[index]? = some card ∧ card.topicIndices = owner.topicIndices := by
  have htopics := congrArg (fun topics => topics[index]?) h.topics
  simp only [List.getElem?_map, howner, Option.map_some] at htopics
  exact Option.map_eq_some_iff.mp htopics

/-- The ids on the cards after one card has got a mention. -/
theorem attachedIds_modify {index : Nat} (frames : List FrameEvidence) (hindex : index < state.cards.length) :
    (attachedIds (state.cards.modify index (mention.attachTo tables protectedIndices frames))).Perm
      (attachedIds state.cards ++ [mention.entityId]) :=
  flatMap_modify_perm _ _ _ _ _ hindex fun card => by
    rw [attachTo_equityMentions, List.map_append]
    rfl

/-- A mention on a card was there before, or it is the one attached, and the card is its target. -/
theorem mem_attached {index : Nat} {frames : List FrameEvidence} {card : KnowledgeCard} {attached : EquityMention}
    (hcard : card ∈ state.cards.modify index (mention.attachTo tables protectedIndices frames))
    (hattached : attached ∈ card.equityMentions) :
    (∃ before ∈ state.cards, card.topicIndices = before.topicIndices ∧ attached ∈ before.equityMentions) ∨
      ∃ before, state.cards[index]? = some before ∧ card.topicIndices = before.topicIndices ∧
        attached = mention.linked frames := by
  obtain ⟨j, hj⟩ := List.mem_iff_getElem?.mp hcard
  rw [List.getElem?_modify] at hj
  obtain ⟨before, hbefore, rfl⟩ := Option.map_eq_some_iff.mp hj
  by_cases hat : index = j
  · subst hat
    rw [if_pos rfl, attachTo_equityMentions] at hattached
    rw [if_pos rfl, attachTo_topicIndices]
    rcases List.mem_append.mp hattached with hattached | hattached
    · exact .inl ⟨before, List.mem_of_getElem? hbefore, rfl, hattached⟩
    · exact .inr ⟨before, hbefore, rfl, List.mem_singleton.mp hattached⟩
  · rw [if_neg hat] at hattached ⊢
    exact .inl ⟨before, List.mem_of_getElem? hbefore, rfl, hattached⟩

theorem Placed.attach {index : Nat} {frames : List FrameEvidence} (h : Placed cards handled state)
    (htarget : mention.targetCards (cardByTopic cards) = [index]) :
    Placed cards (handled ++ [mention]) { state with
      cards := state.cards.modify index (mention.attachTo tables protectedIndices frames)
      linkedCount := state.linkedCount + 1 } := by
  obtain ⟨owner, howner, stage, hstage, htopic⟩ := mention.target_owns (by rw [htarget]; exact List.mem_singleton_self _)
  obtain ⟨target, htargetCard, htopics⟩ := h.owner howner
  have hgained := @attachedIds_modify tables protectedIndices mention state index frames
    (List.getElem?_eq_some_iff.mp htargetCard).1
  refine ⟨?_, ?_, ?_, ?_⟩
  · rw [map_modify_of_eq _ _ fun card => attachTo_topicIndices frames card]
    exact h.topics
  · rw [hgained.length_eq, List.length_append, ← h.linked]
    rfl
  · rw [List.map_append]
    have hmoved : (attachedIds state.cards ++ [mention.entityId] ++
        state.unlinked.map UnlinkedMention.entityId).Perm
        (attachedIds state.cards ++ state.unlinked.map UnlinkedMention.entityId ++ [mention.entityId]) := by
      rw [List.append_assoc, List.append_assoc]
      exact List.perm_append_comm.append_left _
    exact ((hgained.append_right _).trans hmoved).trans (h.once.append_right _)
  · intro card hcard attached hattached
    obtain ⟨before, hbefore, hsame, hold⟩ | ⟨before, hbefore, hsame, rfl⟩ := mem_attached hcard hattached
    · obtain ⟨earlier, hearlier, howned⟩ := h.owned before hbefore attached hold
      exact ⟨earlier, List.mem_append_left _ hearlier, hsame ▸ howned⟩
    · obtain rfl := Option.some.inj (htargetCard.symm.trans hbefore)
      refine ⟨mention, List.mem_append_right _ List.mem_cons_self, rfl, stage, hstage, ?_⟩
      rw [hsame, htopics]
      exact htopic

theorem Placed.list {reason : String} (h : Placed cards handled state) : Placed cards (handled ++ [mention])
    { state with unlinked := state.unlinked ++ [⟨mention.entityId, reason⟩] } where
  topics := h.topics
  linked := h.linked
  once := by
    rw [List.map_append, List.map_append, ← List.append_assoc]
    exact h.once.append_right _
  owned := by
    intro card hcard attached hattached
    obtain ⟨earlier, hearlier, howned⟩ := h.owned card hcard attached hattached
    exact ⟨earlier, List.mem_append_left _ hearlier, howned⟩

theorem Placed.step (hplaced : Placed cards handled state)
    (h : placeMention tables protectedIndices (cardByTopic cards) mention state = .ok state') :
    Placed cards (handled ++ [mention]) state' := by
  obtain ⟨index, frames, htarget, rfl⟩ | ⟨reason, -, rfl⟩ := placeMention_cases h
  · exact hplaced.attach htarget
  · exact hplaced.list

end Placement

section Runs
variable {tables : CharTables} {protectedIndices : List Int} {cards : List KnowledgeCard} {mention : CheckedMention}
  {handled checked : List CheckedMention} {state state' : LinkState} {topics : List (Int × Nat)}

/-- If it is attached, its frames have a scope. -/
def CheckedMention.FramesScoped (mention : CheckedMention) (topics : List (Int × Nat)) : Prop :=
  (mention.targetCards topics).length = 1 → mention.FramesNear

theorem placeMention_scoped (h : mention.FramesScoped topics) (state : LinkState) :
    ∃ state', placeMention tables protectedIndices topics mention state = .ok state' := by
  rw [placeMention]
  split
  · rename_i index htarget
    obtain ⟨frames, hframes⟩ := (h (by rw [htarget]; rfl)).scopedFrames
    exact ⟨_, by rw [hframes]; rfl⟩
  · exact ⟨_, rfl⟩
  · exact ⟨_, rfl⟩

theorem placeMention_unscoped (h : ¬mention.FramesScoped topics) (state : LinkState) :
    placeMention tables protectedIndices topics mention state = .error .stopIteration := by
  obtain ⟨hlength, hfar⟩ := Classical.not_imp.mp h
  obtain ⟨index, htarget⟩ := List.length_eq_one_iff.mp hlength
  simp only [placeMention, htarget, CheckedMention.scopedFrames_far hfar]
  rfl

/-- Mentions that have passed the checks, one after another. -/
def placeMentions (tables : CharTables) (protectedIndices : List Int) (topics : List (Int × Nat)) :
    List CheckedMention → LinkState → Except LinkError LinkState
  | [], state => .ok state
  | mention :: rest, state => do
    let state ← placeMention tables protectedIndices topics mention state
    placeMentions tables protectedIndices topics rest state

/-- The checks in between do not interfere. -/
theorem linkMentions_eq {stages : List Stage} {rows : List String} {seen : List String}
    {mentions : List ReviewedMention} (h : checkMentions tables stages rows seen mentions = .ok checked)
    (state : LinkState) :
    linkMentions tables protectedIndices topics stages rows seen mentions state =
      placeMentions tables protectedIndices topics checked state := by
  induction mentions generalizing seen checked state with
  | nil =>
    rw [← Except.ok.inj h]
    rfl
  | cons mention rest ih =>
    obtain ⟨first, hfirst, h⟩ := bind_eq_ok.mp h
    obtain ⟨others, hothers, h⟩ := bind_eq_ok.mp h
    rw [← Except.ok.inj h, linkMentions, placeMentions, hfirst]
    exact congrArg _ (funext fun next => ih hothers next)

theorem placeMentions_placed (hplaced : Placed cards handled state)
    (h : placeMentions tables protectedIndices (cardByTopic cards) checked state = .ok state') :
    Placed cards (handled ++ checked) state' := by
  induction checked generalizing handled state with
  | nil =>
    rw [← Except.ok.inj h, List.append_nil]
    exact hplaced
  | cons mention rest ih =>
    obtain ⟨next, hfirst, hrest⟩ := bind_eq_ok.mp h
    rw [← List.singleton_append, ← List.append_assoc]
    exact ih (hplaced.step hfirst) hrest

theorem placeMentions_scoped (h : ∀ mention ∈ checked, mention.FramesScoped topics) (state : LinkState) :
    ∃ state', placeMentions tables protectedIndices topics checked state = .ok state' := by
  induction checked generalizing state with
  | nil => exact ⟨state, rfl⟩
  | cons mention rest ih =>
    obtain ⟨next, hnext⟩ := placeMention_scoped (h mention List.mem_cons_self) state
    obtain ⟨state', hrest⟩ := ih (fun other hother => h other (List.mem_cons_of_mem _ hother)) next
    exact ⟨state', by rw [placeMentions, hnext]; exact hrest⟩

theorem placeMentions_unscoped (h : ¬∀ mention ∈ checked, mention.FramesScoped topics) (state : LinkState) :
    placeMentions tables protectedIndices topics checked state = .error .stopIteration := by
  induction checked generalizing state with
  | nil => exact absurd (fun mention hmention => by cases hmention) h
  | cons mention rest ih =>
    rw [placeMentions]
    by_cases hfirst : mention.FramesScoped topics
    · obtain ⟨next, hnext⟩ := @placeMention_scoped tables protectedIndices _ _ hfirst state
      rw [hnext]
      refine ih (fun hrest => h ?_) next
      intro other hother
      rcases List.mem_cons.mp hother with rfl | hother
      · exact hfirst
      · exact hrest other hother
    · rw [placeMention_unscoped hfirst]
      rfl

end Runs
end StockContent.Knowledge
