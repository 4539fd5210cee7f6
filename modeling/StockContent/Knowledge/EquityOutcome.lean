import StockContent.Knowledge.EquityConservation

/-! What comes of linking equity mentions that pass the checks. -/
namespace StockContent.Knowledge
open Storage Text

section Checked
variable {tables : CharTables} {stages : List Stage} {rows : List String} {seen : List String}

theorem checkText_eq {message : String} {accepted : String → Bool} {value : Json} {text : String}
    (h : checkText message accepted value = .ok text) : value = .str text ∧ accepted text = true := by
  rw [checkText] at h
  cases value with
  | str given =>
    rw [asText, Option.filter_some] at h
    split at h
    · rename_i haccepted
      obtain rfl := Except.ok.inj h
      exact ⟨rfl, haccepted⟩
    · cases h
  | _ => cases h

/-- A mention that passes keeps its id, which is a new one. -/
theorem checkMention_id {mention : ReviewedMention} {checked : CheckedMention}
    (h : checkMention tables stages rows seen mention = .ok checked) :
    mention.entityId = .str checked.entityId ∧ checked.entityId ∉ seen := by
  obtain ⟨entityId, hid, h⟩ := bind_eq_ok.mp h
  obtain ⟨-, -, h⟩ := bind_eq_ok.mp h
  obtain ⟨name, -, h⟩ := bind_eq_ok.mp h
  obtain ⟨code, -, h⟩ := bind_eq_ok.mp h
  obtain ⟨market, -, h⟩ := bind_eq_ok.mp h
  obtain ⟨-, -, h⟩ := bind_eq_ok.mp h
  obtain ⟨frames, -, h⟩ := bind_eq_ok.mp h
  obtain ⟨speech, -, h⟩ := bind_eq_ok.mp h
  obtain ⟨-, -, h⟩ := bind_eq_ok.mp h
  obtain ⟨-, -, h⟩ := bind_eq_ok.mp h
  obtain rfl := Except.ok.inj h
  obtain ⟨hvalue, haccepted⟩ := checkText_eq hid
  refine ⟨hvalue, fun hseen => ?_⟩
  simp [hseen] at haccepted

variable {mentions : List ReviewedMention} {checked : List CheckedMention}

theorem checkMentions_ids (h : checkMentions tables stages rows seen mentions = .ok checked) :
    mentions.map ReviewedMention.entityId = (checked.map CheckedMention.entityId).map Json.str := by
  induction mentions generalizing seen checked with
  | nil =>
    rw [← Except.ok.inj h]
    rfl
  | cons mention rest ih =>
    obtain ⟨first, hfirst, h⟩ := bind_eq_ok.mp h
    obtain ⟨others, hothers, h⟩ := bind_eq_ok.mp h
    rw [← Except.ok.inj h, List.map_cons, (checkMention_id hfirst).1, ih hothers]
    rfl

theorem checkMentions_distinct (h : checkMentions tables stages rows seen mentions = .ok checked) (hseen : seen.Nodup) :
    (seen ++ checked.map CheckedMention.entityId).Nodup := by
  induction mentions generalizing seen checked with
  | nil =>
    rw [← Except.ok.inj h, List.map_nil, List.append_nil]
    exact hseen
  | cons mention rest ih =>
    obtain ⟨first, hfirst, h⟩ := bind_eq_ok.mp h
    obtain ⟨others, hothers, h⟩ := bind_eq_ok.mp h
    rw [← Except.ok.inj h, List.map_cons, ← List.singleton_append, ← List.append_assoc]
    refine ih hothers (List.nodup_append'.mpr ⟨hseen, List.nodup_singleton _, ?_⟩)
    exact List.disjoint_singleton.mpr (checkMention_id hfirst).2

end Checked

section Outcome

/-- Every mention is on one card that owns the topic of a stage that is eligible for it, or in the audit. -/
structure Conserved (cards : List KnowledgeCard) (mentions : List ReviewedMention) (checked : List CheckedMention)
    (linked : List KnowledgeCard) (audit : LinkAudit) : Prop where
  reviewed : audit.reviewedMentionCount = mentions.length
  counted : audit.linkedMentionCount + audit.unlinked.length = mentions.length
  attached : audit.linkedMentionCount = (attachedIds linked).length
  distinct : (mentions.map ReviewedMention.entityId).Nodup
  once : ((attachedIds linked ++ audit.unlinked.map UnlinkedMention.entityId).map Json.str).Perm
    (mentions.map ReviewedMention.entityId)
  topics : linked.map KnowledgeCard.topicIndices = cards.map KnowledgeCard.topicIndices
  owned : ∀ card ∈ linked, ∀ attached ∈ card.equityMentions, ∃ mention ∈ checked,
    attached.entityId = mention.entityId ∧ ∃ stage ∈ mention.eligible, stage.topicIndex ∈ card.topicIndices

variable {rt : ProseRuntime} {cards linked : List KnowledgeCard} {stages : List Stage} {rows : List String}
  {mentions : List ReviewedMention} {checked : List CheckedMention} {state : LinkState}

theorem attachedIds_kept {cards' : List KnowledgeCard} (h : List.Forall₂ KnowledgeCard.Kept cards cards') :
    attachedIds cards' = attachedIds cards := by
  induction h with
  | nil => rfl
  | cons hcard _ ih =>
    rw [attachedIds, attachedIds, List.flatMap_cons, List.flatMap_cons, hcard.equityMentions]
    exact congrArg _ ih

theorem topicIndices_kept {cards' : List KnowledgeCard} (h : List.Forall₂ KnowledgeCard.Kept cards cards') :
    cards'.map KnowledgeCard.topicIndices = cards.map KnowledgeCard.topicIndices := by
  induction h with
  | nil => rfl
  | cons hcard _ ih => rw [List.map_cons, List.map_cons, hcard.topicIndices, ih]

theorem exists_kept {cards' : List KnowledgeCard} (h : List.Forall₂ KnowledgeCard.Kept cards cards')
    {card : KnowledgeCard} (hcard : card ∈ cards') : ∃ before ∈ cards, before.Kept card := by
  induction h with
  | nil => cases hcard
  | cons hfirst _ ih =>
    rcases List.mem_cons.mp hcard with rfl | hcard
    · exact ⟨_, List.mem_cons_self, hfirst⟩
    · obtain ⟨before, hbefore, hkept⟩ := ih hcard
      exact ⟨before, List.mem_cons_of_mem _ hbefore, hkept⟩

/-- What holds before the prose is reconciled holds of the result. -/
theorem Placed.conserved {tables : CharTables} (hplaced : Placed cards checked state)
    (hkept : List.Forall₂ KnowledgeCard.Kept state.cards linked)
    (hchecked : checkMentions tables stages rows [] mentions = .ok checked) :
    Conserved cards mentions checked linked (linkAudit mentions state linked) := by
  have hids := checkMentions_ids hchecked
  have hlength : mentions.length = checked.length := by simpa using congrArg List.length hids
  refine ⟨rfl, ?_, ?_, ?_, ?_, (topicIndices_kept hkept).trans hplaced.topics, ?_⟩
  · have h := hplaced.once.length_eq
    rw [List.length_append, List.length_map, List.length_map, ← hplaced.linked] at h
    exact h.trans hlength.symm
  · rw [attachedIds_kept hkept]
    exact hplaced.linked
  · rw [hids]
    exact (checkMentions_distinct hchecked List.nodup_nil).map fun _ _ h => Json.str.inj h
  · rw [attachedIds_kept hkept, hids]
    exact hplaced.once.map _
  · intro card hcard attached hattached
    obtain ⟨before, hbefore, hkept⟩ := exists_kept hkept hcard
    rw [hkept.equityMentions] at hattached
    rw [hkept.topicIndices]
    exact hplaced.owned before hbefore attached hattached

/-- The mentions that have passed, placed on the cards. -/
def placedState (rt : ProseRuntime) (cards : List KnowledgeCard) (mentions : List ReviewedMention)
    (checked : List CheckedMention) : Except LinkError LinkState :=
  placeMentions rt.tables (visualOnlyEvidenceIndices mentions) (cardByTopic cards) checked
    { cards := cards.map KnowledgeCard.cleared }

/-- The expression engine reads what is made of the labels of confirmed entities, on the cards before their prose is
reconciled. -/
def LabelsRead (rt : ProseRuntime) (cards : List KnowledgeCard) (mentions : List ReviewedMention)
    (checked : List CheckedMention) : Prop :=
  ∀ state, placedState rt cards mentions checked = .ok state →
    state.cards.all (KnowledgeCard.templatesRead rt) = true

/-- An error that is no refusal of the prose is not what is hoped for. -/
theorem not_conserved_of_error {e : LinkError} (he : ∀ message, e ≠ .prose (.valueError message))
    (outcome : Except LinkError (List KnowledgeCard × LinkAudit)) (h : outcome = .error e) :
    ¬((∃ linked audit, outcome = .ok (linked, audit) ∧ Conserved cards mentions checked linked audit) ∨
      ∃ message, outcome = .error (.prose (.valueError message))) := by
  rintro (⟨linked, audit, hok, -⟩ | ⟨message, hrefused⟩)
  · cases h.symm.trans hok
  · exact he message (Except.error.inj (h.symm.trans hrefused))

section Checks
variable (hstages : (stages.map Stage.stageId).Nodup) (htopics : (cards.flatMap KnowledgeCard.topicIndices).Nodup)
  (hchecked : checkMentions rt.tables stages rows [] mentions = .ok checked)
include hstages htopics hchecked

/-- Past the checks, the mentions are placed and the prose is reconciled. -/
theorem linkEquityMentions_eq :
    linkEquityMentions rt cards stages rows mentions = (placedState rt cards mentions checked >>= fun state =>
      (reconcileConfirmedEntityProse rt state.cards).mapError .prose >>= fun linked =>
        .ok (linked, linkAudit mentions state linked)) := by
  rw [linkEquityMentions, decide_eq_true hstages, decide_eq_true htopics, placedState, ← linkMentions_eq hchecked]
  rfl

theorem linkEquityMentions_stopped {e : LinkError} (h : placedState rt cards mentions checked = .error e) :
    linkEquityMentions rt cards stages rows mentions = .error e := by
  rw [linkEquityMentions_eq hstages htopics hchecked, h]
  rfl

theorem linkEquityMentions_reconciled (h : placedState rt cards mentions checked = .ok state) :
    linkEquityMentions rt cards stages rows mentions =
      ((reconcileConfirmedEntityProse rt state.cards).mapError .prose >>= fun linked =>
        .ok (linked, linkAudit mentions state linked)) := by
  rw [linkEquityMentions_eq hstages htopics hchecked, h]
  rfl

/-- Every mention is attached once or listed, and the cards are returned or refused for their prose, if and only if
the frames of what is attached are near the declared stages and the engine reads the labels. -/
theorem mentions_conserved_iff :
    ((∃ linked audit, linkEquityMentions rt cards stages rows mentions = .ok (linked, audit) ∧
        Conserved cards mentions checked linked audit) ∨
      ∃ message, linkEquityMentions rt cards stages rows mentions = .error (.prose (.valueError message))) ↔
    (∀ mention ∈ checked, mention.FramesScoped (cardByTopic cards)) ∧ LabelsRead rt cards mentions checked := by
  by_cases hframes : ∀ mention ∈ checked, mention.FramesScoped (cardByTopic cards)
  swap
  · have hstopped := linkEquityMentions_stopped hstages htopics hchecked (placeMentions_unscoped hframes _)
    exact iff_of_false (not_conserved_of_error (e := .stopIteration) (fun _ => nofun) _ hstopped) fun h => hframes h.1
  obtain ⟨state, hstate⟩ : ∃ state, placedState rt cards mentions checked = .ok state := placeMentions_scoped hframes _
  have hplaced : Placed cards checked state := placeMentions_placed placed_nil hstate
  have houtcome := reconcile_outcome rt state.cards
  rw [linkEquityMentions_reconciled hstages htopics hchecked hstate]
  split at houtcome
  · rename_i hread
    have hlabels : LabelsRead rt cards mentions checked := by
      intro other hother
      rw [← Except.ok.inj (hstate.symm.trans hother)]
      exact hread
    refine ⟨fun _ => ⟨hframes, hlabels⟩, fun _ => ?_⟩
    obtain ⟨linked, hlinked⟩ | ⟨message, hrefused⟩ := houtcome
    · rw [hlinked]
      exact .inl ⟨linked, _, rfl, hplaced.conserved (reconcile_kept hlinked) hchecked⟩
    · rw [hrefused]
      exact .inr ⟨message, rfl⟩
  · rename_i hunread
    obtain ⟨e, he⟩ := houtcome
    rw [he]
    refine iff_of_false (not_conserved_of_error (e := .prose (.template e)) (fun _ => nofun) _ rfl) fun h => ?_
    exact hunread (h.2 state hstate)

end Checks
end Outcome

section Device

def plainProse : ProseRuntime where
  tables := plainTables
  escapes _ := .error ⟨"bad escape"⟩
  str _ := ""

def deviceStage : Stage := ⟨"T01", 0, 0, 1, 0, 2000⟩
def deviceCard : KnowledgeCard := { topicIndices := [0] }
def deviceRows : List String := ["云计算订单", "观察设备公司"]

/-- A mention that is spoken in its stage, and seen at a time. -/
def deviceMention (timestampMs : Int) : ReviewedMention where
  entityId := .str "equity-1"
  evidenceTier := some "FOCUSED_CHART_SPOKEN"
  identityStatus := some "CONFIRMED_IN_VIDEO"
  name := .str "示例设备"
  code := .str "123456"
  visualEvidence := some [{ timestampMs := .int timestampMs, imageSha256 := .str "a" }]
  transcriptEvidence := some [{ segmentIndex := .int 1, text := .str "观察设备公司" }]
  stageIds := some ["T01"]

def checkedDevice (timestampMs : Int) : CheckedMention where
  entityId := "equity-1"
  evidenceTier := "FOCUSED_CHART_SPOKEN"
  identityStatus := "CONFIRMED_IN_VIDEO"
  name := "示例设备"
  code := some "123456"
  market := none
  codeStatus := none
  frames := [⟨none, timestampMs, "a"⟩]
  speech := [⟨1, "观察设备公司"⟩]
  stages := [deviceStage]
  rawEntityText := none
  asrCorrectionSupported := false

theorem device_conserved :
    (∃ linked audit, linkEquityMentions plainProse [deviceCard] [deviceStage] deviceRows [deviceMention 1500] =
        .ok (linked, audit) ∧
        Conserved [deviceCard] [deviceMention 1500] [checkedDevice 1500] linked audit) ∨
      ∃ message, linkEquityMentions plainProse [deviceCard] [deviceStage] deviceRows [deviceMention 1500] =
        .error (.prose (.valueError message)) := by
  have hread : (placedState plainProse [deviceCard] [deviceMention 1500] [checkedDevice 1500]).toOption.all
      (fun state => state.cards.all (KnowledgeCard.templatesRead plainProse)) = true := by decide
  refine (mentions_conserved_iff (by decide) (by decide) (by decide)).mpr ⟨?_, ?_⟩
  · intro mention hmention _ frame hframe
    obtain rfl := List.mem_singleton.mp hmention
    obtain rfl := List.mem_singleton.mp hframe
    exact ⟨deviceStage, List.mem_singleton_self _, by decide⟩
  · intro state hstate
    rw [hstate] at hread
    exact hread

/-- Spoken in its stage, seen a minute later: nothing is returned. -/
theorem distant_frame_stops :
    checkMentions plainProse.tables [deviceStage] deviceRows [] [deviceMention 60000] = .ok [checkedDevice 60000] ∧
      linkEquityMentions plainProse [deviceCard] [deviceStage] deviceRows [deviceMention 60000] =
        .error .stopIteration := by
  decide

end Device
end StockContent.Knowledge
