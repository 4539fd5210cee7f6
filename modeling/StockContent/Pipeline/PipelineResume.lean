import Mathlib.Data.List.Sort
import Mathlib.Data.List.TakeWhile
import StockContent.Pipeline.Checkpoint
import StockContent.Storage.Triple

/-! The pipeline of content stages. A resumed run leaves out the stages at its start that
the checkpoints of the task complete, and executes every other stage. -/
namespace StockContent.Pipeline
open Storage Procedure

inductive PipelineError where
  | checkpointValidation (message : String)
  | raised (message : String)
  deriving DecidableEq

/-- The context of a run; `rest` is what only the stages read. -/
structure PipelineContext (S : Type) where
  currentStage : String
  checkpoints : List CheckpointRecord
  artifacts : List Artifact
  restoredArtifacts : Dict String Artifact
  rest : S

structure PipelineStage (S : Type) where
  name : String
  execute : PipelineContext S → Except PipelineError (PipelineContext S)

structure ContentPipeline (S : Type) where
  stages : List (PipelineStage S)

/-- The callbacks of a run, which may raise. -/
structure PipelineCallbacks where
  onProgress : Option (String → Nat → Except PipelineError Unit) := none
  onCheckpoint : Option (String → Payload → Nat → Except PipelineError Unit) := none

def pipelineStateKeys : List String :=
  ["metadata", "segments", "transcript_candidates", "transcript_quality_report", "validated_atomic_claims",
    "atomic_claim_rejections", "transcript", "frames", "knowledge_evidence_windows", "claim_evidence_window_ids",
    "frame_insights", "ocr_evidence", "transcript_visual_crosschecks", "security_mentions", "displayed_target_candidates",
    "eligible_frame_insights", "multimodal_context", "temporal_windows", "semantic_segments", "semantic_contexts",
    "chapter_theses", "knowledge_hierarchy", "claim_drafts", "grounded_occurrences", "temporal_bindings",
    "temporal_bindings_by_draft", "occurrences", "lifecycle_events", "chapters", "video", "knowledge", "evidence", "claims",
    "financial_numeric_facts", "financial_events", "summary", "content_snapshot_id", "diarization_status",
    "quality_warnings",
    "claims_persisted"]

/-- A procedure of a run; its state are the stages that were executed so far. -/
abbrev Run (S A : Type) := Procedure (List (PipelineStage S)) PipelineError A

section Process
variable {S : Type} (digest : Json → String) (isoformat : Time → String)

/-- The artifacts of the registry under their ids, and the restored ones over them. -/
def artifactsById (context : PipelineContext S) : Dict String Artifact :=
  context.restoredArtifacts.rows.foldl (fun store entry => store.set entry.1 entry.2)
    (context.artifacts.foldl (fun store artifact => store.set artifact.artifactId artifact) .empty)

def checkpointPayload (context : PipelineContext S) : Payload :=
  [("completed", .bool true), ("output_keys", CheckpointRecord.texts (pipelineStateKeys.insertionSort (· ≤ ·)))] ++
    (context.checkpoints.getLast?.map fun checkpoint => ("checkpoint", Json.obj (checkpoint.toDict isoformat))).toList

/-- The stages at the start of the graph that are all named. -/
def namedPrefix (names : List String) (stages : List (PipelineStage S)) : List (PipelineStage S) :=
  stages.takeWhile fun stage => names.contains stage.name

/-- The names of the stages that a resumed run leaves out. -/
def completedStages (stages : List (PipelineStage S)) (context : PipelineContext S) (resume : Bool) :
    Except PipelineError (List String) :=
  if resume && !context.checkpoints.isEmpty then do
    let validated ← (validateResume digest (artifactsById context) .empty context.checkpoints).mapError .checkpointValidation
    return (namedPrefix validated stages).map (·.name)
  else .ok []

def executeStage (stage : PipelineStage S) (context : PipelineContext S) : Run S (PipelineContext S) :=
  step fun executed => (executed ++ [stage], stage.execute context)

def runStages (callbacks : PipelineCallbacks) (total : Nat) (completed : List String) :
    List (PipelineStage S) → Nat → PipelineContext S → Run S (PipelineContext S)
  | [], _, context => pure context
  | stage :: rest, index, context =>
    if completed.contains stage.name then
      runStages callbacks total completed rest (index + 1) { context with currentStage := stage.name }
    else do
      attempt (callbacks.onProgress.elim (.ok ()) fun notify => notify stage.name (index * 100 / total))
      let context ← executeStage stage { context with currentStage := stage.name }
      attempt (callbacks.onCheckpoint.elim (.ok ()) fun notify =>
        notify stage.name (checkpointPayload isoformat context) ((index + 1) * 100 / total))
      runStages callbacks total completed rest (index + 1) context

def ContentPipeline.process (pipeline : ContentPipeline S) (context : PipelineContext S) (callbacks : PipelineCallbacks)
    (resume : Bool) : Run S (PipelineContext S) := do
  let completed ← attempt (completedStages digest pipeline.stages context resume)
  let context ← runStages isoformat callbacks (max pipeline.stages.length 1) completed pipeline.stages 0 context
  attempt (callbacks.onProgress.elim (.ok ()) fun notify => notify "completed" 100)
  return { context with currentStage := "completed" }

end Process

/-! What a resumed run leaves out and what it executes. -/

section Lists
variable {A : Type} {p : A → Bool}

/-- A suffix that is all a filter keeps starts no earlier than the kept part, and the filter
keeps all of what the prefix leaves. -/
theorem suffix_of_filter {xs : List A} {skipped : Nat} (hskipped : skipped ≤ xs.length)
    (h : xs.filter (fun x => !p x) = xs.drop skipped) :
    skipped = (xs.takeWhile p).length ∧ ∀ x ∈ xs.drop (xs.takeWhile p).length, p x = false := by
  induction xs generalizing skipped with
  | nil => exact ⟨Nat.le_zero.mp hskipped, List.forall_mem_nil _⟩
  | cons x xs ih =>
    cases hx : p x with
    | true =>
      rw [List.filter_cons_of_neg (by simp [hx])] at h
      rw [List.takeWhile_cons_of_pos hx]
      cases skipped with
      | zero =>
        -- The filter drops the first element, so it cannot keep the whole list.
        have hlength := congrArg List.length h
        have hle := List.length_filter_le (fun x => !p x) xs
        simp only [List.drop_zero, List.length_cons] at hlength
        omega
      | succ skipped =>
        obtain ⟨hskipped', hrest⟩ := ih (Nat.le_of_succ_le_succ hskipped) h
        exact ⟨congrArg Nat.succ hskipped', hrest⟩
    | false =>
      rw [List.takeWhile_cons_of_neg (by simp [hx])]
      have hdrop : ∀ y ∈ (x :: xs).drop skipped, p y = false := by
        intro y hy
        rw [← h] at hy
        simpa using (List.mem_filter.mp hy).2
      cases skipped with
      | zero => exact ⟨rfl, hdrop⟩
      | succ skipped =>
        rw [List.filter_cons_of_pos (by simp [hx])] at h
        -- The filter keeps the first element and all of the suffix, which is too much.
        have hkept : (xs.drop skipped).filter (fun x => !p x) = xs.drop skipped :=
          List.filter_eq_self.mpr fun y hy => by rw [hdrop y hy]; rfl
        have hle := ((List.drop_sublist skipped xs).filter (fun x => !p x)).length_le
        have hlength := congrArg List.length h
        rw [hkept] at hle
        simp only [List.length_cons, List.drop_succ_cons] at hlength
        omega

/-- Where nothing after the prefix is named by it, the filter keeps the suffix. -/
theorem filter_suffix (xs : List A) (h : ∀ x ∈ xs.drop (xs.takeWhile p).length, p x = false) :
    xs.filter (fun x => !p x) = xs.drop (xs.takeWhile p).length := by
  induction xs with
  | nil => rfl
  | cons x xs ih =>
    cases hx : p x with
    | true =>
      rw [List.takeWhile_cons_of_pos hx] at h ⊢
      rw [List.filter_cons_of_neg (by simp [hx])]
      exact ih h
    | false =>
      rw [List.takeWhile_cons_of_neg (by simp [hx])] at h ⊢
      exact List.filter_eq_self.mpr fun y hy => by rw [h y hy]; rfl

theorem takeWhile_eq_of_between {q : A → Bool} {xs : List A} (hkept : ∀ x ∈ xs.takeWhile p, q x = true)
    (hqp : ∀ x ∈ xs, q x = true → p x = true) : xs.takeWhile q = xs.takeWhile p := by
  induction xs with
  | nil => rfl
  | cons x xs ih =>
    cases hx : p x with
    | true =>
      rw [List.takeWhile_cons_of_pos hx] at hkept ⊢
      obtain ⟨hq, hrest⟩ := List.forall_mem_cons.mp hkept
      rw [List.takeWhile_cons_of_pos hq, ih hrest fun y hy => hqp y (List.mem_cons_of_mem x hy)]
    | false =>
      have hq : ¬ q x = true := fun hq => Bool.false_ne_true (hx.symm.trans (hqp x List.mem_cons_self hq))
      rw [List.takeWhile_cons_of_neg hq, List.takeWhile_cons_of_neg (by simp [hx])]

end Lists

section Runs
variable {S : Type} {digest : Json → String} {isoformat : Time → String} {callbacks : PipelineCallbacks}
  {context : PipelineContext S} {stages : List (PipelineStage S)} {resume : Bool}

/-- The stages that are not named, in their order. -/
def pending (completed : List String) (stages : List (PipelineStage S)) : List (PipelineStage S) :=
  stages.filter fun stage => !completed.contains stage.name

/-- A run executes what is pending; one that raises has executed a part of it. -/
theorem runStages_executed (total : Nat) (completed : List String) (index : Nat) (context : PipelineContext S)
    (done : List (PipelineStage S)) :
    Triple (· = done) (runStages isoformat callbacks total completed stages index context)
      (fun _ executed => executed = done ++ pending completed stages)
      (fun _ executed => ∃ started, started <+: pending completed stages ∧ executed = done ++ started) := by
  induction stages generalizing index context done with
  | nil => exact Triple.pure fun executed h => h.trans (List.append_nil done).symm
  | cons stage rest ih =>
    rw [runStages]
    cases hstage : completed.contains stage.name with
    | true =>
      have hpending : pending completed (stage :: rest) = pending completed rest :=
        List.filter_cons_of_neg (by simp only [hstage]; decide)
      rw [if_pos rfl, hpending]
      exact ih _ _ _
    | false =>
      have hpending : pending completed (stage :: rest) = stage :: pending completed rest :=
        List.filter_cons_of_pos (by simp only [hstage]; decide)
      rw [if_neg Bool.false_ne_true, hpending]
      refine Triple.bind (Q := fun _ executed => executed = done)
        (Triple.attempt (fun _ _ _ h => h) fun _ _ executed h => ⟨[], List.nil_prefix, by simpa using h⟩) fun _ => ?_
      refine Triple.bind (Q := fun _ executed => executed = done ++ [stage]) (Triple.step fun executed h => ?_) fun context' => ?_
      · subst h
        cases stage.execute { context with currentStage := stage.name } with
        | ok context' => rfl
        | error e => exact ⟨[stage], List.prefix_cons_iff.mpr (.inr ⟨[], rfl, List.nil_prefix⟩), rfl⟩
      · refine Triple.bind (Q := fun _ executed => executed = done ++ [stage])
          (Triple.attempt (fun _ _ _ h => h) fun _ _ executed h =>
            ⟨[stage], List.prefix_cons_iff.mpr (.inr ⟨[], rfl, List.nil_prefix⟩), h⟩) fun _ => ?_
        refine (ih (index + 1) context' (done ++ [stage])).weaken (fun _ h => h) (fun _ executed h => ?_) fun _ executed h => ?_
        · rw [h, List.append_assoc, List.singleton_append]
        · obtain ⟨started, hstarted, rfl⟩ := h
          exact ⟨stage :: started, List.prefix_cons_inj stage |>.mpr hstarted,
            by rw [List.append_assoc, List.singleton_append]⟩

/-- The stages at the start of the graph that have a leading checkpoint. -/
def skippable (stages : List (PipelineStage S)) (context : PipelineContext S) (resume : Bool) : List (PipelineStage S) :=
  if resume then namedPrefix ((leading context.checkpoints).map (·.stage)) stages else []

theorem namedPrefix_names (names : List String) (stages : List (PipelineStage S)) :
    namedPrefix ((namedPrefix names stages).map (·.name)) stages = namedPrefix names stages := by
  refine takeWhile_eq_of_between (fun stage hstage => ?_) fun stage _ hstage => ?_
  · exact List.contains_iff_mem.mpr (List.mem_map_of_mem hstage)
  · obtain ⟨earlier, hearlier, hname⟩ := List.mem_map.mp (List.contains_iff_mem.mp hstage)
    rw [← hname]
    exact List.mem_takeWhile_imp (p := fun stage : PipelineStage S => names.contains stage.name) hearlier

/-- The names a run leaves out are those of the stages it may skip, and their checkpoints were validated. -/
theorem completedStages_ok {completed : List String} (h : completedStages digest stages context resume = .ok completed) :
    completed = (skippable stages context resume).map (·.name) ∧
      ∀ stage ∈ skippable stages context resume, ∀ record ∈ leading context.checkpoints,
        validateRecord digest (artifactsById context) .empty record = .ok () := by
  rw [completedStages] at h
  cases resume with
  | false =>
    cases h
    exact ⟨rfl, List.forall_mem_nil _⟩
  | true =>
    rw [skippable, if_pos rfl]
    cases hcheckpoints : context.checkpoints with
    | nil =>
      rw [hcheckpoints] at h
      cases h
      have hnone : namedPrefix [] stages = [] := by
        rw [namedPrefix]
        cases stages <;> rfl
      rw [leading, List.takeWhile_nil, List.map_nil, hnone]
      exact ⟨rfl, List.forall_mem_nil _⟩
    | cons record rest =>
      rw [hcheckpoints] at h
      obtain ⟨validated, hvalidated, h⟩ := bind_eq_ok.mp h
      cases h
      obtain ⟨rfl, hvalid⟩ := validateResume_ok.mp (mapError_eq_ok.mp hvalidated)
      exact ⟨rfl, fun _ _ => hvalid⟩

/-- Every output of the checkpoints a stage is left out by is stored under its recorded hash. -/
def OutputsStored (context : PipelineContext S) (stage : PipelineStage S) : Prop :=
  (∃ record ∈ leading context.checkpoints, record.stage = stage.name) ∧
    ∀ record ∈ leading context.checkpoints, record.stage = stage.name →
      ∀ (i : Nat) (id : String), record.outputArtifactIds[i]? = some id → ∃ hash, record.outputHashes[i]? = some hash ∧
        ((artifactsById context).lookup id).map (·.contentHash) = some hash

/-- What was left out are the first stages of the graph, with their outputs stored; every
stage after them was executed once and in order, up to a raise. -/
def ResumesSoundly (stages : List (PipelineStage S)) (context : PipelineContext S)
    (outcome : List (PipelineStage S) × Except PipelineError (PipelineContext S)) : Prop :=
  ∃ skipped, skipped ≤ stages.length ∧ (∀ stage ∈ stages.take skipped, OutputsStored context stage) ∧
    outcome.1 <+: stages.drop skipped ∧ (outcome.2.toBool = true → outcome.1 = stages.drop skipped)

/-- A checkpoint that a stage is left out by has a hash for every output, and no later
stage of the graph has the name of one that is left out. -/
structure Resumable (stages : List (PipelineStage S)) (context : PipelineContext S) (resume : Bool) : Prop where
  hashed : ∀ stage ∈ skippable stages context resume, ∀ record ∈ leading context.checkpoints, record.stage = stage.name →
    record.outputArtifactIds.length ≤ record.outputHashes.length
  unrepeated : ∀ stage ∈ stages.drop (skippable stages context resume).length,
    ∀ earlier ∈ skippable stages context resume, stage.name ≠ earlier.name

/-- Whether a stage has a leading checkpoint. -/
def recorded (context : PipelineContext S) (stage : PipelineStage S) : Bool :=
  ((leading context.checkpoints).map (·.stage)).contains stage.name

theorem skippable_recorded {stage : PipelineStage S} (h : stage ∈ skippable stages context resume) :
    ∃ record ∈ leading context.checkpoints, record.stage = stage.name := by
  cases resume with
  | false => cases h
  | true => exact List.mem_map.mp (List.contains_iff_mem.mp (List.mem_takeWhile_imp (p := recorded context) h))

theorem take_skippable : stages.take (skippable stages context resume).length = skippable stages context resume := by
  cases resume with
  | false => rfl
  | true => exact (List.prefix_iff_eq_take.mp (List.takeWhile_prefix _)).symm

/-- Outputs that were compared pair by pair are all stored when none is without a hash. -/
theorem outputsStored {stage : PipelineStage S} (h : stage ∈ skippable stages context resume)
    (hvalid : ∀ record ∈ leading context.checkpoints, validateRecord digest (artifactsById context) .empty record = .ok ())
    (hhashed : ∀ record ∈ leading context.checkpoints, record.stage = stage.name →
      record.outputArtifactIds.length ≤ record.outputHashes.length) : OutputsStored context stage := by
  refine ⟨skippable_recorded h, fun record hrecord hname i id hid => ?_⟩
  obtain ⟨hi, hget⟩ := List.getElem?_eq_some_iff.mp hid
  have hlt : i < record.outputHashes.length := Nat.lt_of_lt_of_le hi (hhashed record hrecord hname)
  refine ⟨record.outputHashes[i], List.getElem?_eq_getElem hlt, ?_⟩
  refine validateRecord_outputs (hvalid record hrecord) (id, record.outputHashes[i]) ?_
  refine List.mem_iff_getElem.mpr ⟨i, ?_, ?_⟩
  · rw [List.length_zip]
    exact Nat.lt_min.mpr ⟨hi, hlt⟩
  · rw [List.getElem_zip, hget]

theorem OutputsStored.hashed {stage : PipelineStage S} (h : OutputsStored context stage) {record : CheckpointRecord}
    (hrecord : record ∈ leading context.checkpoints) (hname : record.stage = stage.name) :
    record.outputArtifactIds.length ≤ record.outputHashes.length := by
  by_contra hlt
  have hi : record.outputHashes.length < record.outputArtifactIds.length := Nat.lt_of_not_le hlt
  obtain ⟨hash, hhash, _⟩ := h.2 record hrecord hname record.outputHashes.length _ (List.getElem?_eq_getElem hi)
  rw [List.getElem?_eq_none (Nat.le_refl _)] at hhash
  cases hhash

/-- What a run executed: nothing when the checkpoints were refused, else what is pending. -/
theorem process_executed (pipeline : ContentPipeline S) (context : PipelineContext S) (callbacks : PipelineCallbacks)
    (resume : Bool) :
    let completed := (skippable pipeline.stages context resume).map (·.name)
    let outcome := (pipeline.process digest isoformat context callbacks resume).exec []
    (outcome.1 = [] ∧ outcome.2.toBool = false) ∨
      ((∀ stage ∈ skippable pipeline.stages context resume, ∀ record ∈ leading context.checkpoints,
          validateRecord digest (artifactsById context) .empty record = .ok ()) ∧
        outcome.1 <+: pending completed pipeline.stages ∧
          (outcome.2.toBool = true → outcome.1 = pending completed pipeline.stages)) := by
  intro completed outcome
  cases hcompleted : completedStages digest pipeline.stages context resume with
  | error e =>
    refine .inl ?_
    have houtcome : outcome = ([], .error e) := by
      change (pipeline.process digest isoformat context callbacks resume).exec [] = _
      rw [ContentPipeline.process, hcompleted]
      rfl
    rw [houtcome]
    exact ⟨rfl, rfl⟩
  | ok names =>
    obtain ⟨rfl, hvalid⟩ := completedStages_ok hcompleted
    refine .inr ⟨hvalid, ?_⟩
    have hrun : Triple (· = []) (pipeline.process digest isoformat context callbacks resume)
        (fun _ executed => executed = pending completed pipeline.stages)
        (fun _ executed => executed <+: pending completed pipeline.stages) := by
      rw [ContentPipeline.process, hcompleted]
      refine Triple.bind (Q := fun names executed => names = completed ∧ executed = [])
        (Triple.attempt (fun names hnames executed h => ⟨(Except.ok.inj hnames).symm, h⟩) fun _ h => by cases h)
        fun names => ?_
      refine Triple.fact fun hnames => ?_
      subst hnames
      refine Triple.bind (Q := fun _ executed => executed = pending completed pipeline.stages) ?_ fun context' => ?_
      · refine (runStages_executed _ completed 0 context []).weaken (fun _ h => h) (fun _ _ h => h) fun _ executed h => ?_
        obtain ⟨started, hstarted, rfl⟩ := h
        exact hstarted
      · refine Triple.bind (Q := fun _ executed => executed = pending completed pipeline.stages)
          (Triple.attempt (fun _ _ _ h => h) fun _ _ executed h => h ▸ List.prefix_rfl) fun _ => ?_
        exact Triple.pure fun _ h => h
    have hholds := hrun [] rfl
    change Holds _ _ outcome at hholds
    revert hholds
    obtain ⟨executed, result⟩ := outcome
    cases result with
    | ok context' => exact fun h => ⟨h ▸ List.prefix_rfl, fun _ => h⟩
    | error e => exact fun h => ⟨h, fun hok => absurd hok Bool.false_ne_true⟩

/-- The stages that a run leaves out at its start are the ones it may skip. -/
theorem takeWhile_skippable : stages.takeWhile (fun stage =>
    ((skippable stages context resume).map (·.name)).contains stage.name) = skippable stages context resume := by
  cases resume with
  | false => cases stages <;> rfl
  | true => exact namedPrefix_names _ stages

theorem unnamed_iff {stage : PipelineStage S} :
    ((skippable stages context resume).map (·.name)).contains stage.name = false ↔
    ∀ earlier ∈ skippable stages context resume, stage.name ≠ earlier.name := by
  rw [← Bool.not_eq_true, List.contains_iff_mem, List.mem_map]
  exact ⟨fun h earlier hearlier hname => h ⟨earlier, hearlier, hname.symm⟩,
    fun h hmem => by obtain ⟨earlier, hearlier, hname⟩ := hmem; exact h earlier hearlier hname.symm⟩

/-- What is pending is what follows the skipped stages, where no name comes again. -/
theorem pending_of_unrepeated (h : ∀ stage ∈ stages.drop (skippable stages context resume).length,
      ∀ earlier ∈ skippable stages context resume, stage.name ≠ earlier.name) :
    pending ((skippable stages context resume).map (·.name)) stages =
      stages.drop (skippable stages context resume).length := by
  have hsuffix := filter_suffix (p := fun stage : PipelineStage S =>
    ((skippable stages context resume).map (·.name)).contains stage.name) stages
  rw [takeWhile_skippable] at hsuffix
  exact hsuffix fun stage hstage => unnamed_iff.mpr (h stage hstage)

/-- Where what is pending is a suffix, it follows the skipped stages and no name comes again. -/
theorem unrepeated_of_pending {skipped : Nat} (hskipped : skipped ≤ stages.length)
    (h : pending ((skippable stages context resume).map (·.name)) stages = stages.drop skipped) :
    skipped = (skippable stages context resume).length ∧ ∀ stage ∈ stages.drop (skippable stages context resume).length,
      ∀ earlier ∈ skippable stages context resume, stage.name ≠ earlier.name := by
  have hsuffix := suffix_of_filter hskipped h
  rw [takeWhile_skippable] at hsuffix
  exact ⟨hsuffix.1, fun stage hstage => unnamed_iff.mp (hsuffix.2 stage hstage)⟩

/-- A resumed run is sound when its checkpoints have all hashes and no skipped name comes
again, and a run that returns is sound only then. -/
theorem process_resumes_iff (digest : Json → String) (isoformat : Time → String) (pipeline : ContentPipeline S)
    (context : PipelineContext S) (callbacks : PipelineCallbacks) (resume : Bool) :
    let outcome := (pipeline.process digest isoformat context callbacks resume).exec []
    (Resumable pipeline.stages context resume → ResumesSoundly pipeline.stages context outcome) ∧
      (outcome.2.toBool = true → ResumesSoundly pipeline.stages context outcome →
        Resumable pipeline.stages context resume) := by
  intro outcome
  rcases process_executed pipeline context callbacks resume with ⟨hnone, herror⟩ | ⟨hvalid, hprefix, hall⟩
  · constructor
    · intro _
      refine ⟨0, Nat.zero_le _, List.forall_mem_nil _, ?_, fun hok => absurd hok (by rw [herror]; decide)⟩
      rw [hnone]
      exact List.nil_prefix
    · exact fun hok => absurd hok (by rw [herror]; decide)
  · constructor
    · intro hresumable
      have hpending := pending_of_unrepeated hresumable.unrepeated
      rw [hpending] at hprefix hall
      refine ⟨(skippable pipeline.stages context resume).length, ?_, ?_, hprefix, hall⟩
      · rw [← take_skippable]
        exact List.length_take_le' _ _
      · rw [take_skippable]
        exact fun stage hstage => outputsStored hstage (hvalid stage hstage) (hresumable.hashed stage hstage)
    · rintro hok ⟨skipped, hskipped, houtputs, _, hexecuted⟩
      obtain ⟨rfl, hunrepeated⟩ := unrepeated_of_pending hskipped ((hall hok).symm.trans (hexecuted hok))
      rw [take_skippable] at houtputs
      exact ⟨fun stage hstage record hrecord hname => (houtputs stage hstage).hashed hrecord hname, hunrepeated⟩

end Runs

/-- A stage that only passes its context on. -/
def passing (name : String) : PipelineStage Unit := ⟨name, .ok⟩

def twoStages : ContentPipeline Unit := ⟨[passing "resolve", passing "transcribe"]⟩

/-- A checkpoint that names an output and no hash for it. -/
def unhashedOutput : CheckpointRecord := { stage := "resolve", outputArtifactIds := ["source-1"] }

/-- The store holds no artifact. -/
def unhashed : PipelineContext Unit where
  currentStage := "queued"
  checkpoints := [unhashedOutput]
  artifacts := []
  restoredArtifacts := .empty
  rest := ()

/-- The stage is left out although its output is nowhere. -/
theorem missing_output_skipped : ¬ ResumesSoundly twoStages.stages unhashed
    ((twoStages.process (fun _ => "") (fun _ => "") unhashed {} true).exec []) := by
  rintro ⟨skipped, hskipped, houtputs, _, hexecuted⟩
  have hlength := congrArg List.length (hexecuted (by decide))
  rw [show ((twoStages.process (fun _ => "") (fun _ => "") unhashed {} true).exec []).1.length = 1 by decide,
    List.length_drop] at hlength
  have hone : skipped = 1 := by
    change 1 = 2 - skipped at hlength
    omega
  subst hone
  have hhashed : unhashedOutput.outputArtifactIds.length ≤ unhashedOutput.outputHashes.length :=
    (houtputs (passing "resolve") List.mem_cons_self).hashed List.mem_cons_self rfl
  exact absurd hhashed (by decide)

end StockContent.Pipeline
