import StockContent.Verification.JobOwnership
import StockContent.Verification.RefreshWrites

/-! Runs of verification refreshes: what the head of a source shows after any number of
completions, started from any of its snapshots. -/
namespace StockContent.Verification
open Storage

/-- A completion, or a call of another writer of the jobs and results. -/
inductive RefreshCall where
  | complete (c : Completion)
  | store (call : VerificationCall)

/-- Calls of the job repository write nothing but jobs and results. -/
def VerificationCall.ofRepository : VerificationCall → Bool
  | .refresh .. | .publish .. => false
  | _ => true

section Runs
variable {Id H B : Type} [DecidableEq Id] [DecidableEq H] (services : RefreshServices Id H B) (codec : ResultCodec Id)

abbrev RefreshReply (Id : Type) := Except (JobError Id) (Option (RefreshOutcome Id))

def execRefresh (db : RefreshDb Id H B) : RefreshCall → RefreshDb Id H B × RefreshReply Id
  | .complete c => (settle db (complete services codec c db)).map id (Except.map some)
  | .store call => ({ db with verification := (verificationStore codec).step db.verification call }, .ok none)

def refreshStore : Machine (RefreshDb Id H B) RefreshCall (RefreshReply Id) := ⟨execRefresh services codec⟩

/-- The calls of a run: completions of the given claims that ask for a parent of the source,
and calls of the job repository. -/
def Requests (sourceHash : String) (claims : List String) (db : RefreshDb Id H B) : RefreshCall → Prop
  | .complete c => c.result.claimId ∈ claims ∧
      ∀ row ∈ c.parentSnapshotId.bind db.snapshots.get, sourceOf services row = sourceHash
  | .store call => call.ofRepository = true

/-- A returned completion of a claim that was not an idempotent repeat. -/
def completionOf (claimId : String) : RefreshCall × RefreshReply Id → Option (Completion × RefreshOutcome Id)
  | (.complete c, .ok (some out)) =>
    if c.result.claimId = claimId ∧ out.idempotent = false then some (c, out) else none
  | _ => none

def lastCompletion (claimId : String) (history : List (RefreshCall × RefreshReply Id)) :
    Option (Completion × RefreshOutcome Id) :=
  (history.filterMap (completionOf claimId)).getLast?

/-- The head shows one entry about the completed claim, made from the submitted result. -/
def Shows (sourceHash : String) (db : RefreshDb Id H B) (c : Completion) (out : RefreshOutcome Id) : Prop :=
  ∃ entry provider availableAt,
    Records entry (c.result.availableFrom availableAt) provider (some out.verificationId) none ∧
      headEntries services sourceHash db c.result.claimId = {.entry entry.canonical}

variable {services codec} {sourceHash : String} {claims : List String} {db : RefreshDb Id H B}

omit [DecidableEq Id] in
theorem lastCompletion_cons (claimId : String) (entry : RefreshCall × RefreshReply Id)
    (history : List (RefreshCall × RefreshReply Id)) :
    lastCompletion claimId (entry :: history) = (lastCompletion claimId history).or (completionOf claimId entry) := by
  rw [lastCompletion, List.filterMap_cons]
  cases completionOf claimId entry with
  | none => simp [lastCompletion]
  | some completion =>
    rw [lastCompletion, List.getLast?_cons]
    cases (history.filterMap (completionOf claimId)).getLast? <;> rfl

/-- One call of a run: what the head shows about a claim changes only by a completion of it. -/
theorem step_merges (hinj : Function.Injective services.contentHash) (hok : HeadOk services sourceHash claims db)
    {call : RefreshCall} (hcall : Requests services sourceHash claims db call) :
    HeadOk services sourceHash claims ((refreshStore services codec).step db call) ∧
      ∀ claimId, match completionOf claimId (call, (refreshStore services codec).outcome db call) with
        | none => headEntries services sourceHash ((refreshStore services codec).step db call) claimId =
            headEntries services sourceHash db claimId
        | some (c, out) => c.result.claimId = claimId ∧
            Shows services sourceHash ((refreshStore services codec).step db call) c out := by
  cases call with
  | store call => exact ⟨hok.of_verification _, fun _ => rfl⟩
  | complete c =>
    cases h : complete services codec c db with
    | error e =>
      have hexec : execRefresh services codec db (.complete c) = (db, .error e) := by
        rw [execRefresh, h]
        rfl
      simp only [Machine.step, Machine.outcome, refreshStore, hexec]
      exact ⟨hok, fun _ => trivial⟩
    | ok result =>
      obtain ⟨db', out⟩ := result
      have hexec : execRefresh services codec db (.complete c) = (db', .ok (some out)) := by
        rw [execRefresh, h]
        rfl
      simp only [Machine.step, Machine.outcome, refreshStore, hexec, completionOf]
      rcases complete_cases h with ⟨hidempotent, verification, rfl⟩ | ⟨verification, job, availableAt, values, hjob,
        hclaim, hmaterialize⟩
      · refine ⟨hok.of_verification _, fun claimId => ?_⟩
        rw [if_neg (by simp [hidempotent])]
        rfl
      · have hsource : ∀ id row, c.parentSnapshotId = some id → db.snapshots.get id = some row →
            sourceOf services row = sourceHash := by
          intro id row hid hrow
          exact hcall.2 row (by simp [hid, hrow])
        have heffective : (c.result.availableFrom availableAt).claimId = job.claimId := hclaim
        obtain ⟨hok', hout, entry, hrecords, hentries⟩ := materialize_merges hinj (hok.of_verification verification)
          (hclaim ▸ hcall.1) heffective hsource hmaterialize
        refine ⟨hok', fun claimId => ?_⟩
        by_cases heq : c.result.claimId = claimId
        · rw [if_pos ⟨heq, hout⟩]
          refine ⟨heq, entry, job.provider, availableAt, hrecords, ?_⟩
          rw [hentries, if_pos hclaim]
        · rw [if_neg fun hboth => heq hboth.1]
          refine (hentries claimId).trans (if_neg ?_)
          exact fun hsame => heq (hclaim.trans hsame.symm)

/-- Over any run of completions, from any parents of the source, the head shows for each claim
the result of its last completion that was not an idempotent repeat, and for a claim without
one what it showed before. -/
theorem no_update_lost (hinj : Function.Injective services.contentHash) (hok : HeadOk services sourceHash claims db)
    {calls : List RefreshCall}
    (hcalls : (refreshStore services codec).Along (Requests services sourceHash claims) db calls) :
    (∀ claimId, match lastCompletion claimId ((refreshStore services codec).history db calls) with
      | none => headEntries services sourceHash ((refreshStore services codec).run db calls) claimId =
          headEntries services sourceHash db claimId
      | some (c, out) => c.result.claimId = claimId ∧
          Shows services sourceHash ((refreshStore services codec).run db calls) c out) ∧
      HeadOk services sourceHash claims ((refreshStore services codec).run db calls) ∧
      ∀ c (s s' : RefreshDb Id H B) out, complete services codec c s = .ok (s', out) →
        (out.idempotent = true ↔ Repeats codec c s) := by
  refine ⟨?_, (refreshStore services codec).run_of_along (I := HeadOk services sourceHash claims)
    (fun _ _ h hcall => (step_merges hinj h hcall).1) hok hcalls, fun _ _ _ _ => idempotent_iff_repeats⟩
  intro claimId
  induction calls generalizing db with
  | nil => rfl
  | cons call calls ih =>
    obtain ⟨hok', hstep⟩ := step_merges hinj hok hcalls.1
    have hrest := ih hok' hcalls.2
    have hstep := hstep claimId
    rw [Machine.history_cons, lastCompletion_cons, Machine.run_cons]
    cases hlater : lastCompletion claimId ((refreshStore services codec).history
        ((refreshStore services codec).step db call) calls) with
    | some completion =>
      rw [hlater] at hrest
      exact hrest
    | none =>
      rw [hlater] at hrest
      dsimp only at hrest
      rw [Option.none_or]
      cases hnow : completionOf claimId (call, (refreshStore services codec).outcome db call) with
      | none =>
        rw [hnow] at hstep
        exact hrest.trans hstep
      | some completion =>
        -- Later calls of the run keep what this completion left.
        rw [hnow] at hstep
        obtain ⟨c, out⟩ := completion
        obtain ⟨rfl, entry, provider, availableAt, hrecords, hentries⟩ := hstep
        exact ⟨rfl, entry, provider, availableAt, hrecords, hrest.trans hentries⟩

variable (services codec) in
/-- On jobs and results a run of refreshes is a run of the verification store, so whatever
holds in every state of that store holds here. -/
theorem run_simulated (db : RefreshDb Id H B) (calls : List RefreshCall) :
    ∃ calls', ((refreshStore services codec).run db calls).verification =
      (verificationStore codec).run db.verification calls' := by
  induction calls generalizing db with
  | nil => exact ⟨[], rfl⟩
  | cons call calls ih =>
    obtain ⟨calls', hcalls⟩ := ih ((refreshStore services codec).step db call)
    have hstep : ∃ first, ((refreshStore services codec).step db call).verification =
        (verificationStore codec).run db.verification first := by
      cases call with
      | store call => exact ⟨[call], rfl⟩
      | complete c =>
        change ∃ first, (settle db (complete services codec c db)).1.verification = _
        cases h : complete services codec c db with
        | error e => exact ⟨[], rfl⟩
        | ok result =>
          obtain ⟨db', out⟩ := result
          refine ⟨[.refresh c.jobId c.workerId c.result out.idempotent (.ok ()) c.now], ?_⟩
          change db'.verification = (settle db.verification (refreshResult codec c.jobId c.workerId c.result
            out.idempotent (.ok ()) c.now db.verification)).1
          rw [complete_refreshResult h]
          rfl
    obtain ⟨first, hfirst⟩ := hstep
    exact ⟨first ++ calls', by rw [Machine.run_cons, hcalls, hfirst, Machine.run_append]⟩

end Runs

section Retried

/-- Hashes that keep what they are taken of; no signals. -/
def plainServices : RefreshServices VerificationIdentity (VerificationArtifact VerificationIdentity) Unit where
  contentHash artifact := artifact
  prefix32 artifact := "of-" ++ String.join artifact.parentArtifactIds
  snapshotHash identity := identity.artifactIds.verification
  sourceHash source := "sha256:" ++ source
  precedes _ _ := true
  validateSnapshot _ _ := .ok ()
  validateCandidate _ _ := .ok ()
  recordEvent _ _ _ other := .ok other
  loadClaim claimId _ := .ok ⟨claimId, .price, "FACT"⟩
  buildSignal _ _ _ _ _ := .ok .null
  publishSignal _ _ _ _ _ other := .ok (other, none)
  signalOf _ _ _ := none

def leasedJob (provider : String) : ClaimVerificationJobRow where
  jobId := jobIdOf "c1" provider
  claimId := "c1"
  provider := provider
  status := .leased
  nextRetryAt := none
  leaseOwner := some "worker-a"
  createdAt := 0

/-- A head with two claims, one of which two providers are checking. -/
def sharedHead : RefreshDb VerificationIdentity (VerificationArtifact VerificationIdentity) Unit where
  verification := ⟨⟨[leasedJob "quant", leasedJob "market"], by decide⟩, .empty⟩
  artifacts := ⟨[artifactRow plainServices ⟨"claims-1",
    [.bare (unboundResult "c2" .notRequired ResultStatus.bound_notRequired none "verification_rule.v1" none)], []⟩], by simp⟩
  snapshots := ⟨[{
    artifactIds := ⟨"claims-1", "verification-of-", []⟩
    contentSnapshotId := "cs-1"
    sourceType := "video"
    sourceRef := "v1"
    createdAt := 0 }], by simp⟩
  members := [("claims-1", "c1"), ("claims-1", "c2")]
  heads := ⟨[⟨"sha256:video:v1", "cs-1", none, 0⟩], by simp⟩
  other := ()

def contradictedResult : VerificationResult :=
  { verifiedResult with status := .contradicted, binding := verifiedResult.binding }

def completionFor (provider : String) (result : VerificationResult) (now : Time) : Completion :=
  { jobId := jobIdOf "c1" provider, workerId := "worker-a", result, parentSnapshotId := some "cs-1", now }

/-- Two providers complete from one parent. -/
def firstCalls : List RefreshCall :=
  [.complete (completionFor "quant" verifiedResult (seconds 30)),
    .complete (completionFor "market" contradictedResult (seconds 40))]

/-- The first result is submitted again. -/
def retry : Completion := completionFor "quant" verifiedResult (seconds 50)
def retriedCalls : List RefreshCall := firstCalls ++ [.complete retry]

theorem sharedHead_ok : HeadOk plainServices "sha256:video:v1" ["c1", "c2"] sharedHead where
  addressed := by
    intro id row hrow
    have hmem := Table.mem_of_get hrow
    rw [sharedHead, List.mem_singleton] at hmem
    subst hmem
    decide
  head := ⟨_, rfl, by decide, by decide⟩

theorem retriedCalls_requests :
    (refreshStore plainServices transparent).Along (Requests plainServices "sha256:video:v1" ["c1", "c2"])
      sharedHead retriedCalls := by
  refine ⟨⟨by decide, ?_⟩, ⟨by decide, ?_⟩, ⟨by decide, ?_⟩, trivial⟩ <;> decide

theorem retried_result_not_shown : ∃ c out,
    ((refreshStore plainServices transparent).history sharedHead retriedCalls).getLast? =
        some (.complete c, .ok (some out)) ∧ c.result.claimId = "c1" ∧
      ¬ Shows plainServices "sha256:video:v1" ((refreshStore plainServices transparent).run sharedHead retriedCalls)
        c out := by
  let store := refreshStore plainServices transparent
  let last := store.outcome (store.run sharedHead firstCalls) (.complete retry)
  have hlast : last.toOption.join.map (·.verificationId.provider) = some "quant" := by decide
  have hshown : ((headSnapshot "sha256:video:v1" (store.run sharedHead retriedCalls)).toList.flatMap
      (shownResults plainServices (store.run sharedHead retriedCalls))).any (fun item => match item.canonical with
        | .entry e => e.claimId == "c1" && e.verificationId.map (·.provider) == some "market"
        | .bare _ => false) = true := by decide
  obtain ⟨out, hout, hprovider⟩ := Option.map_eq_some_iff.mp hlast
  have hok : last = .ok (some out) := toOption_eq_some.mp (Option.join_eq_some_iff.mp hout)
  have hhistory : (store.history sharedHead retriedCalls).getLast? = some (.complete retry, last) := by
    rw [retriedCalls, store.history_concat, List.getLast?_concat]
  refine ⟨retry, out, hok ▸ hhistory, rfl, ?_⟩
  rintro ⟨entry, provider, availableAt, hrecords, hentries⟩
  obtain ⟨item, hitem, hmarket⟩ := List.any_eq_true.mp hshown
  obtain ⟨snapshot, hsnapshot, hitem⟩ := List.mem_flatMap.mp hitem
  cases hcanonical : item.canonical with
  | bare result =>
    rw [hcanonical] at hmarket
    cases hmarket
  | entry e =>
    rw [hcanonical] at hmarket
    simp only [Bool.and_eq_true, beq_iff_eq] at hmarket
    have hmem : VerificationItem.entry e ∈
        headEntries plainServices "sha256:video:v1" (store.run sharedHead retriedCalls) "c1" :=
      ⟨snapshot, Option.mem_toList.mp hsnapshot, List.mem_map.mpr ⟨item, hitem, hcanonical⟩, hmarket.1⟩
    have hsame : VerificationItem.entry e = .entry entry.canonical := (Set.ext_iff.mp hentries _).mp hmem
    have hid : entry.verificationId = some out.verificationId := hrecords.verificationId
    cases hsame
    have hquant : entry.verificationId.map (·.provider) = some "market" := hmarket.2
    rw [hid, Option.map_some, hprovider] at hquant
    exact absurd hquant (by decide)

theorem other_claim_kept :
    headEntries plainServices "sha256:video:v1" ((refreshStore plainServices transparent).run sharedHead retriedCalls)
      "c2" = headEntries plainServices "sha256:video:v1" sharedHead "c2" := by
  have h := (no_update_lost (fun _ _ h => h) sharedHead_ok retriedCalls_requests).1 "c2"
  have hnone : lastCompletion "c2"
      ((refreshStore plainServices transparent).history sharedHead retriedCalls) = none := by
    rw [← Option.isNone_iff_eq_none]
    decide
  rw [hnone] at h
  exact h

end Retried
end StockContent.Verification
