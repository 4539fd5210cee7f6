import StockContent.Publication.PublicationRun

/-! The manifest hash of a publication run along its transitions. A retry edge enters the
late states without passing the one that sets the hash. -/
namespace StockContent.Publication
open Storage ContentPublicationRun

variable {run : ContentPublicationRun} {call : TransitionCall}

theorem step_moved (hallows : run.allows call.target = true)
    (hready : call.target = .ready → (sealedHash call.manifestHash run.manifestHash).any (· ≠ "") = true) :
    publicationMachine.step run call = run.moved call.target call.manifestHash := by
  have hok := transition_ok.mpr ⟨hallows, hready, rfl⟩
  change (settle run ((run.transition call.target call.manifestHash).map fun run' => (run', run'))).1 = _
  rw [hok]
  rfl

/-- A call leaves the run as it was or is accepted. -/
theorem step_cases (run : ContentPublicationRun) (call : TransitionCall) :
    publicationMachine.step run call = run ∨
      (run.allows call.target = true ∧
        (call.target = .ready → (sealedHash call.manifestHash run.manifestHash).any (· ≠ "") = true) ∧
        publicationMachine.step run call = run.moved call.target call.manifestHash) := by
  cases htransition : run.transition call.target call.manifestHash with
  | error e =>
    left
    change (settle run ((run.transition call.target call.manifestHash).map fun run' => (run', run'))).1 = run
    rw [htransition]
    rfl
  | ok run' =>
    obtain ⟨hallows, hready, _⟩ := transition_ok.mp htransition
    exact .inr ⟨hallows, hready, step_moved hallows hready⟩

section SealedHash
variable {given held : Option String}

theorem sealedHash_given (h : given.any (· ≠ "") = true) : sealedHash given held = given := if_pos h

theorem sealedHash_held (h : given.any (· ≠ "") = false) : sealedHash given held = held := by
  rw [sealedHash, h]
  rfl

theorem exists_of_any {hash : Option String} (h : hash.any (· ≠ "") = true) : ∃ text, hash = some text ∧ text ≠ "" := by
  cases hash with
  | none => cases h
  | some text => exact ⟨text, rfl, of_decide_eq_true h⟩

theorem sealedHash_ne_empty (h : held ≠ some "") : sealedHash given held ≠ some "" := by
  cases hgiven : given.any (· ≠ "") with
  | false => rwa [sealedHash_held hgiven]
  | true =>
    obtain ⟨text, rfl, htext⟩ := exists_of_any hgiven
    rw [sealedHash_given hgiven]
    exact fun he => htext (Option.some.inj he)

end SealedHash

/-- A transition keeps the run hashed, and hashes it with what it is given. -/
theorem moved_hashed {target : PublicationState} {given : Option String}
    (h : given.any (· ≠ "") = true ∨ Hashed run) : Hashed (run.moved target given) := by
  change ∃ hash, sealedHash given run.manifestHash = some hash ∧ hash ≠ ""
  cases hgiven : given.any (· ≠ "") with
  | true =>
    rw [sealedHash_given hgiven]
    exact exists_of_any hgiven
  | false =>
    rw [sealedHash_held hgiven]
    exact h.resolve_left (by rw [hgiven]; nofun)

/-- What a run keeps as long as its seal is kept. -/
structure WellSealed (run : ContentPublicationRun) : Prop where
  ready : run.state ∈ readyStates → Hashed run
  nonempty : run.manifestHash ≠ some ""

/-- The step itself: the seal is kept, and so is a hash that the run has. -/
def SealKept (run : ContentPublicationRun) (call : TransitionCall) : Prop :=
  WellSealed (publicationMachine.step run call) ∧
    ∀ hash, run.manifestHash = some hash → (publicationMachine.step run call).manifestHash = some hash

theorem nonempty_step (h : run.manifestHash ≠ some "") : (publicationMachine.step run call).manifestHash ≠ some "" := by
  rcases step_cases run call with hsame | ⟨_, _, hmoved⟩
  · rwa [hsame]
  · rw [hmoved]
    exact sealedHash_ne_empty h

/-- The states from which a late state is entered. -/
theorem ready_sources (hallows : run.allows call.target = true) (htarget : call.target ∈ readyStates) :
    call.target = .ready ∨ run.state ∈ readyStates ∨ (run.state = .failedRetryable ∧ call.target = .publishing) := by
  rw [allows, Bool.or_eq_true, decide_eq_true_iff, List.contains_iff_mem] at hallows
  rcases hallows with hself | hedge
  · exact .inr (.inl (hself ▸ htarget))
  · revert hedge htarget
    cases run.state <;> cases call.target <;> decide

theorem sealKept_of_keepsSeal (hs : WellSealed run) (h : KeepsSeal run call) : SealKept run call := by
  rcases step_cases run call with hsame | ⟨hallows, hready, hmoved⟩
  · rw [SealKept, hsame]
    exact ⟨hs, fun _ hash => hash⟩
  · obtain ⟨hretry, hsame⟩ := h hallows
    rw [SealKept, hmoved]
    refine ⟨⟨fun htarget => ?_, sealedHash_ne_empty hs.nonempty⟩, fun held hheld => ?_⟩
    · rcases ready_sources hallows htarget with hreadied | hlate | ⟨hfailed, hpublishing⟩
      · exact exists_of_any (hready hreadied)
      · exact moved_hashed (.inr (hs.ready hlate))
      · exact moved_hashed (hretry hfailed hpublishing)
    · change sealedHash call.manifestHash run.manifestHash = some held
      cases hgiven : call.manifestHash.any (· ≠ "") with
      | false => rwa [sealedHash_held hgiven]
      | true =>
        obtain ⟨given, hcall, hne⟩ := exists_of_any hgiven
        rw [sealedHash_given hgiven, hcall, hsame held given hheld hcall hne]

theorem keepsSeal_of_sealKept (h : SealKept run call) : KeepsSeal run call := by
  intro hallows
  constructor
  · intro _ hpublishing
    have hmoved := step_moved hallows fun hready => by rw [hpublishing] at hready; cases hready
    have hlate : PublicationState.publishing ∈ readyStates := by decide
    obtain ⟨hash, hhash, hne⟩ := h.1.ready (by rw [hmoved]; exact hpublishing ▸ hlate)
    rw [hmoved] at hhash
    cases hgiven : call.manifestHash.any (· ≠ "") with
    | true => exact .inl rfl
    | false => exact .inr ⟨hash, (sealedHash_held hgiven).symm.trans hhash, hne⟩
  · intro held given hheld hgiven hne
    have hany : call.manifestHash.any (· ≠ "") = true := by
      rw [hgiven]
      exact decide_eq_true hne
    have hmoved := step_moved hallows fun _ => by rw [sealedHash_given hany]; exact hany
    have hkept := h.2 held hheld
    rw [hmoved] at hkept
    have hsealed : sealedHash call.manifestHash run.manifestHash = some held := hkept
    rw [sealedHash_given hany, hgiven] at hsealed
    exact Option.some.inj hsealed

theorem manifestSealed_iff_along (hs : WellSealed run) (calls : List TransitionCall) :
    ManifestSealed run calls ↔ publicationMachine.Along SealKept run calls := by
  have hnonempty (done : List TransitionCall) : (publicationMachine.run run done).manifestHash ≠ some "" :=
    publicationMachine.run_invariant (I := fun run => run.manifestHash ≠ some "") (fun _ _ => nonempty_step) hs.nonempty done
  constructor
  · intro h
    rw [Machine.along_iff]
    rintro done call rest rfl
    rw [SealKept, ← Machine.run_concat]
    refine ⟨⟨h.ready (done ++ [call]) rest (by rw [List.append_assoc]; rfl), hnonempty _⟩, ?_⟩
    exact h.kept done [call] rest rfl
  · intro h
    refine ⟨?_, ?_⟩
    · rintro done rest rfl
      have hdone := (publicationMachine.along_append).mp h |>.1
      exact (publicationMachine.run_of_along (fun _ _ _ hkept => hkept.1) hs hdone).ready
    · rintro done later rest rfl hash hhash
      have hlater := (publicationMachine.along_append).mp ((publicationMachine.along_append).mp h).2 |>.1
      rw [Machine.run_append]
      exact publicationMachine.run_of_along (I := fun run => run.manifestHash = some hash) (fun _ _ hhash hkept => hkept.2 hash hhash)
        hhash hlater

/-- A run as it is built from its identity alone. -/
def freshRun (identity : PublicationIdentity) (named : identity.Named) : ContentPublicationRun where
  identity := identity
  named := named
  positive := Int.le_refl 1

/-- From a fresh run on, the manifest hash is there in READY, PUBLISHING and PUBLISHED and
never changes exactly when no accepted call enters PUBLISHING from a retryable failure
without a hash or gives the run another hash than it has. -/
theorem publication_run_sealed_iff (identity : PublicationIdentity) (named : identity.Named) (calls : List TransitionCall) :
    ManifestSealed (freshRun identity named) calls ↔
      publicationMachine.Along KeepsSeal (freshRun identity named) calls := by
  have hearly : PublicationState.assembling ∉ readyStates := by decide
  have hfresh : WellSealed (freshRun identity named) := ⟨fun hlate => absurd hlate hearly, nofun⟩
  rw [manifestSealed_iff_along hfresh]
  refine publicationMachine.along_congr (I := WellSealed) (fun _ _ _ hkept => hkept.1) (fun run call hs => ?_) hfresh calls
  exact ⟨keepsSeal_of_sealKept, sealKept_of_keepsSeal hs⟩

/-- The run of snapshot `snap-1`. -/
def snapshotRun : ContentPublicationRun := freshRun ⟨"snap-1", "q", "p"⟩ (by decide)

theorem snapshot_run_sealed_iff :
    ManifestSealed snapshotRun [⟨.projecting, none⟩, ⟨.sealing, none⟩, ⟨.ready, some "h"⟩, ⟨.publishing, none⟩] ↔
      publicationMachine.Along KeepsSeal snapshotRun
        [⟨.projecting, none⟩, ⟨.sealing, none⟩, ⟨.ready, some "h"⟩, ⟨.publishing, none⟩] :=
  publication_run_sealed_iff ⟨"snap-1", "q", "p"⟩ (by decide) _

/-- The run fails while it is assembled and is retried from PUBLISHING on. -/
theorem published_without_manifest :
    ¬ ManifestSealed snapshotRun [⟨.failedRetryable, none⟩, ⟨.publishing, none⟩, ⟨.published, none⟩] := by
  intro h
  obtain ⟨hash, hhash, _⟩ := h.ready _ [] (List.append_nil _).symm (by decide)
  cases hhash

end StockContent.Publication
