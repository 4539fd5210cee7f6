import StockContent.Identity.SnapshotIdentity
import StockContent.Pipeline.ArtifactRegistry

/-! Sequences of calls on the artifact registry: which artifacts one id can stand for, and what the order of the
calls decides. -/
namespace StockContent.Pipeline
open Storage

section Held
variable {registry : ArtifactRegistry} {slot other : Slot} {artifact a : ArtifactBase}

/-- What a slot holds. -/
def ArtifactRegistry.held (registry : ArtifactRegistry) : Slot → List ArtifactBase
  | .base slot => (registry.base slot).toList
  | .single slot => (registry.single slot).toList
  | .visual slot => registry.visual slot

def ArtifactRegistry.heldIds (registry : ArtifactRegistry) (slot : Slot) : List String :=
  (registry.held slot).map ArtifactBase.artifactId

theorem mem_artifacts : a ∈ registry.artifacts ↔ ∃ slot, a ∈ registry.held slot := by
  simp only [ArtifactRegistry.artifacts, ArtifactRegistry.visualArtifacts, List.mem_append, List.mem_filterMap,
    List.mem_flatMap]
  constructor
  · rintro ((⟨slot, -, h⟩ | ⟨slot, -, h⟩) | ⟨slot, -, h⟩)
    · exact ⟨.base slot, Option.mem_toList.mpr h⟩
    · exact ⟨.visual slot, h⟩
    · exact ⟨.single slot, Option.mem_toList.mpr h⟩
  · rintro ⟨slot | slot | slot, h⟩
    · exact .inl (.inl ⟨slot, by cases slot <;> decide, Option.mem_toList.mp h⟩)
    · exact .inr ⟨slot, by cases slot <;> decide, Option.mem_toList.mp h⟩
    · exact .inl (.inr ⟨slot, by cases slot <;> decide, h⟩)

/-- A registry after an artifact has come to a slot: a list keeps the first artifact of an id, a slot of one
artifact the last. -/
def ArtifactRegistry.place (registry : ArtifactRegistry) (artifact : ArtifactBase) : Slot → ArtifactRegistry
  | .base slot => { registry with base := Function.update registry.base slot (some artifact) }
  | .single slot => { registry with single := Function.update registry.single slot (some artifact) }
  | .visual slot =>
    if (registry.heldIds (.visual slot)).contains artifact.artifactId then registry else registry.append slot artifact

theorem held_place_of_ne (h : other ≠ slot) : (registry.place artifact slot).held other = registry.held other := by
  cases slot with
  | base slot =>
    cases other with
    | base other => exact congrArg Option.toList (Function.update_of_ne (fun he => h (congrArg Slot.base he)) _ _)
    | _ => rfl
  | single slot =>
    cases other with
    | single other => exact congrArg Option.toList (Function.update_of_ne (fun he => h (congrArg Slot.single he)) _ _)
    | _ => rfl
  | visual slot =>
    simp only [ArtifactRegistry.place]
    split
    · rfl
    · cases other with
      | visual other => exact Function.update_of_ne (fun he => h (congrArg Slot.visual he)) _ _
      | _ => rfl

def Slot.many : Slot → Bool
  | .visual _ => true
  | _ => false

theorem held_place_one (h : slot.many = false) : (registry.place artifact slot).held slot = [artifact] := by
  cases slot with
  | visual slot => cases h
  | base slot => simp [ArtifactRegistry.place, ArtifactRegistry.held]
  | single slot => simp [ArtifactRegistry.place, ArtifactRegistry.held]

theorem held_place_many (h : slot.many = true) :
    (registry.place artifact slot).held slot =
      if artifact.artifactId ∈ registry.heldIds slot then registry.held slot else registry.held slot ++ [artifact] := by
  cases slot with
  | base slot => cases h
  | single slot => cases h
  | visual slot =>
    simp only [ArtifactRegistry.place, List.contains_iff_mem]
    split
    · rfl
    · simp [ArtifactRegistry.held, ArtifactRegistry.append]

theorem mem_held_place (h : a ∈ (registry.place artifact slot).held other) :
    a ∈ registry.held other ∨ other = slot ∧ a = artifact := by
  by_cases hslot : other = slot
  · subst hslot
    cases hmany : other.many with
    | false =>
      rw [held_place_one hmany] at h
      exact .inr ⟨rfl, List.mem_singleton.mp h⟩
    | true =>
      rw [held_place_many hmany] at h
      split at h
      · exact .inl h
      · exact (List.mem_append.mp h).imp id fun h => ⟨rfl, List.mem_singleton.mp h⟩
  · rw [held_place_of_ne hslot] at h
    exact .inl h

end Held

section Calls
variable {registry registry' : ArtifactRegistry} {call : RegistryCall} {slot : Slot} {artifact : ArtifactBase}

/-- The class a slot asks for. -/
def Slot.takes (slot : Slot) (artifact : ArtifactBase) : Bool :=
  match slot with
  | .base _ => true
  | .single slot => artifact.artifactClass = slot.expected
  | .visual slot => artifact.artifactClass = slot.expected

/-- Where a call registers its artifact if nothing registered speaks against it: the name has to be known, the
class right. -/
def RegistryCall.target : RegistryCall → Option Slot
  | .set slot artifact => (slotNamed slot).filter (·.takes artifact)
  | .add slot artifact => ((visualNamed slot).map Slot.visual).filter (·.takes artifact)

/-- What a call compares its artifact with. -/
def ArtifactRegistry.rivals (registry : ArtifactRegistry) : Slot → List ArtifactBase
  | .single slot => (registry.single slot).toList
  | _ => registry.artifacts

def Agrees (existing : List ArtifactBase) (artifact : ArtifactBase) : Prop :=
  ∀ known ∈ existing, known.artifactId = artifact.artifactId → known.contentHash = artifact.contentHash

theorem requireSame_eq_ok {existing : List ArtifactBase} :
    ArtifactRegistry.requireSame existing artifact = .ok () ↔ Agrees existing artifact := by
  simp [ArtifactRegistry.requireSame, require_eq_ok, ArtifactBase.conflicts, Agrees, imp_iff_not_or]

theorem requireClass_eq_ok {name : String} {expected : ArtifactClass} :
    ArtifactRegistry.requireClass name expected artifact = .ok () ↔ artifact.artifactClass = expected := by
  simp [ArtifactRegistry.requireClass, require_eq_ok]

theorem fresh_eq_ok {existing : List ArtifactBase} (h : Agrees existing artifact) :
    ArtifactRegistry.fresh artifact existing =
      .ok (!(existing.map ArtifactBase.artifactId).contains artifact.artifactId) := by
  induction existing with
  | nil => rfl
  | cons known rest ih =>
    obtain ⟨hknown, hrest⟩ := List.forall_mem_cons.mp h
    have hconflict : ¬ known.conflicts artifact = true := by simpa [ArtifactBase.conflicts] using hknown
    rw [ArtifactRegistry.fresh, if_neg hconflict]
    split
    · rename_i hid
      simp [hid]
    · rename_i hid
      rw [ih hrest]
      simp [Ne.symm hid]

theorem add_eq_ok {name : String} :
    registry.add name artifact = .ok registry' ↔ ∃ visual, visualNamed name = some visual ∧
      artifact.artifactClass = visual.expected ∧ Agrees registry.artifacts artifact ∧
      registry' = registry.place artifact (.visual visual) := by
  rw [ArtifactRegistry.add]
  cases hname : visualNamed name with
  | none => simp
  | some visual =>
    simp only [Option.some.injEq, exists_eq_left', then_eq_ok, requireClass_eq_ok, requireSame_eq_ok]
    refine and_congr_right fun _ => and_congr_right fun hagrees => ?_
    have hslot : Agrees (registry.visual visual) artifact :=
      fun known hknown => hagrees known (mem_artifacts.mpr ⟨.visual visual, hknown⟩)
    rw [fresh_eq_ok hslot, ok_bind, ArtifactRegistry.place, ArtifactRegistry.heldIds, ArtifactRegistry.held]
    cases ((registry.visual visual).map ArtifactBase.artifactId).contains artifact.artifactId <;>
      simp [pure, Except.pure, eq_comm]

theorem visualNamed_of_slotNamed {name : String} {visual : VisualSlot} (h : slotNamed name = some (.visual visual)) :
    visualNamed name = some visual := by
  rcases Option.or_eq_some_iff.mp h with hsingle | ⟨-, hrest⟩
  · obtain ⟨single, -, hslot⟩ := Option.map_eq_some_iff.mp hsingle
    cases hslot
  · rcases Option.or_eq_some_iff.mp hrest with hvisual | ⟨-, hbase⟩
    · obtain ⟨visual', hvisual', hslot⟩ := Option.map_eq_some_iff.mp hvisual
      cases hslot
      exact hvisual'
    · obtain ⟨base, -, hslot⟩ := Option.map_eq_some_iff.mp hbase
      cases hslot

theorem set_eq_ok {name : String} :
    registry.set name artifact = .ok registry' ↔ ∃ slot, slotNamed name = some slot ∧ slot.takes artifact = true ∧
      Agrees (registry.rivals slot) artifact ∧ registry' = registry.place artifact slot := by
  rw [ArtifactRegistry.set]
  cases hname : slotNamed name with
  | none =>
    simp only [reduceCtorEq, false_and, exists_false, iff_false]
    intro h
    cases (then_eq_ok.mp h).2
  | some slot =>
    simp only [Option.some.injEq, exists_eq_left']
    cases slot with
    | single slot =>
      simp only [then_eq_ok, requireClass_eq_ok, requireSame_eq_ok, Slot.takes, decide_eq_true_eq,
        ArtifactRegistry.rivals, ArtifactRegistry.place, pure, Except.pure, Except.ok.injEq]
      constructor
      · rintro ⟨hagrees, hclass, rfl⟩
        exact ⟨hclass, hagrees, rfl⟩
      · rintro ⟨hclass, hagrees, rfl⟩
        exact ⟨hagrees, hclass, rfl⟩
    | visual slot =>
      simp only [then_eq_ok, requireSame_eq_ok, add_eq_ok, visualNamed_of_slotNamed hname, Option.some.injEq,
        exists_eq_left', Slot.takes, decide_eq_true_eq, ArtifactRegistry.rivals]
      exact ⟨fun h => h.2, fun h => ⟨h.2.1, h⟩⟩
    | base slot =>
      simp only [then_eq_ok, requireSame_eq_ok, Slot.takes, true_and, ArtifactRegistry.rivals, ArtifactRegistry.place,
        pure, Except.pure, Except.ok.injEq]
      constructor
      · rintro ⟨hagrees, -, rfl⟩
        exact ⟨hagrees, rfl⟩
      · rintro ⟨hagrees, rfl⟩
        exact ⟨hagrees, fun known hknown => hagrees known (mem_artifacts.mpr ⟨.base slot, hknown⟩), rfl⟩

/-- A call registers its artifact at its target unless what it looks at has another hash for the id. -/
theorem apply_eq_ok : call.apply registry = .ok registry' ↔ ∃ slot, call.target = some slot ∧
    Agrees (registry.rivals slot) call.artifact ∧ registry' = registry.place call.artifact slot := by
  cases call with
  | set name artifact =>
    simp only [RegistryCall.apply, RegistryCall.target, RegistryCall.artifact, set_eq_ok, Option.filter_eq_some_iff,
      and_assoc]
  | add name artifact =>
    simp only [RegistryCall.apply, RegistryCall.target, RegistryCall.artifact, add_eq_ok, Option.filter_eq_some_iff,
      Option.map_eq_some_iff]
    constructor
    · rintro ⟨visual, hname, hclass, hagrees, rfl⟩
      exact ⟨.visual visual, ⟨⟨visual, hname, rfl⟩, decide_eq_true hclass⟩, hagrees, rfl⟩
    · rintro ⟨slot, ⟨⟨visual, hname, rfl⟩, hclass⟩, hagrees, rfl⟩
      exact ⟨visual, hname, of_decide_eq_true hclass, hagrees, rfl⟩

/-- One call: the registry stays as it is, or the artifact has come to the call's target. -/
theorem step_cases (registry : ArtifactRegistry) (call : RegistryCall) :
    (call.step registry = registry ∧ ∀ slot, call.target = some slot → ¬ Agrees (registry.rivals slot) call.artifact) ∨
      ∃ slot, call.target = some slot ∧ Agrees (registry.rivals slot) call.artifact ∧
        call.step registry = registry.place call.artifact slot := by
  rw [RegistryCall.step]
  cases happly : call.apply registry with
  | ok registry' =>
    obtain ⟨slot, htarget, hagrees, rfl⟩ := apply_eq_ok.mp happly
    exact .inr ⟨slot, htarget, hagrees, rfl⟩
  | error e =>
    refine .inl ⟨rfl, fun slot htarget hagrees => ?_⟩
    rw [apply_eq_ok.mpr ⟨slot, htarget, hagrees, rfl⟩] at happly
    cases happly

end Calls

section Identity
variable {registry : ArtifactRegistry} {call : RegistryCall} {slot : Slot}

/-- The six slots of the semantic and temporal chain. -/
def Slot.looksAtItself : Slot → Bool
  | .single _ => true
  | _ => false

theorem rivals_of_looksAround (h : slot.looksAtItself = false) : registry.rivals slot = registry.artifacts := by
  cases slot with
  | single slot => cases h
  | _ => rfl

/-- Outside the six slots an id has one hash. -/
def OneHash (registry : ArtifactRegistry) : Prop :=
  ∀ slot other, slot.looksAtItself = false → other.looksAtItself = false → ∀ a ∈ registry.held slot,
    ∀ b ∈ registry.held other, a.artifactId = b.artifactId → a.contentHash = b.contentHash

theorem oneHash_step (h : OneHash registry) (call : RegistryCall) : OneHash (call.step registry) := by
  obtain ⟨heq, -⟩ | ⟨target, -, hagrees, heq⟩ := step_cases registry call
  · rw [heq]
    exact h
  · rw [heq]
    intro slot other hslot hother a ha b hb hid
    -- An artifact that has just come agrees with all that were there.
    rcases mem_held_place ha with hheld | ⟨rfl, rfl⟩
    · rcases mem_held_place hb with hheld' | ⟨rfl, rfl⟩
      · exact h slot other hslot hother a hheld b hheld' hid
      · rw [rivals_of_looksAround hother] at hagrees
        exact hagrees a (mem_artifacts.mpr ⟨slot, hheld⟩) hid
    · rcases mem_held_place hb with hheld' | ⟨rfl, rfl⟩
      · rw [rivals_of_looksAround hslot] at hagrees
        exact (hagrees b (mem_artifacts.mpr ⟨other, hheld'⟩) hid.symm).symm
      · rfl

theorem oneHash_run (h : OneHash registry) (calls : List RegistryCall) : OneHash (registerAll registry calls) := by
  induction calls generalizing registry with
  | nil => exact h
  | cons call calls ih => exact ih (oneHash_step h call)

theorem held_empty (slot : Slot) : ({} : ArtifactRegistry).held slot = [] := by cases slot <;> rfl

theorem oneHash_empty : OneHash {} := by
  intro slot other _ _ a ha
  rw [held_empty] at ha
  cases ha

end Identity

section Order
variable {registry : ArtifactRegistry} {call : RegistryCall} {calls calls' done : List RegistryCall}

/-- Calls whose order is not meant to decide anything: none brings an id with another hash, none replaces the
artifact of another. -/
structure OrderFree (calls : List RegistryCall) : Prop where
  oneHash : ∀ c ∈ calls, ∀ d ∈ calls, c.target.isSome → d.target.isSome →
    c.artifact.artifactId = d.artifact.artifactId → c.artifact.contentHash = d.artifact.contentHash
  oneId : ∀ c ∈ calls, ∀ d ∈ calls, ∀ slot, slot.many = false → c.target = some slot → d.target = some slot →
    c.artifact.artifactId = d.artifact.artifactId

/-- A registry that holds what these calls brought. -/
structure Registered (done : List RegistryCall) (registry : ArtifactRegistry) : Prop where
  brought : ∀ slot, ∀ a ∈ registry.held slot, ∃ c ∈ done, c.target = some slot ∧ c.artifact = a
  held : ∀ c ∈ done, ∀ slot, c.target = some slot → c.artifact.artifactId ∈ registry.heldIds slot
  nodup : ∀ slot, (registry.heldIds slot).Nodup

theorem agrees_of_registered (h : Registered done registry) (hfree : OrderFree (done ++ [call])) {slot : Slot}
    (htarget : call.target = some slot) : Agrees (registry.rivals slot) call.artifact := by
  have hall : Agrees registry.artifacts call.artifact := by
    intro known hknown
    obtain ⟨place, hheld⟩ := mem_artifacts.mp hknown
    obtain ⟨c, hc, hplace, rfl⟩ := h.brought place known hheld
    exact hfree.oneHash c (List.mem_append_left _ hc) call List.mem_concat_self
      (Option.isSome_of_eq_some hplace) (Option.isSome_of_eq_some htarget)
  cases slot with
  | single slot => exact fun known hknown => hall known (mem_artifacts.mpr ⟨.single slot, hknown⟩)
  | _ => exact hall

theorem heldIds_place_of_ne {artifact : ArtifactBase} {slot other : Slot} (h : other ≠ slot) :
    (registry.place artifact slot).heldIds other = registry.heldIds other := by
  rw [ArtifactRegistry.heldIds, held_place_of_ne h]
  rfl

theorem heldIds_place_one {artifact : ArtifactBase} {slot : Slot} (h : slot.many = false) :
    (registry.place artifact slot).heldIds slot = [artifact.artifactId] := by
  rw [ArtifactRegistry.heldIds, held_place_one h]
  rfl

theorem heldIds_place_many {artifact : ArtifactBase} {slot : Slot} (h : slot.many = true) :
    (registry.place artifact slot).heldIds slot =
      if artifact.artifactId ∈ registry.heldIds slot then registry.heldIds slot
      else registry.heldIds slot ++ [artifact.artifactId] := by
  rw [ArtifactRegistry.heldIds, held_place_many h]
  split
  · rfl
  · rw [List.map_append]
    rfl

theorem artifactId_mem_place (artifact : ArtifactBase) (slot : Slot) :
    artifact.artifactId ∈ (registry.place artifact slot).heldIds slot := by
  cases hmany : slot.many with
  | false =>
    rw [heldIds_place_one hmany]
    exact List.mem_singleton_self _
  | true =>
    rw [heldIds_place_many hmany]
    split
    · assumption
    · exact List.mem_concat_self

/-- A list loses nothing. -/
theorem mem_place_many {artifact : ArtifactBase} {slot : Slot} {i : String} (h : slot.many = true)
    (hi : i ∈ registry.heldIds slot) : i ∈ (registry.place artifact slot).heldIds slot := by
  rw [heldIds_place_many h]
  split
  · exact hi
  · exact List.mem_append_left _ hi

theorem nodup_place {artifact : ArtifactBase} {slot other : Slot} (h : (registry.heldIds other).Nodup) :
    ((registry.place artifact slot).heldIds other).Nodup := by
  by_cases hslot : other = slot
  · subst hslot
    cases hmany : other.many with
    | false =>
      rw [heldIds_place_one hmany]
      exact List.nodup_singleton _
    | true =>
      rw [heldIds_place_many hmany]
      split
      · exact h
      · rename_i hfresh
        exact List.nodup_append_comm.mp (List.nodup_cons.mpr ⟨hfresh, h⟩)
  · rw [heldIds_place_of_ne hslot]
    exact h

theorem registered_place (h : Registered done registry) (hfree : OrderFree (done ++ [call])) {slot : Slot}
    (htarget : call.target = some slot) : Registered (done ++ [call]) (registry.place call.artifact slot) := by
  refine ⟨fun place a ha => ?_, fun c hc place hplace => ?_, fun place => nodup_place (h.nodup place)⟩
  · rcases mem_held_place ha with ha | ⟨rfl, rfl⟩
    · obtain ⟨c, hc, hplace⟩ := h.brought place a ha
      exact ⟨c, List.mem_append_left _ hc, hplace⟩
    · exact ⟨call, List.mem_concat_self, htarget, rfl⟩
  · rcases List.mem_append.mp hc with hdone | hcall
    · have hheld := h.held c hdone place hplace
      by_cases hslot : place = slot
      · subst hslot
        cases hmany : place.many with
        | false =>
          -- The slot may have lost the artifact of an earlier call, but to one of the same id.
          rw [hfree.oneId c hc call List.mem_concat_self place hmany hplace htarget]
          exact artifactId_mem_place _ _
        | true => exact mem_place_many hmany hheld
      · rw [heldIds_place_of_ne hslot]
        exact hheld
    · obtain rfl := List.mem_singleton.mp hcall
      obtain rfl := Option.some.inj (hplace.symm.trans htarget)
      exact artifactId_mem_place _ _

theorem registered_step (h : Registered done registry) (hfree : OrderFree (done ++ [call])) :
    Registered (done ++ [call]) (call.step registry) := by
  obtain ⟨heq, hrefused⟩ | ⟨slot, htarget, -, heq⟩ := step_cases registry call
  · -- Nothing was in the call's way, so it had no place to go.
    rw [heq]
    have hnone : ∀ slot, call.target ≠ some slot :=
      fun slot htarget => hrefused slot htarget (agrees_of_registered h hfree htarget)
    refine ⟨fun slot a ha => ?_, fun c hc slot hslot => ?_, h.nodup⟩
    · obtain ⟨c, hc, hslot⟩ := h.brought slot a ha
      exact ⟨c, List.mem_append_left _ hc, hslot⟩
    · rcases List.mem_append.mp hc with hdone | hcall
      · exact h.held c hdone slot hslot
      · rw [List.mem_singleton.mp hcall] at hslot
        exact absurd hslot (hnone slot)
  · rw [heq]
    exact registered_place h hfree htarget

theorem OrderFree.mono (h : OrderFree calls') (hsub : ∀ c ∈ calls, c ∈ calls') : OrderFree calls where
  oneHash c hc d hd := h.oneHash c (hsub c hc) d (hsub d hd)
  oneId c hc d hd := h.oneId c (hsub c hc) d (hsub d hd)

theorem registered_run (h : Registered done registry) (hfree : OrderFree (done ++ calls)) :
    Registered (done ++ calls) (registerAll registry calls) := by
  induction calls generalizing done registry with
  | nil =>
    rw [List.append_nil]
    exact h
  | cons call calls ih =>
    have hsplit : done ++ call :: calls = done ++ [call] ++ calls := by simp
    rw [hsplit] at hfree ⊢
    exact ih (registered_step h (hfree.mono fun c hc => List.mem_append_left _ hc)) hfree

theorem registered_empty : Registered [] {} where
  brought slot a ha := by
    rw [held_empty] at ha
    cases ha
  held c hc := absurd hc List.not_mem_nil
  nodup slot := by
    rw [ArtifactRegistry.heldIds, held_empty]
    exact List.nodup_nil

theorem Registered.mem_heldIds (h : Registered done registry) {slot : Slot} {i : String} :
    i ∈ registry.heldIds slot ↔ ∃ c ∈ done, c.target = some slot ∧ c.artifact.artifactId = i := by
  constructor
  · intro hi
    obtain ⟨a, ha, rfl⟩ := List.mem_map.mp hi
    obtain ⟨c, hc, hslot, rfl⟩ := h.brought slot a ha
    exact ⟨c, hc, hslot, rfl⟩
  · rintro ⟨c, hc, hslot, rfl⟩
    exact h.held c hc slot hslot

/-- The order of the calls is not to be seen in what the slots hold. -/
theorem heldIds_perm (hfree : OrderFree calls) (hperm : calls.Perm calls') (slot : Slot) :
    ((registerAll {} calls).heldIds slot).Perm ((registerAll {} calls').heldIds slot) := by
  have hfree' : OrderFree calls' := hfree.mono fun c hc => hperm.mem_iff.mpr hc
  have h : Registered calls (registerAll {} calls) := registered_run registered_empty hfree
  have h' : Registered calls' (registerAll {} calls') := registered_run registered_empty hfree'
  refine (List.perm_ext_iff_of_nodup (h.nodup slot) (h'.nodup slot)).mpr fun i => ?_
  rw [h.mem_heldIds, h'.mem_heldIds]
  simp only [hperm.mem_iff]

theorem map_eq_of_toList_perm {A B : Type} {f : A → B} {x y : Option A} (h : (x.toList.map f).Perm (y.toList.map f)) :
    x.map f = y.map f := by
  cases x with
  | none =>
    cases y with
    | none => rfl
    | some y => cases h.length_eq
  | some x =>
    cases y with
    | none => cases h.length_eq
    | some y => exact congrArg some (List.singleton_perm_singleton.mp h)

/-- Ids in order, each with its place: the list they come from does not show. -/
theorem zipIdx_sorted_congr (name : String) {xs ys : List ArtifactBase}
    (h : (xs.map ArtifactBase.artifactId).Perm (ys.map ArtifactBase.artifactId)) :
    ((xs.insertionSort fun a b => a.artifactId ≤ b.artifactId).zipIdx.map fun entry =>
        (name ++ ":" ++ toString entry.2, entry.1.artifactId)) =
      (ys.insertionSort fun a b => a.artifactId ≤ b.artifactId).zipIdx.map fun entry =>
        (name ++ ":" ++ toString entry.2, entry.1.artifactId) := by
  have hids (zs : List ArtifactBase) : ((zs.insertionSort fun a b => a.artifactId ≤ b.artifactId).zipIdx.map fun entry =>
      (name ++ ":" ++ toString entry.2, entry.1.artifactId)) =
      ((zs.map ArtifactBase.artifactId).insertionSort (· ≤ ·)).zipIdx.map fun entry =>
        (name ++ ":" ++ toString entry.2, entry.1) := by
    rw [← List.map_insertionSort (fun a b => a.artifactId ≤ b.artifactId) (· ≤ ·) ArtifactBase.artifactId zs
      fun _ _ _ _ => Iff.rfl, List.zipIdx_map, List.map_map]
    rfl
  have hsorted : (xs.map ArtifactBase.artifactId).insertionSort (· ≤ ·) =
      (ys.map ArtifactBase.artifactId).insertionSort (· ≤ ·) :=
    ((List.perm_insertionSort _ _).trans (h.trans (List.perm_insertionSort _ _).symm)).eq_of_pairwise'
      (List.pairwise_insertionSort _ _) (List.pairwise_insertionSort _ _)
  rw [hids, hids, hsorted]

/-- Ids by slot depend only on the ids in each. -/
theorem artifactIds_congr {registry' : ArtifactRegistry}
    (h : ∀ slot, (registry.heldIds slot).Perm (registry'.heldIds slot)) :
    registry.artifactIds = registry'.artifactIds := by
  have hbase (slot : BaseSlot) : (registry.base slot).map (fun a => (slot.name, a.artifactId)) =
      (registry'.base slot).map fun a => (slot.name, a.artifactId) := by
    have hids := congrArg (Option.map (slot.name, ·)) (map_eq_of_toList_perm (h (.base slot)))
    rwa [Option.map_map, Option.map_map] at hids
  have hsingle (slot : SingleSlot) : (registry.single slot).map (fun a => (slot.name, a.artifactId)) =
      (registry'.single slot).map fun a => (slot.name, a.artifactId) := by
    have hids := congrArg (Option.map (slot.name, ·)) (map_eq_of_toList_perm (h (.single slot)))
    rwa [Option.map_map, Option.map_map] at hids
  have hvisual (slot : VisualSlot) := zipIdx_sorted_congr slot.name (h (.visual slot))
  rw [ArtifactRegistry.artifactIds, ArtifactRegistry.artifactIds]
  simp only [hbase, hsingle]
  exact congrArg _ (List.flatMap_congr fun slot _ => hvisual slot)

end Order

section Results

/-- Outside the six slots of the semantic and temporal chain one id has one hash, and whatever is registered
outside them agrees with all that is there, in any slot. Where no two calls bring one id with two hashes and none
replaces the artifact of another in a slot of one artifact, the order of the calls shows neither in the ids nor in
their root hash. -/
theorem registry_identity (rt : Identity.SnapshotRuntime) (calls : List RegistryCall) :
    let registry := registerAll {} calls
    OneHash registry ∧
      (∀ (call : RegistryCall) (slot : Slot) (registry' : ArtifactRegistry), call.target = some slot →
        slot.looksAtItself = false → call.apply registry = .ok registry' →
        Agrees registry.artifacts call.artifact) ∧
      ∀ calls', calls.Perm calls' → OrderFree calls →
        (registerAll {} calls').artifactIds = registry.artifactIds ∧
          Identity.computeArtifactRootHash rt (registerAll {} calls').artifactIds =
            Identity.computeArtifactRootHash rt registry.artifactIds := by
  intro registry
  refine ⟨oneHash_run oneHash_empty calls, ?_, ?_⟩
  · intro call slot registry' htarget hslot happly
    obtain ⟨slot', htarget', hagrees, -⟩ := apply_eq_ok.mp happly
    rw [htarget] at htarget'
    rw [← Option.some.inj htarget', rivals_of_looksAround hslot] at hagrees
    exact hagrees
  · intro calls' hperm hfree
    have hids : (registerAll {} calls').artifactIds = registry.artifactIds :=
      (artifactIds_congr fun slot => heldIds_perm hfree hperm slot).symm
    exact ⟨hids, congrArg _ hids⟩

def frameOf (artifactId : String) : ArtifactBase := ⟨artifactId, "h", .frame⟩

def twoFrames : List RegistryCall := [.add "frames" (frameOf "art-2"), .add "frames" (frameOf "art-1")]

theorem twoFrames_orderFree : OrderFree twoFrames := by
  have htarget : ∀ c ∈ twoFrames, c.target = some (.visual .frames) := by decide
  refine ⟨by decide, fun c hc d _ slot hmany hslot => ?_⟩
  rw [htarget c hc] at hslot
  rw [← Option.some.inj hslot] at hmany
  cases hmany

theorem registry_identity_two_frames :
    (registerAll {} [.add "frames" (frameOf "art-1"), .add "frames" (frameOf "art-2")]).artifactIds =
      (registerAll {} [.add "frames" (frameOf "art-2"), .add "frames" (frameOf "art-1")]).artifactIds :=
  ((registry_identity (Identity.plainRuntime .null).toSnapshotRuntime twoFrames).2.2
    [.add "frames" (frameOf "art-1"), .add "frames" (frameOf "art-2")] (List.Perm.swap _ _ [])
    twoFrames_orderFree).1

def transcriptOf (contentHash : String) : ArtifactBase := ⟨"art-1", contentHash, .other "TranscriptArtifact"⟩

def segmentsOf (contentHash : String) : ArtifactBase := ⟨"art-1", contentHash, .semanticSegment⟩

/-- One of the six slots takes an artifact whose id stands for another elsewhere, and where a slot is set twice
the later call decides. -/
theorem registry_identity_fails :
    (∃ a ∈ (registerAll {} [.set "transcript" (transcriptOf "h1"),
        .set "semantic_segments" (segmentsOf "h2")]).artifacts,
      ∃ b ∈ (registerAll {} [.set "transcript" (transcriptOf "h1"),
        .set "semantic_segments" (segmentsOf "h2")]).artifacts,
      a.artifactId = b.artifactId ∧ a.contentHash ≠ b.contentHash) ∧
      (registerAll {} [.set "source" (frameOf "art-1"), .set "source" (frameOf "art-2")]).artifactIds ≠
        (registerAll {} [.set "source" (frameOf "art-2"), .set "source" (frameOf "art-1")]).artifactIds := by
  refine ⟨⟨transcriptOf "h1", ?_, segmentsOf "h2", ?_, ?_⟩, ?_⟩ <;> decide

end Results
end StockContent.Pipeline
