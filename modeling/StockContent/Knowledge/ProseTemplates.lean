import StockContent.Knowledge.EntityProse

/-! The templates that the prose of a card is rewritten with. A card is rewritten if the expression engine reads all of
them, whatever the texts are in which they are put. -/
namespace StockContent.Knowledge
open Storage Text

/-- Success if `accepted`, and else an error of a template. -/
def Writes {A : Type} (x : Except ProseError A) (accepted : Bool) : Prop :=
  (∃ a, x = .ok a ∧ accepted = true) ∨ ∃ e, x = .error (.template e) ∧ accepted = false

section Composition
variable {A B : Type} {x : Except ProseError A} {p q : Bool}

theorem writes_ok (a : A) : Writes (.ok a) true := .inl ⟨a, rfl, rfl⟩

theorem Writes.congr (hx : Writes x p) (h : p = q) : Writes x q := h ▸ hx

theorem Writes.bind {f : A → Except ProseError B} (hx : Writes x p) (hf : ∀ a, x = .ok a → Writes (f a) q) :
    Writes (x >>= f) (p && q) := by
  obtain ⟨a, rfl, rfl⟩ | ⟨e, rfl, rfl⟩ := hx
  · exact hf a rfl
  · exact .inr ⟨e, rfl, rfl⟩

theorem Writes.ok_of (hx : Writes x true) : ∃ a, x = .ok a := by
  obtain ⟨a, h, -⟩ | ⟨e, -, h⟩ := hx
  · exact ⟨a, h⟩
  · cases h

theorem Writes.error_of (hx : Writes x false) : ∃ e, x = .error (.template e) := by
  obtain ⟨a, -, h⟩ | ⟨e, h, -⟩ := hx
  · cases h
  · exact ⟨e, h⟩

end Composition

section Templates
variable (rt : ProseRuntime)

/-- Whether the expression engine reads a template. -/
def reads (written : List Char) : Bool := (template rt.escapes written).isOk

def ProseTarget.rawTemplates (target : ProseTarget) : List (List Char) :=
  [target.label, target.label ++ ['的'], confirmationText target.label, identityConfirmationSentence target rawSentinel]

def ProseTarget.genericTemplates (target : ProseTarget) : List (List Char) :=
  [target.label, "其规范身份经同期画面确认为".toList ++ target.label,
    confirmationText target.label ++ if target.code.getD "" = "" then "，但视频画面未显示股票代码".toList else []]

/-- What is written into a text for an entity. -/
def ProseTarget.templates (target : ProseTarget) (allowGeneric allowScopedPronoun : Bool) : List (List Char) :=
  (if target.rawText.isSome then target.rawTemplates else []) ++
    (if allowScopedPronoun then [confirmationText target.label] else []) ++
    if allowGeneric then target.genericTemplates else []

theorem rewrite_writes (r : Regex) (written text : List Char) :
    Writes (rewrite rt r written text) (reads rt written) := by
  rw [rewrite, subTemplate, reads]
  cases template rt.escapes written with
  | ok expand => exact writes_ok _
  | error e => exact .inr ⟨e, rfl, rfl⟩

variable (target : ProseTarget)

theorem rewriteRaw_writes (raw text : List Char) :
    Writes (rewriteRaw rt target raw text) (target.rawTemplates.all (reads rt)) := by
  have h := (rewrite_writes rt (scopedParenthetical raw) target.label text).bind fun t _ =>
    (rewrite_writes rt (leadingDescriptor raw) (target.label ++ ['的']) t).bind fun t _ =>
    (rewrite_writes rt (trailingDescriptor raw) (confirmationText target.label) t).bind fun t _ =>
    (rewrite_writes rt (identityDescriptor raw) target.label t).bind fun t _ =>
    (rewrite_writes rt (spokenPlaceholder raw) target.label t).bind fun t _ =>
    (rewrite_writes rt (scopedPlaceholder raw) target.label
      (replace ("一个".toList ++ target.label) target.label t)).bind fun t _ =>
    (rewrite_writes rt (identityOnlySentence raw) (identityConfirmationSentence target rawSentinel) t).bind fun t _ =>
    writes_ok (replace rawSentinel raw (replace raw target.name t))
  -- The label is written five times, and counts once.
  refine h.congr ?_
  simp only [ProseTarget.rawTemplates, List.all_cons, List.all_nil]
  grind

theorem rewriteScopedPronoun_writes (text : List Char) :
    Writes (rewriteScopedPronoun rt target text) (reads rt (confirmationText target.label)) := by
  have h := (rewrite_writes rt insufficientName (confirmationText target.label) text).bind fun t _ =>
    (rewrite_writes rt (notListed target.name) (confirmationText target.label)
      (unverifiedAspect.sub confirmedAspect t)).bind fun t _ =>
    writes_ok (replace "具体证券身份和压力位未确认".toList "具体证券身份已由同期画面确认，压力位仍未确认".toList
      (replace "标的及术语得到进一步核实".toList "相关术语得到进一步核实".toList
        (replace "两个身份未确认的标的".toList (target.label ++ "与另一个身份未确认的标的".toList) t)))
  refine h.congr ?_
  rw [Bool.and_true, Bool.and_self]

theorem rewriteGeneric_writes (text : List Char) :
    Writes (rewriteGeneric rt target text) (target.genericTemplates.all (reads rt)) :=
  ((rewrite_writes rt genericIdentityPlaceholder target.label text).bind fun t _ =>
    (rewrite_writes rt unconfirmedIdentity ("其规范身份经同期画面确认为".toList ++ target.label) t).bind fun t _ =>
    rewrite_writes rt unconfirmedCode _ t).congr (by
      simp only [ProseTarget.genericTemplates, List.all_cons, List.all_nil, Bool.and_true])

theorem rewriteEntityIdentityProse_writes (text : List Char) (allowGeneric allowScopedPronoun : Bool) :
    Writes (rewriteEntityIdentityProse rt text target allowGeneric allowScopedPronoun)
      ((target.templates allowGeneric allowScopedPronoun).all (reads rt)) := by
  have hraw : Writes (target.rawText.elim (.ok text) fun raw => rewriteRaw rt target raw text)
      ((if target.rawText.isSome then target.rawTemplates else []).all (reads rt)) := by
    cases target.rawText with
    | none => exact writes_ok text
    | some raw => exact rewriteRaw_writes rt target raw text
  have hpronoun : ∀ t, Writes (if allowScopedPronoun then rewriteScopedPronoun rt target t else .ok t)
      ((if allowScopedPronoun then [confirmationText target.label] else []).all (reads rt)) := by
    intro t
    cases allowScopedPronoun with
    | false => exact writes_ok t
    | true => exact (rewriteScopedPronoun_writes rt target t).congr (by simp)
  have hgeneric : ∀ t, Writes (if allowGeneric then rewriteGeneric rt target t else .ok t)
      ((if allowGeneric then target.genericTemplates else []).all (reads rt)) := by
    intro t
    cases allowGeneric with
    | false => exact writes_ok t
    | true => exact rewriteGeneric_writes rt target t
  refine (hraw.bind fun t _ => (hpronoun t).bind fun t _ => hgeneric t).congr ?_
  rw [ProseTarget.templates, List.all_append, List.all_append, Bool.and_assoc]

end Templates

section Cards
variable (rt : ProseRuntime)

/-- Whether the templates are read that are written into a field. -/
def fieldReads (targets : List ProseTarget) (allowGeneric : Bool) (target : ProseTarget) (card : KnowledgeCard)
    (field : String) : Bool :=
  (card.prose field).all fun text =>
    (target.templates (fieldAllowsGeneric allowGeneric targets field text.toList) (targets.length = 1)).all (reads rt)

/-- Whether the templates are read that are written into a card. -/
def KnowledgeCard.templatesRead (card : KnowledgeCard) : Bool :=
  (confirmedProseTargets rt card).all fun target => proseFields.all
    (fieldReads rt (confirmedProseTargets rt card) (card.allowsGeneric (confirmedProseTargets rt card)) target card)

variable {rt} {targets : List ProseTarget} {allowGeneric : Bool} {target : ProseTarget}

theorem reconcileField_writes (field : String) (state : KnowledgeCard × List String) :
    Writes (reconcileField rt targets allowGeneric target field state)
      (fieldReads rt targets allowGeneric target state.1 field) := by
  rw [reconcileField, fieldReads]
  cases state.1.prose field with
  | none => exact writes_ok state
  | some before =>
    have h := (rewriteEntityIdentityProse_writes rt target before.toList
      (fieldAllowsGeneric allowGeneric targets field before.toList) (targets.length = 1))
    refine (h.bind (q := true) fun after _ => ?_).congr (Bool.and_true _)
    split
    · exact writes_ok _
    · exact writes_ok _

/-- The other fields stay as they are. -/
theorem reconcileField_prose {field other : String} {state state' : KnowledgeCard × List String}
    (h : reconcileField rt targets allowGeneric target field state = .ok state') (hne : field ≠ other) :
    state'.1.prose other = state.1.prose other := by
  rw [reconcileField] at h
  split at h
  · rw [← Except.ok.inj h]
  · obtain ⟨after, -, h⟩ := bind_eq_ok.mp h
    split at h
    · rw [← Except.ok.inj h]
    · rw [← Except.ok.inj h]
      simp only [KnowledgeCard.prose, Json.lookup_put, if_neg hne]

/-- A text stays a text. -/
theorem reconcileField_isSome {field other : String} {state state' : KnowledgeCard × List String}
    (h : reconcileField rt targets allowGeneric target field state = .ok state') :
    (state'.1.prose other).isSome = (state.1.prose other).isSome := by
  by_cases hne : field ≠ other
  · rw [reconcileField_prose h hne]
  · obtain rfl : field = other := not_not.mp hne
    rw [reconcileField] at h
    split at h
    · rw [← Except.ok.inj h]
    · rename_i before hbefore
      obtain ⟨after, -, h⟩ := bind_eq_ok.mp h
      split at h
      · rw [← Except.ok.inj h]
      · rw [← Except.ok.inj h, hbefore]
        simp only [KnowledgeCard.prose, Json.lookup_put, if_pos, Option.isSome_some]

theorem reconcileFields_isSome {fields : List String} {state state' : KnowledgeCard × List String}
    (h : reconcileFields rt targets allowGeneric target fields state = .ok state') (field : String) :
    (state'.1.prose field).isSome = (state.1.prose field).isSome := by
  induction fields generalizing state with
  | nil => rw [← Except.ok.inj h]
  | cons other fields ih =>
    obtain ⟨next, hnext, hrest⟩ := bind_eq_ok.mp h
    exact (ih hrest).trans (reconcileField_isSome hnext)

variable (rt targets allowGeneric)

theorem reconcileFields_writes (target : ProseTarget) {fields : List String} (hfields : fields.Nodup)
    (state : KnowledgeCard × List String) :
    Writes (reconcileFields rt targets allowGeneric target fields state)
      (fields.all (fieldReads rt targets allowGeneric target state.1)) := by
  induction fields generalizing state with
  | nil => exact writes_ok state
  | cons field fields ih =>
    have hnodup := List.nodup_cons.mp hfields
    refine (reconcileField_writes field state).bind fun next hnext => (ih hnodup.2 next).congr ?_
    -- What is written into this field is read in no other.
    rw [Bool.eq_iff_iff, List.all_eq_true, List.all_eq_true]
    refine forall₂_congr ?_
    intro other hother
    have hne : field ≠ other := fun h => hnodup.1 (h ▸ hother)
    rw [fieldReads, fieldReads, reconcileField_prose hnext hne]

variable {rt targets allowGeneric}

/-- With several targets no generic placeholder is rewritten, so only the presence of a text counts. -/
theorem fieldReads_congr {card card' : KnowledgeCard} (hlength : targets.length ≠ 1) (hgeneric : allowGeneric = false)
    {field : String} (h : (card'.prose field).isSome = (card.prose field).isSome) :
    fieldReads rt targets allowGeneric target card' field = fieldReads rt targets allowGeneric target card field := by
  have hnone : ∀ text, fieldAllowsGeneric allowGeneric targets field text = false := by
    intro text
    simp [fieldAllowsGeneric, hgeneric, hlength]
  simp only [fieldReads, hnone]
  cases hcard : card.prose field with
  | none =>
    rw [hcard, Option.isSome_none, Option.isSome_eq_false_iff, Option.isNone_iff_eq_none] at h
    rw [h]
  | some text =>
    rw [hcard] at h
    obtain ⟨text', htext'⟩ := Option.isSome_iff_exists.mp h
    rw [htext']
    rfl

theorem proseFields_nodup : proseFields.Nodup := by decide

variable (rt targets allowGeneric)

/-- The targets of a card one after another: either there is one, or the texts do not matter. -/
theorem reconcileTargets_writes (rest : List ProseTarget) (state : KnowledgeCard × List ProseReconciliation)
    (hone : targets.length = 1 → rest.length ≤ 1) (hseveral : targets.length ≠ 1 → allowGeneric = false) :
    Writes (reconcileTargets rt targets allowGeneric rest state)
      (rest.all fun target => proseFields.all (fieldReads rt targets allowGeneric target state.1)) := by
  induction rest generalizing state with
  | nil => exact writes_ok state
  | cons target rest ih =>
    have hfields := reconcileFields_writes rt targets allowGeneric target proseFields_nodup (state.1, [])
    refine hfields.bind fun next hnext => ?_
    by_cases hlength : targets.length = 1
    · obtain rfl : rest = [] := List.length_eq_zero_iff.mp (by simpa using hone hlength)
      exact writes_ok _
    · refine (ih _ (fun h => absurd h hlength)).congr ?_
      refine congrArg _ (funext fun target => congrArg _ (funext fun field => ?_))
      exact fieldReads_congr hlength (hseveral hlength) (reconcileFields_isSome hnext field)

theorem reconcileCard_writes (card : KnowledgeCard) : Writes (reconcileCard rt card) (card.templatesRead rt) := by
  have h := reconcileTargets_writes rt (confirmedProseTargets rt card)
    (card.allowsGeneric (confirmedProseTargets rt card)) (confirmedProseTargets rt card) (card, [])
    (fun h => h.le) (fun h => by simp [KnowledgeCard.allowsGeneric, h])
  exact (h.bind fun state _ => writes_ok _).congr (Bool.and_true _)

theorem reconcileCards_writes (cards : List KnowledgeCard) :
    Writes (reconcileCards rt cards) (cards.all (KnowledgeCard.templatesRead rt)) := by
  induction cards with
  | nil => exact writes_ok []
  | cons card cards ih =>
    refine (reconcileCard_writes rt card).bind fun card' _ => ?_
    exact (ih.bind fun cards' _ => writes_ok _).congr (Bool.and_true _)

section Backslash
variable {rt}

/-- Without a backslash. -/
def NoBackslash (text : List Char) : Prop := '\\' ∉ text

instance (text : List Char) : Decidable (NoBackslash text) := inferInstanceAs (Decidable ('\\' ∉ text))

theorem NoBackslash.append {before after : List Char} (h : NoBackslash before) (h' : NoBackslash after) :
    NoBackslash (before ++ after) :=
  fun hmem => (List.mem_append.mp hmem).elim h h'

theorem noBackslash_note {shown : Prop} [Decidable shown] {note : List Char} (h : NoBackslash note) :
    NoBackslash (if shown then note else []) := by
  split
  · exact h
  · exact List.not_mem_nil

theorem reads_noBackslash {written : List Char} (h : NoBackslash written) : reads rt written = true := by
  have hcontains : written.contains '\\' = false := by
    rw [← Bool.not_eq_true, List.contains_iff_mem]
    exact h
  rw [reads, template, hcontains]
  rfl

section Label
variable {target : ProseTarget} (h : NoBackslash target.label)
include h

theorem confirmationText_noBackslash : NoBackslash (confirmationText target.label) :=
  (show NoBackslash "同期画面已确认其规范身份为".toList by decide).append h

theorem rawTemplates_noBackslash : ∀ written ∈ target.rawTemplates, NoBackslash written := by
  have hsentence : NoBackslash (identityConfirmationSentence target rawSentinel) :=
    (((((show NoBackslash "本卡原始口播为“".toList by decide).append
      (show NoBackslash rawSentinel by decide)).append (show NoBackslash "”，".toList by decide)).append
      (show NoBackslash "同期画面确认其对应".toList by decide)).append h).append (noBackslash_note (by decide))
  exact List.forall_mem_cons.mpr ⟨h, List.forall_mem_cons.mpr ⟨h.append (by decide),
    List.forall_mem_cons.mpr ⟨confirmationText_noBackslash h, List.forall_mem_singleton.mpr hsentence⟩⟩⟩

theorem genericTemplates_noBackslash : ∀ written ∈ target.genericTemplates, NoBackslash written :=
  List.forall_mem_cons.mpr ⟨h, List.forall_mem_cons.mpr
    ⟨(show NoBackslash "其规范身份经同期画面确认为".toList by decide).append h,
      List.forall_mem_singleton.mpr ((confirmationText_noBackslash h).append (noBackslash_note (by decide)))⟩⟩

theorem templates_noBackslash (allowGeneric allowScopedPronoun : Bool) :
    ∀ written ∈ target.templates allowGeneric allowScopedPronoun, NoBackslash written := by
  intro written hwritten
  rw [ProseTarget.templates, List.mem_append, List.mem_append] at hwritten
  rcases hwritten with (hwritten | hwritten) | hwritten
  · split at hwritten
    · exact rawTemplates_noBackslash h written hwritten
    · cases hwritten
  · split at hwritten
    · rw [List.mem_singleton.mp hwritten]
      exact confirmationText_noBackslash h
    · cases hwritten
  · split at hwritten
    · exact genericTemplates_noBackslash h written hwritten
    · cases hwritten

end Label

/-- Labels without a backslash are always read. -/
theorem templatesRead_noBackslash {card : KnowledgeCard}
    (h : ∀ target ∈ confirmedProseTargets rt card, NoBackslash target.label) : card.templatesRead rt = true := by
  refine List.all_eq_true.mpr fun target htarget => List.all_eq_true.mpr fun field _ => ?_
  rw [fieldReads, Option.all_eq_true]
  intro text _
  exact List.all_eq_true.mpr fun written hwritten =>
    reads_noBackslash (templates_noBackslash (h target htarget) _ _ written hwritten)

end Backslash

/-- Reconciliation fails on a template, or it leaves the cards to the check of their prose. -/
theorem reconcile_outcome (cards : List KnowledgeCard) :
    if cards.all (KnowledgeCard.templatesRead rt) then
      (∃ cards', reconcileConfirmedEntityProse rt cards = .ok cards') ∨
        ∃ message, reconcileConfirmedEntityProse rt cards = .error (.valueError message)
    else ∃ e, reconcileConfirmedEntityProse rt cards = .error (.template e) := by
  have h := reconcileCards_writes rt cards
  rw [reconcileConfirmedEntityProse]
  split
  · rename_i hread
    rw [hread] at h
    obtain ⟨cards', hcards'⟩ := h.ok_of
    rw [hcards']
    change (∃ out, (validateConfirmedEntityProseConsistency rt cards' >>= fun _ => .ok cards') = .ok out) ∨
      ∃ message, (validateConfirmedEntityProseConsistency rt cards' >>= fun _ => .ok cards') =
        .error (.valueError message)
    rw [validateConfirmedEntityProseConsistency]
    split
    · exact .inl ⟨cards', rfl⟩
    · exact .inr ⟨_, rfl⟩
  · rename_i hread
    rw [Bool.not_eq_true] at hread
    rw [hread] at h
    obtain ⟨e, he⟩ := h.error_of
    exact ⟨e, by rw [he]; rfl⟩

end Cards
end StockContent.Knowledge
