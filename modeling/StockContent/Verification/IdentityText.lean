import StockContent.Ledger.SystemEvents
import StockContent.Storage.AsciiText
import StockContent.Verification.InitialPlan

/-! The two digests of a result as texts: the repository of jobs escapes what is not printable ASCII, the
planner of a snapshot keeps it. -/
namespace StockContent.Verification
open Storage Ledger

/-- How the model's dump writes numbers, days and moments. Digits and separators are ASCII. -/
structure PayloadTexts where
  number : Rat → String
  factDate : FactDate → String
  moment : DateTime → String
  ascii_factDate : ∀ d, Json.Ascii (factDate d)
  ascii_moment : ∀ d, Json.Ascii (moment d)

section Codec
variable (texts : PayloadTexts)

/-- The field as the dump has it: absent is null. -/
def dumped {A : Type} (f : A → String) : Option A → Json
  | none => .null
  | some a => .str (f a)

/-- `model_dump(mode="json")` without `available_at`. -/
def resultDocument (fields : ResultFields) : Json :=
  .obj [("claim_id", .str fields.claimId), ("status", .str (statusText fields.status)),
    ("market_snapshot_id", dumped id fields.marketSnapshotId),
    ("market_data_version", dumped id fields.marketDataVersion),
    ("fact_date", dumped texts.factDate fields.factDate), ("adjustment", dumped id fields.adjustment),
    ("verification_timestamp", dumped texts.moment fields.verificationTimestamp),
    ("verification_rule_version", .str fields.verificationRuleVersion), ("reference_value", fields.referenceValue),
    ("deviation", fields.deviation.elim .null .float), ("reason", dumped id fields.reason)]

def identityDocument (identity : VerificationIdentity) : Json :=
  .obj [("claim_id", .str identity.claimId), ("provider", .str identity.provider),
    ("result", resultDocument texts identity.result)]

/-- `json.dumps` with sorted keys; `ensure_ascii` is left at its default, or turned off. -/
def identityText (ensureAscii : Bool) (identity : VerificationIdentity) : String :=
  String.ofList (Json.rendered (if ensureAscii then Json.asciiQuoted else Json.quoted) texts.number
    (identityDocument texts identity).canonical)

variable (digest : String → String) (precedes : String → String → Bool)
  (validate : ResultFields → Except String VerificationResult)

/-- The codec whose digests are of texts. -/
def textCodec : ResultCodec String where
  digest escaped identity := "verification-" ++ digest (identityText texts escaped identity)
  precedes
  validate

end Codec

section Texts
variable {texts : PayloadTexts}

/-- The strings that come into an identity from outside. -/
def identityTexts (claimId provider : String) (fields : ResultFields) : List String :=
  [claimId, provider, fields.claimId, fields.verificationRuleVersion] ++ fields.marketSnapshotId.toList ++
    fields.marketDataVersion.toList ++ fields.adjustment.toList ++ fields.reason.toList ++ fields.referenceValue.texts

theorem statusText_ascii (status : ResultStatus) : Json.Ascii (statusText status) := by
  cases status <;> decide

theorem dumped_ascii_iff {A : Type} {f : A → String} {value : Option A} :
    (∀ s ∈ (dumped f value).texts, Json.Ascii s) ↔ ∀ a ∈ value, Json.Ascii (f a) := by
  cases value with
  | none => simp [dumped, Json.texts]
  | some a => simp [dumped, Json.texts]

theorem deviation_texts (deviation : Option Rat) : (deviation.elim Json.null Json.float).texts = [] := by
  cases deviation <;> rfl

/-- Of an object whose keys are ASCII, the values decide. -/
theorem obj_ascii_iff {fields : List (String × Json)} (hkeys : ∀ key ∈ fields.map Prod.fst, Json.Ascii key) :
    (∀ s ∈ (Json.obj fields).texts, Json.Ascii s) ↔ ∀ v ∈ fields.map Prod.snd, ∀ s ∈ v.texts, Json.Ascii s := by
  constructor
  · intro h v hv s hs
    obtain ⟨field, hfield, rfl⟩ := List.mem_map.mp hv
    exact h s (Json.mem_textsOfFields.mpr ⟨field, hfield, .inr hs⟩)
  · intro h s hs
    obtain ⟨field, hfield, rfl | hvalue⟩ := Json.mem_textsOfFields.mp hs
    · exact hkeys _ (List.mem_map_of_mem hfield)
    · exact h field.2 (List.mem_map_of_mem hfield) s hvalue

theorem resultDocument_ascii_iff {fields : ResultFields} :
    (∀ s ∈ (resultDocument texts fields).texts, Json.Ascii s) ↔
      ∀ s ∈ [fields.claimId, fields.verificationRuleVersion] ++ fields.marketSnapshotId.toList ++
        fields.marketDataVersion.toList ++ fields.adjustment.toList ++ fields.reason.toList ++
        fields.referenceValue.texts, Json.Ascii s := by
  have hkeys : ∀ key ∈ ["claim_id", "status", "market_snapshot_id", "market_data_version", "fact_date", "adjustment",
    "verification_timestamp", "verification_rule_version", "reference_value", "deviation", "reason"],
    Json.Ascii key := by decide
  refine (obj_ascii_iff ?_).trans ?_
  · exact hkeys
  simp only [List.map_cons, List.map_nil, List.forall_mem_cons, List.forall_mem_append, Json.texts,
    dumped_ascii_iff, deviation_texts, statusText_ascii, texts.ascii_factDate, texts.ascii_moment,
    Option.mem_toList, id, implies_true, true_and]
  tauto

/-- The keys, the status and what renders days and moments are ASCII: only strings from outside need not be. -/
theorem identityDocument_ascii_iff {claimId provider : String} {fields : ResultFields} :
    (∀ s ∈ (identityDocument texts (identityOf claimId provider fields)).texts, Json.Ascii s) ↔
      ∀ s ∈ identityTexts claimId provider fields, Json.Ascii s := by
  have hkeys : ∀ key ∈ ["claim_id", "provider", "result"], Json.Ascii key := by decide
  refine (obj_ascii_iff ?_).trans ?_
  · exact hkeys
  simp only [List.map_cons, List.map_nil, List.forall_mem_cons]
  rw [resultDocument_ascii_iff]
  simp only [identityOf, identityTexts, Json.texts, List.forall_mem_append, List.forall_mem_cons,
    Json.mem_texts_canonical]
  tauto

/-- Two identities' texts differ exactly where a string from outside is escaped. -/
theorem identityText_eq_iff {claimId provider : String} {fields : ResultFields} :
    identityText texts true (identityOf claimId provider fields) =
        identityText texts false (identityOf claimId provider fields) ↔
      ∀ s ∈ identityTexts claimId provider fields, Json.Ascii s := by
  rw [identityText, identityText, String.ofList_inj, if_pos rfl, if_neg Bool.false_ne_true,
    Json.rendered_ascii_iff]
  simp only [Json.mem_texts_canonical]
  exact identityDocument_ascii_iff

theorem verificationId_inj {digest : String → String} (hdigest : Function.Injective digest) {text text' : String} :
    "verification-" ++ digest text = "verification-" ++ digest text' ↔ text = text' := by
  rw [← String.toList_inj, String.toList_append, String.toList_append, List.append_cancel_left_eq,
    String.toList_inj, hdigest.eq_iff]

/-- The repository and the planner name a result alike exactly when no string of its identity has a character
that `ensure_ascii` escapes for being other than printable ASCII. -/
theorem one_identity_iff (texts : PayloadTexts) {digest : String → String} (hdigest : Function.Injective digest)
    (precedes : String → String → Bool) (validate : ResultFields → Except String VerificationResult)
    (claimId provider : String) (fields : ResultFields) :
    let codec := textCodec texts digest precedes validate
    verificationIdOf codec claimId provider fields = plannedIdOf codec claimId provider fields ↔
      ∀ s ∈ identityTexts claimId provider fields, Json.Ascii s :=
  (verificationId_inj hdigest).trans identityText_eq_iff

/-- A dump with one text for all days and moments. -/
def plainTexts : PayloadTexts where
  number _ := "0.5"
  factDate _ := "2026-01-05"
  moment _ := "2026-01-05T00:00:00Z"
  ascii_factDate _ := by decide
  ascii_moment _ := by decide

def failedCheck : ResultFields where
  claimId := "claim-1"
  status := .manualReview
  reason := some "核验失败"

/-- A reason in Chinese is escaped on one side and kept on the other. -/
theorem chinese_reason_has_two_identities :
    let codec := textCodec plainTexts id (fun a b => decide (a ≤ b)) fun _ => .error "not read back"
    verificationIdOf codec "claim-1" "quant" failedCheck ≠ plannedIdOf codec "claim-1" "quant" failedCheck := by
  intro codec h
  have hascii := identityText_eq_iff.mp ((verificationId_inj Function.injective_id).mp h)
  exact absurd (hascii "核验失败" (by simp [identityTexts, failedCheck])) (by decide)

theorem ascii_result_has_one_identity :
    let codec := textCodec plainTexts id (fun a b => decide (a ≤ b)) fun _ => .error "not read back"
    verificationIdOf codec "claim-1" "quant" { failedCheck with reason := some "NON_FACT_CLAIM" } =
      plannedIdOf codec "claim-1" "quant" { failedCheck with reason := some "NON_FACT_CLAIM" } :=
  (one_identity_iff plainTexts Function.injective_id (fun a b => decide (a ≤ b)) (fun _ => .error "not read back")
    "claim-1" "quant" { failedCheck with reason := some "NON_FACT_CLAIM" }).mpr (by decide)

end Texts
end StockContent.Verification
